import Pipework.Proofs.Answers.Batching

/-! # What a fetching stage has given

Every answer of a fetching stage is accounted for by the answers that it has taken from its input: an
error comes of the same error, and the records of a source, or why there are none, come of a record.
Nothing is given twice and nothing is left out, whoever asks and whatever happens in between.
-/

namespace Pipework

variable {setting : Setting}

/-- The answer, if there is one. -/
def Poll.answer? : Poll → Option Answer
  | .answer given => some given
  | _ => none

theorem Poll.mem_answers {answer : Answer} {polls : List Poll} :
    answer ∈ polls.filterMap Poll.answer? ↔ .answer answer ∈ polls := by
  rw [List.mem_filterMap]
  constructor
  · rintro ⟨poll, hpoll, hanswer⟩
    cases poll with
    | answer given =>
        cases hanswer
        exact hpoll
    | _ => cases hanswer
  · exact fun h => ⟨.answer answer, h, rfl⟩

/-- What a stage comes to when it is asked one time after the other. Each time it has a budget of its
own, and what surrounds it may have changed. -/
inductive Stage.Polled (setting : Setting) : Stage → List Poll → Stage → Prop
  | nil (stage : Stage) : Polled setting stage [] stage
  | cons {stage last : Stage} {budget : Nat} {junctions : List (Junction Stage)} {world : World}
      {poll : Poll} {after : Scene} {polls : List Poll}
      (h : Scene.Comes (Stage.poll setting budget) ⟨stage, junctions, world⟩ poll after)
      (hrest : Polled setting after.stage polls last) : Polled setting stage (poll :: polls) last

namespace Stage.Polled

variable {stage middle last : Stage} {first second : List Poll}

theorem append (h : stage.Polled setting first middle) (hrest : middle.Polled setting second last) :
    stage.Polled setting (first ++ second) last := by
  induction h with
  | nil => exact hrest
  | cons h _ ih => exact .cons h (ih hrest)

end Stage.Polled

namespace Fetch

/-- The records that are fetched for a record. -/
def batch (setting : Setting) (conf : Conf) (item : Record) : Except PipeError (List Record) :=
  (path conf (some item)).bind fun path => records (setting.read path)

/-- What is given for an answer of the input. -/
def block (setting : Setting) (conf : Conf) : Answer → List Answer
  | .error error => [.error error]
  | .ok item => Batches.answersOf (batch setting conf item)

theorem run_fetch (setting : Setting) (conf : Conf) (item : Record) (world : World) :
    ∃ later, (Job.fetch setting conf item).run world = some (batch setting conf item, later) := by
  unfold Job.fetch batch
  cases path conf (some item) with
  | error error => exact ⟨world, rfl⟩
  | ok path => exact ⟨_, rfl⟩

/-- A fetching stage has an input and answers that it still owes for what it has taken from it. While
a source is being fetched these are the ones that come of it. -/
inductive Owes (setting : Setting) (conf : Conf) (mode : Mode) : Stage → Stage → List Answer → Prop
  | idle (input : Stage) (queue : List Answer) (last : Bool) :
      Owes setting conf mode (.batches (.fetch conf mode) ⟨input, queue, none, last⟩) input queue
  | busy (input : Stage) (item : Record) (waits last : Bool) :
      Owes setting conf mode
        (.batches (.fetch conf mode) ⟨input, [], some (.load conf item waits), last⟩) input
        (block setting conf (.ok item))

/-- From a stage that owes some answers to another, over what it has come to: answers have been given
and taken, and what is owed is the difference. -/
def Squares (setting : Setting) (conf : Conf) (mode : Mode) (input : Stage) (owed : List Answer)
    (given : List Poll) (next : Stage) : Prop :=
  ∃ taken rest left, input.Polled setting taken rest ∧ Owes setting conf mode next rest left ∧
    given.filterMap Poll.answer? ++ left =
      owed ++ (taken.filterMap Poll.answer?).flatMap (block setting conf)

variable {conf : Conf} {mode : Mode} {input : Stage} {owed : List Answer}

namespace Squares

variable {budget : Nat} {junctions : List (Junction Stage)} {world : World} {poll : Poll}
  {asked : Scene} {given : List Poll} {next : Stage}

/-- Nothing has been taken. -/
theorem of_owes {left : List Answer} (h : Owes setting conf mode next input left)
    (hgiven : given.filterMap Poll.answer? ++ left = owed) :
    Squares setting conf mode input owed given next :=
  ⟨[], input, left, .nil input, h, by simpa using hgiven⟩

/-- The input has been asked, and its answer is owed for. -/
theorem ask (h : Scene.Comes (Stage.poll setting budget) ⟨input, junctions, world⟩ poll asked)
    (hrest : Squares setting conf mode asked.stage
      (poll.answer?.toList.flatMap (block setting conf)) given next) :
    Squares setting conf mode input [] given next := by
  obtain ⟨taken, rest, left, htaken, howes, hsum⟩ := hrest
  refine ⟨poll :: taken, rest, left, .cons h htaken, howes, ?_⟩
  rw [hsum, List.nil_append, ← List.flatMap_append]
  cases poll <;> rfl

end Squares

/-- Asking a fetching stage once, which may take a number of records for its answer, settles what the
stage owes. -/
def SquaresWithin (setting : Setting) (conf : Conf) (mode : Mode) (depth gathers count : Nat) : Prop :=
  ∀ {stage input : Stage} {owed : List Answer} {junctions : List (Junction Stage)} {world : World}
    {poll : Poll} {after : Scene}, Owes setting conf mode stage input owed →
      Scene.Comes (Stage.pollSteps setting depth count gathers) ⟨stage, junctions, world⟩ poll after →
        Squares setting conf mode input owed [poll] after.stage

namespace SquaresWithin

variable {depth gathers count : Nat} {junctions : List (Junction Stage)} {world : World} {poll : Poll}
  {after : Scene}

/-- A stage that owes nothing asks its input. -/
theorem ask (h : SquaresWithin setting conf mode depth gathers count)
    (hcomes : Scene.Comes (Stage.pollSteps setting depth (count + 1) gathers)
      ⟨.batches (.fetch conf mode) ⟨input, [], none, false⟩, junctions, world⟩ poll after) :
    Squares setting conf mode input [] [poll] after.stage := by
  rw [Scene.Comes, Stage.pollSteps_input] at hcomes
  obtain ⟨given, asked, hask, hreact⟩ := Scene.comes_react.mp hcomes
  refine .ask hask ?_
  rcases hreact with ⟨stage, hstop, rfl⟩ | ⟨stage, hgo, hrest⟩
  · -- All but a record is passed on.
    rcases given with _ | _ | (error | item)
    all_goals cases hstop
    all_goals exact .of_owes (.idle asked.stage [] _) rfl
  · rcases given with _ | _ | (error | item)
    all_goals cases hgo
    have hbusy := h (.busy asked.stage item _ item.isSentinel) hrest
    simpa only [Poll.answer?, Option.toList_some, List.flatMap_singleton] using hbusy

/-- A stage that fetches a source waits first or comes to the batch. -/
theorem fetch (h : SquaresWithin setting conf mode depth gathers count) {item : Record}
    {waits last : Bool}
    (hcomes : Scene.Comes (Stage.pollSteps setting depth (count + 1) gathers)
      ⟨.batches (.fetch conf mode) ⟨input, [], some (.load conf item waits), last⟩, junctions, world⟩
        poll after) :
    Squares setting conf mode input (block setting conf (.ok item)) [poll] after.stage := by
  rw [Scene.Comes, Stage.pollSteps_some, Stage.pollJob, Flow.comes_bind] at hcomes
  obtain ⟨progress, middle, between, hwork, hrest⟩ := hcomes
  cases waits with
  | true =>
      simp only [Job.work, Flow.comes_bind, Flow.comes_pure] at hwork
      obtain ⟨_, _, _, _, _, _, _, _, rfl, rfl, rfl⟩ := hwork
      obtain ⟨hpoll, -, -⟩ := Flow.comes_pure.mp hrest
      obtain ⟨rfl, hstage⟩ := Prod.mk.inj hpoll
      rw [← hstage]
      exact .of_owes (.busy input item false last) rfl
  | false =>
      simp only [Job.work, Flow.comes_bind, Flow.comes_lift, Flow.comes_pure] at hwork
      obtain ⟨found, _, _, ⟨rfl, hfetch⟩, rfl, rfl, rfl⟩ := hwork
      obtain ⟨later, hbatch⟩ := run_fetch setting conf item world
      cases hfetch.symm.trans hbatch
      exact h (.idle input _ last) hrest

theorem zero : SquaresWithin setting conf mode depth gathers 0 := by
  intro stage input owed junctions world poll after howes hcomes
  cases howes
  all_goals
    obtain ⟨_, _, _, hnone, -⟩ := Flow.comes_bind.mp hcomes
    exact absurd hnone Flow.not_comes_failure

theorem succ (h : SquaresWithin setting conf mode depth gathers count) :
    SquaresWithin setting conf mode depth gathers (count + 1) := by
  intro stage input owed junctions world poll after howes hcomes
  cases howes with
  | busy => exact h.fetch hcomes
  | idle _ _ last =>
      cases owed with
      | cons answer rest =>
          obtain ⟨next, later, behind⟩ := after
          cases hcomes
          exact .of_owes (.idle input rest last) rfl
      | nil =>
          cases last with
          | false => exact h.ask hcomes
          | true =>
              obtain ⟨next, later, behind⟩ := after
              cases hcomes
              exact .of_owes (.idle input [] true) rfl

theorem all (count : Nat) : SquaresWithin setting conf mode depth gathers count := by
  induction count with
  | zero => exact SquaresWithin.zero
  | succ count ih => exact ih.succ

end SquaresWithin

theorem Owes.poll {budget : Nat} {stage : Stage} {junctions : List (Junction Stage)} {world : World}
    {poll : Poll} {after : Scene} (howes : Owes setting conf mode stage input owed)
    (h : Scene.Comes (Stage.poll setting budget) ⟨stage, junctions, world⟩ poll after) :
    Squares setting conf mode input owed [poll] after.stage := by
  cases budget with
  | zero => exact absurd h Flow.not_comes_failure
  | succ budget =>
      rw [Scene.Comes, Stage.poll_succ] at h
      exact SquaresWithin.all budget howes h

/-- However often a fetching stage is asked, it settles what it owes. -/
theorem Owes.polled {stage last : Stage} {polls : List Poll}
    (howes : Owes setting conf mode stage input owed) (h : stage.Polled setting polls last) :
    Squares setting conf mode input owed polls last := by
  induction h generalizing input owed with
  | nil => exact .of_owes howes rfl
  | @cons _ _ _ _ _ poll _ polls h _ ih =>
      obtain ⟨taken, rest, left, htaken, howesNext, hfirst⟩ := howes.poll h
      obtain ⟨more, last, due, hmore, howesLast, hsecond⟩ := ih howesNext
      refine ⟨taken ++ more, last, due, htaken.append hmore, howesLast, ?_⟩
      calc
        (poll :: polls).filterMap Poll.answer? ++ due
          = [poll].filterMap Poll.answer? ++ (polls.filterMap Poll.answer? ++ due) := by
          rw [← List.append_assoc, ← List.filterMap_append]
          rfl
        _ = ([poll].filterMap Poll.answer? ++ left) ++
            (more.filterMap Poll.answer?).flatMap (block setting conf) := by
          rw [hsecond, List.append_assoc]
        _ = _ := by
          rw [hfirst, List.append_assoc, List.filterMap_append, List.flatMap_append]

end Fetch

end Pipework
