import Pipework.Proofs.Answers.Tallying

/-! # What stages that give batches come to

A stage that gives batches works on the records of its input one after the other and passes errors
on. It would do so until its input ends; but a record with the key of the sentinel is the last one
that it takes, wherever that record comes from.
-/

namespace Pipework

variable {setting : Setting} {task : Task}

open Scene (Attains Supplies Settles)

/-- The work on a record comes to a batch. The stage of the scenes is the input, which has to wait. -/
inductive Job.Works (setting : Setting) :
    Job Stage → Scene → Except PipeError (List Record) → Scene → Prop
  | wait {conf : Conf} {item : Record} {batch : Except PipeError (List Record)}
      {before after : Scene} {waiting : World} {time : Nat}
      (hwake : (Run.wakeAt before.world.clock).run before.world = some ((), waiting))
      (halarm : waiting.alarm = some time)
      (h : Works setting (.load conf item false) ({ before with world := waiting }.wake time) batch
        after) :
      Works setting (.load conf item true) before batch after
  | load {conf : Conf} {item : Record} {batch : Except PipeError (List Record)} {before : Scene}
      {later : World} (h : (Job.fetch setting conf item).run before.world = some (batch, later)) :
      Works setting (.load conf item false) before batch { before with world := later }
  | refuse {rule : LoopRule} {embed : Embed Factory} {mode : Mode} {item : Record}
      {error : PipeError} {before : Scene} {later : World}
      (h : (embed.instantiate setting mode item).run before.world = some (.error error, later)) :
      Works setting (.instantiate rule embed mode item) before (.error error)
        { before with world := later }
  | enter {rule : LoopRule} {embed : Embed Factory} {mode : Mode} {item : Record} {stage : Stage}
      {batch : Except PipeError (List Record)} {before after : Scene} {later : World}
      (h : (embed.instantiate setting mode item).run before.world = some (.ok stage, later))
      (hrest : Works setting (.collect rule item stage []) { before with world := later } batch
        after) :
      Works setting (.instantiate rule embed mode item) before batch after
  | ended {rule : LoopRule} {item : Record} {stage : Stage} {found : List Record}
      {before asked : Scene} (h : Attains setting { before with stage } .ended asked) :
      Works setting (.collect rule item stage found) before (.ok (rule.apply item found))
        { asked with stage := before.stage }
  | failed {rule : LoopRule} {item : Record} {stage : Stage} {found : List Record}
      {error : PipeError} {before asked : Scene}
      (h : Attains setting { before with stage } (.answer (.error error)) asked) :
      Works setting (.collect rule item stage found) before (.error error)
        { asked with stage := before.stage }
  | found {rule : LoopRule} {item : Record} {stage : Stage} {found : List Record}
      {record : Record} {batch : Except PipeError (List Record)} {before asked after : Scene}
      (h : Attains setting { before with stage } (.answer (.ok record)) asked)
      (hrest : Works setting (.collect rule item asked.stage (found ++ [record]))
        { asked with stage := before.stage } batch after) :
      Works setting (.collect rule item stage found) before batch after

/-- What comes of the answers of an input if every record is worked on and errors are passed on,
until the input ends or after a record at which that stops: the answers taken from the input, and
the answers given. -/
inductive Task.Handles (setting : Setting) (task : Task) (stops : Record → Bool) :
    Scene → List Answer → List Answer → Scene → Prop
  | ended {before after : Scene} (h : Attains setting before .ended after) :
      Handles setting task stops before [] [] after
  | error {before middle after : Scene} {error : PipeError} {taken given : List Answer}
      (h : Attains setting before (.answer (.error error)) middle)
      (hrest : Handles setting task stops middle taken given after) :
      Handles setting task stops before (.error error :: taken) (.error error :: given) after
  | record {before middle worked after : Scene} {item : Record}
      {batch : Except PipeError (List Record)} {taken given : List Answer}
      (h : Attains setting before (.answer (.ok item)) middle) (hgoes : stops item = false)
      (hwork : Job.Works setting (task.begin item) middle batch worked)
      (hrest : Handles setting task stops worked taken given after) :
      Handles setting task stops before (.ok item :: taken) (Batches.answersOf batch ++ given) after
  | last {before middle after : Scene} {item : Record} {batch : Except PipeError (List Record)}
      (h : Attains setting before (.answer (.ok item)) middle) (hstops : stops item = true)
      (hwork : Job.Works setting (task.begin item) middle batch after) :
      Handles setting task stops before [.ok item] (Batches.answersOf batch) after

namespace Job.Works

variable {job : Job Stage} {before after : Scene} {batch : Except PipeError (List Record)}

/-- While the work goes on the stage waits, and then it comes to what it comes to with the answers of
the batch. -/
theorem attains (h : Works setting job before batch after) (task : Task) (last : Bool) {poll : Poll}
    {reached : Scene}
    (hrest : Attains setting ⟨.batches task ⟨after.stage, Batches.answersOf batch, none, last⟩,
      after.junctions, after.world⟩ poll reached) :
    Attains setting ⟨.batches task ⟨before.stage, [], some job, last⟩, before.junctions,
      before.world⟩ poll reached := by
  induction h with
  | wait hwake halarm _ ih => exact .again (.wait (.load ..) hwake) halarm (ih hrest)
  | load h => exact .move (.load h) hrest
  | refuse h => exact .move (.refuse h) hrest
  | enter h _ ih => exact .move (.enter h) (ih hrest)
  | @ended rule item _ found before _ h =>
      exact h.go (.collect task before.stage last rule item found) rfl hrest
  | @failed rule item _ found _ before _ h =>
      exact h.go (.collect task before.stage last rule item found) rfl hrest
  | @found rule item _ found _ _ before _ _ h _ ih =>
      exact h.go (.collect task before.stage last rule item found) rfl (ih hrest)

/-- In either mode what fetching comes to is the batch. -/
theorem of_fetch {conf : Conf} {item : Record} (mode : Mode)
    (hfetch : ∀ world, ∃ later, (Job.fetch setting conf item).run world = some (batch, later))
    (before : Scene) :
    ∃ after, Works setting ((Task.fetch conf mode).begin item) before batch after := by
  rw [Task.begin]
  cases mode == .async && (Fetch.path conf (some item)).isOk with
  | false =>
      obtain ⟨later, hfetched⟩ := hfetch before.world
      exact ⟨_, .load hfetched⟩
  | true =>
      obtain ⟨wake, hwake⟩ := Run.run_wakeAt before.world.clock before.world
      obtain ⟨later, hfetched⟩ :=
        hfetch { before.world with clock := max before.world.clock wake, alarm := none }
      exact ⟨_, .wait hwake rfl (.load hfetched)⟩

end Job.Works

/-- A source that can be named is read. -/
theorem Job.run_fetch (setting : Setting) {conf : Conf} {item : Record} {path : String}
    (hpath : Fetch.path conf (some item) = .ok path) (world : World) :
    ∃ later, (Job.fetch setting conf item).run world =
      some (Fetch.records (setting.read path), later) := by
  unfold Job.fetch
  rw [hpath]
  exact ⟨_, rfl⟩

namespace Scene.Supplies

variable {before after : Scene} {taken given : List Answer}

/-- The answers that wait come first. -/
theorem queued {source : Stage} {last : Bool} {junctions : List (Junction Stage)} {world : World}
    (queue : List Answer)
    (h : Supplies setting ⟨.batches task ⟨source, [], none, last⟩, junctions, world⟩ given after) :
    Supplies setting ⟨.batches task ⟨source, queue, none, last⟩, junctions, world⟩ (queue ++ given)
      after := by
  induction queue with
  | nil => exact h
  | cons answer rest ih => exact .answer (.ready (.ready rfl) nofun) ih

/-- Every row of answers is supplied by some stage. -/
theorem of_answers (setting : Setting) (answers : List Answer) :
    ∃ before after, Supplies setting before answers after := by
  have hend : Supplies setting ⟨.batches (.fetch .empty .sync) ⟨.sentinel, [], none, true⟩, [], {}⟩ [] _ :=
    .ended (.ready (.dry (.batches ..)) nofun)
  have hqueue := hend.queued answers
  rw [List.append_nil] at hqueue
  exact ⟨_, _, hqueue⟩

/-- A stage that gives batches supplies what comes of its input up to a record with the key of the
sentinel. -/
theorem batches (h : task.Handles setting Record.isSentinel before taken given after) :
    Supplies setting ⟨.batches task ⟨before.stage, [], none, false⟩, before.junctions, before.world⟩
      given ⟨.batches task ⟨after.stage, [], none, true⟩, after.junctions, after.world⟩ := by
  induction h with
  | ended h => exact .ended (h.stop (.input task) rfl)
  | error h _ ih => exact .answer (h.stop (.input task) rfl) ih
  | @record _ middle worked _ item batch _ _ h hgoes hwork _ ih =>
      refine (ih.queued (Batches.answersOf batch)).of_attains fun poll after hattains => ?_
      have hworked := hwork.attains task false hattains
      rw [← hgoes] at hworked
      exact h.go (.input task) rfl hworked
  | @last _ middle after item batch h hstops hwork =>
      have hend : Supplies setting ⟨.batches task ⟨after.stage, [], none, true⟩, after.junctions,
          after.world⟩ [] _ := .ended (.ready (.dry (.batches task after.stage)) nofun)
      have hqueue := hend.queued (Batches.answersOf batch)
      rw [List.append_nil] at hqueue
      refine hqueue.of_attains fun poll after hattains => ?_
      have hworked := hwork.attains task true hattains
      rw [← hstops] at hworked
      exact h.go (.input task) rfl hworked

end Scene.Supplies

namespace Answer

/-- The answers up to the first record with the key of the sentinel, and that record. -/
def throughKey : List Answer → List Answer
  | [] => []
  | answer :: rest => if isKeyed answer then [answer] else answer :: throughKey rest

end Answer

namespace Task.Handles

variable {before after : Scene} {taken given : List Answer}

/-- Of what would come of all records there comes the beginning, up to a record with the key. Nothing
is missing if that is the last record. -/
theorem cut (h : task.Handles setting (fun _ => false) before taken given after) :
    ∃ shorter rest reached, given = shorter ++ rest ∧
      (Answer.throughKey taken = taken → rest = []) ∧
      task.Handles setting Record.isSentinel before (Answer.throughKey taken) shorter reached := by
  induction h with
  | ended h => exact ⟨[], [], _, rfl, fun _ => rfl, .ended h⟩
  | @error _ _ _ error _ _ h _ ih =>
      obtain ⟨shorter, rest, reached, rfl, hall, hhandles⟩ := ih
      refine ⟨.error error :: shorter, rest, reached, rfl, fun hsame => hall ?_, .error h hhandles⟩
      exact (List.cons.inj hsame).2
  | @record _ _ _ _ item batch taken given h _ hwork hrest ih =>
      cases hkeyed : item.isSentinel with
      | true =>
          have hthrough : Answer.throughKey (.ok item :: taken) = [.ok item] := if_pos hkeyed
          rw [hthrough]
          refine ⟨Batches.answersOf batch, given, _, rfl, fun hsame => ?_, .last h hkeyed hwork⟩
          -- Nothing else is taken, so that nothing else comes of it.
          obtain rfl : taken = [] := (List.cons.inj hsame).2.symm
          cases hrest
          rfl
      | false =>
          have hthrough : Answer.throughKey (.ok item :: taken) =
              .ok item :: Answer.throughKey taken := if_neg (Bool.eq_false_iff.mp hkeyed)
          obtain ⟨shorter, rest, reached, rfl, hall, hhandles⟩ := ih
          rw [hthrough]
          refine ⟨Batches.answersOf batch ++ shorter, rest, reached, (List.append_assoc ..).symm,
            fun hsame => hall (List.cons.inj hsame).2, .record h hkeyed hwork hhandles⟩
  | last _ hstops => cases hstops

end Task.Handles

end Pipework
