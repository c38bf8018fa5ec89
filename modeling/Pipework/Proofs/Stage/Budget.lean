import Pipework.Proofs.Fanout.Branches
import Pipework.Proofs.Outcome
import Pipework.Proofs.Stage.Gives

/-! # Asking within a budget

Asking a stage within a budget comes to what `Scene.Gives` says, if it comes to anything, and from
some budget on it does. So what a stage comes to does not depend on the budget.

`Stage.poll` has one budget for how deep stages stand inside of stages and for how many records a
stage takes for one answer. Here these have budgets of their own.
-/

namespace Pipework

namespace Flow

variable {α β : Type} {junctions later : List (Junction Stage)} {world after : World}

/-- What a computation comes to, with the junctions and the world that it leaves. -/
def Comes (computation : Flow α) (junctions : List (Junction Stage)) (world : World) (value : α)
    (later : List (Junction Stage)) (after : World) : Prop :=
  (computation.run junctions).run world = some ((value, later), after)

theorem comes_pure {value result : α} :
    Comes (pure value) junctions world result later after ↔
      value = result ∧ junctions = later ∧ world = after := by
  constructor
  · intro h
    cases h
    exact ⟨rfl, rfl, rfl⟩
  · rintro ⟨rfl, rfl, rfl⟩
    rfl

theorem comes_bind {first : Flow α} {next : α → Flow β} {result : β} :
    Comes (first >>= next) junctions world result later after ↔ ∃ value middle between,
      Comes first junctions world value middle between ∧
        Comes (next value) middle between result later after := by
  unfold Comes
  rw [StateT.run_bind, run_bind_eq_some_iff]
  constructor
  · rintro ⟨⟨value, middle⟩, between, hfirst, hnext⟩
    exact ⟨value, middle, between, hfirst, hnext⟩
  · rintro ⟨value, middle, between, hfirst, hnext⟩
    exact ⟨(value, middle), between, hfirst, hnext⟩

theorem comes_lift {computation : Run α} {result : α} :
    Comes (liftM computation : Flow α) junctions world result later after ↔
      junctions = later ∧ computation.run world = some (result, after) := by
  have hlift : (liftM computation : Flow α).run junctions =
      computation >>= fun value => pure (value, junctions) := rfl
  unfold Comes
  rw [hlift, run_bind_eq_some_iff]
  constructor
  · rintro ⟨value, middle, hrun, hpure⟩
    cases hpure
    exact ⟨rfl, hrun⟩
  · rintro ⟨rfl, hrun⟩
    exact ⟨result, after, hrun, rfl⟩

theorem comes_get {held : List (Junction Stage)} :
    Comes (get : Flow (List (Junction Stage))) junctions world held later after ↔
      held = junctions ∧ junctions = later ∧ world = after := by
  constructor
  · intro h
    cases h
    exact ⟨rfl, rfl, rfl⟩
  · rintro ⟨rfl, rfl, rfl⟩
    rfl

theorem comes_modify {change : List (Junction Stage) → List (Junction Stage)} :
    Comes (modify change : Flow Unit) junctions world () later after ↔
      change junctions = later ∧ world = after := by
  constructor
  · intro h
    cases h
    exact ⟨rfl, rfl⟩
  · rintro ⟨rfl, rfl⟩
    rfl

theorem not_comes_failure {result : α} :
    ¬ Comes (failure : Flow α) junctions world result later after :=
  nofun

end Flow

/-- What a way of asking comes to for the stage of a scene. -/
def Scene.Comes (ask : Stage → Flow (Poll × Stage)) (before : Scene) (poll : Poll) (after : Scene) :
    Prop :=
  Flow.Comes (ask before.stage) before.junctions before.world (poll, after.stage) after.junctions
    after.world

/-- Goes on if there is more to do. -/
def Reaction.proceed (next : Stage → Flow (Poll × Stage)) : Reaction → Flow (Poll × Stage)
  | .stop poll stage => pure (poll, stage)
  | .go stage => next stage

namespace Stage

variable (setting : Setting) (depth count gathers first : Nat)

/-- Asks a stage that may take a number of records for itself. The work on each of them may collect
another number of records. -/
def pollSteps : Stage → Flow (Poll × Stage)
  | .batches task state => do
      let (poll, state) ← state.poll (poll setting depth) (fun item => task.begin item)
        (Job.work setting (poll setting depth) gathers) failure count
      return (poll, .batches task state)
  | .tally state => do
      let (poll, state) ← state.poll (poll setting depth) failure count
      return (poll, .tally state)
  | stage => poll setting (depth + 1) stage

/-- Goes on after the work on a record. -/
def pollRest (task : Task) (input : Stage) (last : Bool) :
    Progress (Job Stage) → Flow (Poll × Stage)
  | .waiting job => pure (.pending, .batches task ⟨input, [], some job, last⟩)
  | .finished batch =>
      pollSteps setting depth count gathers
        (.batches task ⟨input, Batches.answersOf batch, none, last⟩)

/-- Asks a stage whose work under way may collect a number of its own of records. -/
def pollJob : Stage → Flow (Poll × Stage)
  | .batches task ⟨input, [], some job, last⟩ =>
      Job.work setting (poll setting depth) first job >>=
        pollRest setting depth count gathers task input last
  | stage => pollSteps setting depth count gathers stage

variable {setting depth count gathers first}

theorem poll_succ (stage : Stage) :
    poll setting (depth + 1) stage = pollSteps setting depth depth depth stage := by
  cases stage <;> rfl

theorem pollJob_none (task : Task) (input : Stage) (queue : List Answer) (last : Bool) :
    pollJob setting depth count gathers first (.batches task ⟨input, queue, none, last⟩) =
      pollSteps setting depth count gathers (.batches task ⟨input, queue, none, last⟩) := by
  cases queue <;> rfl

theorem pollSteps_some (task : Task) (input : Stage) (job : Job Stage) (last : Bool) :
    pollSteps setting depth (count + 1) gathers (.batches task ⟨input, [], some job, last⟩) =
      pollJob setting depth count gathers gathers (.batches task ⟨input, [], some job, last⟩) := by
  simp only [pollSteps, pollJob, Batches.poll, bind_assoc]
  apply bind_congr
  intro progress
  cases progress <;> simp [pollRest, pollSteps]

theorem poll_tagged (id : ModuleId) (index : Nat) (inner : Stage)
    (next : Stage → Flow (Poll × Stage)) :
    poll setting (depth + 1) (.tagged id index inner) = poll setting depth inner >>= fun asked =>
      ((Hole.tagged id index).react setting.now asked.1 asked.2).proceed next := by
  rw [poll]
  apply bind_congr
  rintro ⟨poll, asked⟩
  cases poll <;> rfl

theorem poll_mapped (transform : Transform) (inner : Stage) (next : Stage → Flow (Poll × Stage)) :
    poll setting (depth + 1) (.mapped transform inner) = poll setting depth inner >>= fun asked =>
      ((Hole.mapped transform).react setting.now asked.1 asked.2).proceed next := by
  rw [poll]
  rfl

theorem pollSteps_tally (tallied : Nat) (inner : Stage) :
    pollSteps setting depth (count + 1) gathers (.tally ⟨inner, tallied, false⟩) =
      poll setting depth inner >>= fun asked =>
        ((Hole.tally tallied).react setting.now asked.1 asked.2).proceed
          (pollSteps setting depth count gathers) := by
  simp only [pollSteps, Tally.poll, Bool.false_eq_true, if_false, bind_assoc]
  apply bind_congr
  rintro ⟨poll, asked⟩
  rcases poll with _ | _ | (error | item)
  · rfl
  · rfl
  · rfl
  · simp only [Hole.react, Hole.reactTally]
    split
    · rfl
    · rfl

theorem pollSteps_input (task : Task) (inner : Stage) :
    pollSteps setting depth (count + 1) gathers (.batches task ⟨inner, [], none, false⟩) =
      poll setting depth inner >>= fun asked =>
        ((Hole.input task).react setting.now asked.1 asked.2).proceed
          (pollSteps setting depth count gathers) := by
  simp only [pollSteps, Batches.poll, Bool.false_eq_true, if_false, bind_assoc]
  apply bind_congr
  rintro ⟨poll, asked⟩
  rcases poll with _ | _ | (error | record) <;> rfl

theorem pollJob_collect (task : Task) (source : Stage) (last : Bool) (rule : LoopRule)
    (item : Record) (found : List Record) (inner : Stage) :
    pollJob setting depth count gathers (first + 1)
        (.batches task ⟨source, [], some (.collect rule item inner found), last⟩) =
      poll setting depth inner >>= fun asked =>
        ((Hole.collect task source last rule item found).react setting.now asked.1
          asked.2).proceed (pollJob setting depth count gathers first) := by
  simp only [pollJob, Job.work, Job.gather, bind_assoc]
  apply bind_congr
  rintro ⟨poll, asked⟩
  rcases poll with _ | _ | (error | record)
  · rfl
  · exact (pollJob_none task source _ last).symm
  · rfl
  · rfl

variable (setting) in
/-- Either no work is under way, or it is the first step. -/
theorem pollJob_or (stage : Stage) :
    (∀ depth count gathers first, pollJob setting depth count gathers first stage =
      pollSteps setting depth count gathers stage) ∨
    ∀ depth count gathers, pollSteps setting depth (count + 1) gathers stage =
      pollJob setting depth count gathers gathers stage := by
  cases stage with
  | batches task state =>
      obtain ⟨input, queue, job, last⟩ := state
      cases queue with
      | cons answer rest => exact .inl fun _ _ _ _ => rfl
      | nil =>
          cases job with
          | none => exact .inl fun _ _ _ _ => rfl
          | some job => exact .inr fun _ _ _ => pollSteps_some task input job last
  | _ => exact .inl fun _ _ _ _ => rfl

variable (setting depth count gathers first) in
/-- What is left of the budgets for a stage with a hole that goes on. -/
def pollOn : Hole → Stage → Flow (Poll × Stage)
  | .collect .. => pollJob setting depth (count + 1) gathers first
  | _ => pollSteps setting depth count gathers

theorem pollJob_fill (hole : Hole) (inner : Stage) :
    pollJob setting depth (count + 1) gathers (first + 1) (hole.fill inner) =
      poll setting depth inner >>= fun asked =>
        (hole.react setting.now asked.1 asked.2).proceed
          (pollOn setting depth count gathers first hole) := by
  cases hole with
  | tagged id index => exact poll_tagged id index inner _
  | mapped transform => exact poll_mapped transform inner _
  | tally tallied => exact pollSteps_tally tallied inner
  | input task => exact pollSteps_input task inner
  | collect task source last rule item found =>
      exact pollJob_collect task source last rule item found inner

end Stage

namespace Junction

variable {ask : Stage → Flow (Poll × Stage)} {index : Nat} {junction : Junction Stage}

/-- Asks on behalf of a consumer. -/
def poll (ask : Stage → Flow (Poll × Stage)) (index : Nat) :
    Junction Stage → Flow (Poll × Junction Stage)
  | .fork held => do
      let outcome ← held.poll ask index
      return (outcome.poll, .fork outcome.fork)
  | .tap held => do
      let outcome ← held.poll ask index
      return (outcome.poll, .tap outcome.tap)

theorem poll_buffered {record : Record} {rest : List Record}
    (hbuffer : junction.waitingFor index = record :: rest) :
    junction.poll ask index = pure (.answer (.ok record), junction.serve index rest) := by
  cases junction with
  | fork held =>
      simp only [waitingFor] at hbuffer
      rcases hheld : held.buffer? index with _ | records
      · rw [hheld] at hbuffer
        cases hbuffer
      · rw [hheld] at hbuffer
        cases hbuffer
        simp only [poll, Fork.poll, hheld, pure_bind, serve]
  | tap held => cases hbuffer

theorem fork_poll_empty {held : Fork Stage} (hempty : (fork held).waitingFor index = []) :
    held.poll ask index =
      if held.dry then pure ⟨.ended, [], held⟩
      else do
        let (poll, upstream) ← ask held.upstream
        return { held with upstream }.settle index poll := by
  simp only [waitingFor] at hempty
  unfold Fork.poll
  split
  next record rest hbuffer =>
    rw [hbuffer] at hempty
    cases hempty
  · rfl

theorem poll_dry (hempty : junction.waitingFor index = []) (hdry : junction.dry = true) :
    junction.poll ask index = pure (.ended, junction) := by
  cases junction with
  | fork held =>
      have hheld : held.dry = true := hdry
      simp only [poll, fork_poll_empty hempty, hheld, if_true, pure_bind]
  | tap held =>
      have hheld : held.dry = true := hdry
      simp only [poll, Tap.poll, hheld, if_true, pure_bind]

theorem tap_settle_poll (held : Tap Stage) (index : Nat) (poll : Poll) :
    (held.settle index poll).poll = poll := by
  cases poll with
  | pending =>
      rw [Tap.settle]
      split <;> rfl
  | ended => rfl
  | answer answer => rfl

theorem poll_shared (hempty : junction.waitingFor index = []) (hdry : junction.dry = false) :
    junction.poll ask index = ask junction.upstream >>= fun asked =>
      pure (asked.1, junction.settle index asked.2 asked.1) := by
  cases junction with
  | fork held =>
      have hheld : ¬ held.dry = true := Bool.eq_false_iff.mp hdry
      simp only [poll, fork_poll_empty hempty, if_neg hheld, bind_assoc, pure_bind, Fork.settle_poll]
      rfl
  | tap held =>
      have hheld : ¬ held.dry = true := Bool.eq_false_iff.mp hdry
      simp only [poll, Tap.poll, if_neg hheld, bind_assoc, pure_bind, tap_settle_poll]
      rfl

end Junction

namespace Stage

variable {setting : Setting} {depth place index : Nat} {stage : Stage} {junction : Junction Stage}
  {junctions : List (Junction Stage)} {world : World} {out : Poll} {after : Scene}

theorem comes_pollBranch {ask : Stage → Flow (Poll × Stage)} {later : List (Junction Stage)}
    {behind : World} (hjunction : junctions[place]? = some junction) :
    Flow.Comes (pollBranch ask place index) junctions world out later behind ↔
      ∃ held middle, Flow.Comes (junction.poll ask index) junctions world (out, held) middle behind ∧
        later = middle.set place held := by
  simp only [pollBranch, Flow.comes_bind, Flow.comes_get]
  constructor
  · rintro ⟨_, _, _, ⟨rfl, rfl, rfl⟩, h⟩
    rw [hjunction] at h
    cases junction
    all_goals
      simp only [Flow.comes_bind, Flow.comes_pure] at h
      obtain ⟨outcome, middle, between, hpoll, _, _, _, hmodify, rfl, rfl, rfl⟩ := h
      obtain ⟨rfl, rfl⟩ := Flow.comes_modify.mp hmodify
      exact ⟨_, middle, Flow.comes_bind.mpr ⟨outcome, middle, between, hpoll,
        Flow.comes_pure.mpr ⟨rfl, rfl, rfl⟩⟩, rfl⟩
  · rintro ⟨held, middle, h, rfl⟩
    refine ⟨junctions, junctions, world, ⟨rfl, rfl, rfl⟩, ?_⟩
    rw [hjunction]
    cases junction
    all_goals
      obtain ⟨outcome, reached, between, hpoll, hpure⟩ := Flow.comes_bind.mp h
      obtain ⟨hout, rfl, rfl⟩ := Flow.comes_pure.mp hpure
      cases hout
      exact Flow.comes_bind.mpr ⟨outcome, reached, between, hpoll, Flow.comes_bind.mpr
        ⟨(), _, _, Flow.comes_modify.mpr ⟨rfl, rfl⟩, Flow.comes_pure.mpr ⟨rfl, rfl, rfl⟩⟩⟩

/-- A consumer asks its junction. -/
theorem comes_consumer (hrefers : stage.Refers place index)
    (hjunction : junctions[place]? = some junction) :
    Scene.Comes (Stage.poll setting (depth + 1)) ⟨stage, junctions, world⟩ out after ↔
      ∃ held middle, Flow.Comes (junction.poll (Stage.poll setting depth) index) junctions world
        (out, held) middle after.world ∧ after.stage = stage ∧
          after.junctions = middle.set place held := by
  have hpoll : Stage.poll setting (depth + 1) stage =
      pollBranch (Stage.poll setting depth) place index >>= fun poll => pure (poll, stage) := by
    cases hrefers <;> rfl
  rw [Scene.Comes, hpoll, Flow.comes_bind]
  constructor
  · rintro ⟨poll, later, behind, hbranch, hpure⟩
    obtain ⟨hout, rfl, rfl⟩ := Flow.comes_pure.mp hpure
    obtain ⟨rfl, hstage⟩ := Prod.mk.inj hout
    obtain ⟨held, middle, h, hlater⟩ := (comes_pollBranch hjunction).mp hbranch
    exact ⟨held, middle, h, hstage.symm, hlater⟩
  · rintro ⟨held, middle, h, hstage, hlater⟩
    refine ⟨out, after.junctions, after.world, (comes_pollBranch hjunction).mpr
      ⟨held, middle, h, hlater⟩, Flow.comes_pure.mpr ⟨?_, rfl, rfl⟩⟩
    rw [hstage]

end Stage

end Pipework
