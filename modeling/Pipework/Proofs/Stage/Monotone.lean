import Pipework.Proofs.Outcome
import Pipework.Stage.Poll

/-! # More budget changes nothing

What asking a stage comes to within a budget it comes to as well within every larger one, for stages
of all kinds. `Flow.Below` says so of two computations; every way of putting computations together
respects it.
-/

namespace Pipework

namespace Flow

variable {α β : Type}

/-- Whatever the first computation comes to the second one comes to as well. -/
def Below (first second : Flow α) : Prop :=
  ∀ junctions world result, (first.run junctions).run world = some result →
    (second.run junctions).run world = some result

theorem Below.refl (computation : Flow α) : Below computation computation :=
  fun _ _ _ => id

theorem Below.failure (computation : Flow α) : Below failure computation :=
  nofun

theorem Below.bind {first second : Flow α} {next other : α → Flow β} (h : Below first second)
    (hnext : ∀ value, Below (next value) (other value)) :
    Below (first >>= next) (second >>= other) := by
  rintro junctions world ⟨⟨result, later⟩, after⟩ hrun
  rw [StateT.run_bind] at hrun ⊢
  obtain ⟨⟨value, middle⟩, between, hfirst, hrest⟩ := run_bind_eq_some_iff.mp hrun
  exact run_bind_eq_some_iff.mpr
    ⟨(value, middle), between, h _ _ _ hfirst, hnext value _ _ _ hrest⟩

theorem Below.lift {first second : Run α} (h : ∀ world result, first.run world = some result →
    second.run world = some result) : Below (liftM first) (liftM second) := by
  rintro junctions world ⟨⟨value, later⟩, after⟩ hrun
  have hlift (computation : Run α) : (liftM computation : Flow α).run junctions =
      computation >>= fun value => pure (value, junctions) := rfl
  rw [hlift] at hrun ⊢
  obtain ⟨_, _, hfirst, hpure⟩ := run_bind_eq_some_iff.mp hrun
  exact run_bind_eq_some_iff.mpr ⟨_, _, h _ _ hfirst, hpure⟩

/-- What is done after a computation stays the same. -/
theorem Below.then {first second : Flow α} {next : α → Flow β} (h : Below first second) :
    Below (first >>= next) (second >>= next) :=
  h.bind fun _ => .refl _

end Flow

open Pipework.Flow

variable {ask askMore : Stage → Flow (Poll × Stage)}

namespace Fork

theorem poll_below (hask : ∀ stage, Below (ask stage) (askMore stage)) (fork : Fork Stage)
    (branch : Nat) : Below (fork.poll ask branch) (fork.poll askMore branch) := by
  unfold poll
  split
  · exact .refl _
  · split
    · exact .refl _
    · exact (hask fork.upstream).then

end Fork

namespace Tap

theorem poll_below (hask : ∀ stage, Below (ask stage) (askMore stage)) (tap : Tap Stage)
    (consumer : Nat) : Below (tap.poll ask consumer) (tap.poll askMore consumer) := by
  unfold poll
  split
  · exact .refl _
  · exact (hask tap.upstream).then

end Tap

namespace Tally

theorem poll_below (hask : ∀ stage, Below (ask stage) (askMore stage)) (budget : Nat)
    (tally : Tally Stage) :
    Below (tally.poll ask failure budget) (tally.poll askMore failure (budget + 1)) := by
  induction budget generalizing tally with
  | zero => exact .failure _
  | succ budget ih =>
      rw [poll, poll]
      split
      · exact .refl _
      · refine (hask tally.input).bind ?_
        rintro ⟨answered, input⟩
        rcases answered with _ | _ | (error | item)
        · exact .refl _
        · exact .refl _
        · exact .refl _
        · dsimp only
          split
          · exact .refl _
          · exact ih _

end Tally

namespace Batches

variable {ω : Type} {begin : Record → ω} {work workMore : ω → Flow (Progress ω)}

theorem poll_below (hask : ∀ stage, Below (ask stage) (askMore stage))
    (hwork : ∀ job, Below (work job) (workMore job)) (budget : Nat) (batches : Batches Stage ω) :
    Below (batches.poll ask begin work failure budget)
      (batches.poll askMore begin workMore failure (budget + 1)) := by
  induction budget generalizing batches with
  | zero => exact .failure _
  | succ budget ih =>
      rw [poll, poll]
      split
      · exact .refl _
      · refine (hwork _).bind fun progress => ?_
        cases progress with
        | waiting job => exact .refl _
        | finished batch => exact ih _
      · split
        · exact .refl _
        · refine (hask batches.input).bind ?_
          rintro ⟨answered, input⟩
          rcases answered with _ | _ | (error | record)
          · exact .refl _
          · exact .refl _
          · exact .refl _
          · exact ih _

end Batches

namespace Pairing

theorem Side.fill_below (hask : ∀ stage, Below (ask stage) (askMore stage)) (side : Side Stage) :
    Below (side.fill ask) (side.fill askMore) := by
  unfold fill
  split
  · exact .refl _
  · split
    · exact .refl _
    next input _ => exact (hask input).then

theorem poll_below (hask : ∀ stage, Below (ask stage) (askMore stage)) (pairing : Pairing Stage) :
    Below (pairing.poll ask) (pairing.poll askMore) := by
  unfold poll
  refine (pairing.main.fill_below hask).bind fun main => ?_
  split
  · exact (pairing.other.fill_below hask).then
  · exact .refl _

end Pairing

namespace Sampling

theorem poll_below (hask : ∀ stage, Below (ask stage) (askMore stage))
    (sampling : Sampling Stage) : Below (sampling.poll ask) (sampling.poll askMore) := by
  unfold poll
  split
  · exact .refl _
  · dsimp only
    split
    · exact .refl _
    · split
      · exact .refl _
      · exact .refl _
      next input _ => exact (hask input).then

end Sampling

namespace Job

theorem gather_below (hask : ∀ stage, Below (ask stage) (askMore stage)) (rule : LoopRule)
    (item : Record) (budget : Nat) (stage : Stage) (found : List Record) :
    Below (gather ask rule item budget stage found)
      (gather askMore rule item (budget + 1) stage found) := by
  induction budget generalizing stage found with
  | zero => exact .failure _
  | succ budget ih =>
      rw [gather, gather]
      refine (hask stage).bind ?_
      rintro ⟨answered, stage⟩
      rcases answered with _ | _ | (error | record)
      · exact .refl _
      · exact .refl _
      · exact .refl _
      · exact ih _ _

theorem work_below {setting : Setting} (hask : ∀ stage, Below (ask stage) (askMore stage))
    (budget : Nat) (job : Job Stage) :
    Below (work setting ask budget job) (work setting askMore (budget + 1) job) := by
  cases job with
  | load conf item waits => cases waits <;> exact .refl _
  | instantiate rule embed mode item =>
      refine (Below.refl _).bind fun outcome => ?_
      cases outcome with
      | error error => exact .refl _
      | ok stage => exact gather_below hask rule item budget stage []
  | collect rule item stage found => exact gather_below hask rule item budget stage found

end Job

namespace Stage

theorem pollBranch_below (hask : ∀ stage, Below (ask stage) (askMore stage)) (place index : Nat) :
    Below (pollBranch ask place index) (pollBranch askMore place index) := by
  refine (Below.refl _).bind fun junctions => ?_
  split
  next fork _ => exact (fork.poll_below hask index).then
  next tap _ => exact (tap.poll_below hask index).then
  · exact .refl _

/-- A budget that suffices is not missed when there is more of it. -/
theorem poll_below (setting : Setting) (budget : Nat) (stage : Stage) :
    Below (poll setting budget stage) (poll setting (budget + 1) stage) := by
  induction budget generalizing stage with
  | zero => exact .failure _
  | succ budget ih =>
      rw [poll.eq_def, poll.eq_def]
      dsimp only
      split
      · exact .refl _
      · exact .refl _
      · exact .refl _
      · exact .refl _
      · exact .refl _
      next inner => exact (ih inner).then
      next inner => exact (ih inner).then
      next state => exact (state.poll_below ih (Job.work_below ih budget) budget).then
      next state => exact (state.poll_below ih budget).then
      next state => exact (state.poll_below ih).then
      next state => exact (state.poll_below ih).then
      next inner => exact (ih inner).then
      next place index => exact (pollBranch_below ih place index).then
      next place => exact (pollBranch_below ih place 0).then
      next junctions out => exact (Below.lift fun world result => ih out junctions world result).then

end Stage

end Pipework
