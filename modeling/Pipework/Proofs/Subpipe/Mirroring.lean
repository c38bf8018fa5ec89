import Pipework.Proofs.Mode.Building
import Pipework.Proofs.Stage.Awaiting
import Pipework.Proofs.Subpipe.Akin

/-! # Computations that mirror one another

Two computations mirror one another if, in any two worlds at the same time, they come to related
results or neither comes to a result. Whatever else there is in the two worlds may differ, and the
part of them that is in view stays as it is.
-/

namespace Pipework

variable {α β γ δ κ : Type}

theorem rel_imp {related wider : α → β → Prop} {first : Option α} {second : Option β}
    (h : Option.Rel related first second) (hwider : ∀ value other, related value other →
      wider value other) : Option.Rel wider first second := by
  cases h with
  | none => exact .none
  | some h => exact .some (hwider _ _ h)

/-- What building a module does not touch: everything but the events and the builds of probes. -/
structure World.Still where
  clock : Nat
  alarm : Option Nat
  lines : List String
  questions : List String
  reads : List String
  /-- How many answers each probe has passed on. -/
  pulls : String → Nat

/-- What building a module leaves as it is. -/
def World.still (world : World) : World.Still :=
  { clock := world.clock
    alarm := world.alarm
    lines := world.lines
    questions := world.questions
    reads := world.reads
    pulls := fun id => ((world.probes.get? id).getD default).pulls }

/-- What the user has said and been asked, and the time. -/
def World.desk (world : World) : Nat × List String × List String :=
  (world.clock, world.lines, world.questions)

/-- What leaves everything but events and builds as it is leaves the desk. -/
theorem World.desk_of_still {before after : World} (h : after.still = before.still) :
    after.desk = before.desk := by
  have hclock := congrArg Still.clock h
  have hlines := congrArg Still.lines h
  have hquestions := congrArg Still.questions h
  exact Prod.ext hclock (Prod.ext hlines hquestions)

/-- What two computations come to in two worlds: related results in worlds at the same time. The
part of each world that is in view is as before. -/
structure World.Reached (view : World → κ) (related : α → β → Prop) (here there : World)
    (result : α × World) (other : β × World) : Prop where
  related : related result.1 other.1
  clock : result.2.clock = other.2.clock
  /-- Both ask to go on at the same time, if they ask for that. -/
  wake : ∃ time, result.2.alarm = Awaited.earlier? here.alarm time ∧
    other.2.alarm = Awaited.earlier? there.alarm time
  left : view result.2 = view here
  right : view other.2 = view there

/-- In any two worlds at the same time both come to related results, or neither to any. -/
def Run.Mirrors (view : World → κ) (related : α → β → Prop) (first : Run α) (second : Run β) :
    Prop :=
  ∀ ⦃here there : World⦄, here.clock = there.clock →
    Option.Rel (World.Reached view related here there) (first.run here) (second.run there)

/-- Nothing comes of a computation but a time to go on at, and nothing of it is in view. -/
def Run.Passes (view : World → κ) (time : Option Nat) (computation : Run Unit) : Prop :=
  ∀ world : World, ∃ later, computation.run world = some ((), later) ∧
    later.clock = world.clock ∧ later.alarm = Awaited.earlier? world.alarm time ∧
    view later = view world

theorem Awaited.earlier?_assoc (first second third : Option Nat) :
    earlier? (earlier? first second) third = earlier? first (earlier? second third) := by
  cases first <;> cases second <;> cases third <;> simp [earlier?, Nat.min_assoc]

namespace World.Reached

variable {view : World → κ} {related : α → β → Prop} {here there : World} {result : α × World}
  {other : β × World}

theorem imp {wider : α → β → Prop} (h : Reached view related here there result other)
    (hwider : related result.1 other.1 → wider result.1 other.1) :
    Reached view wider here there result other :=
  ⟨hwider h.related, h.clock, h.wake, h.left, h.right⟩

theorem symm (h : Reached view related here there result other) :
    Reached view (fun value other => related other value) there here other result := by
  obtain ⟨time, hresult, hother⟩ := h.wake
  exact ⟨h.related, h.clock.symm, ⟨time, hother, hresult⟩, h.right, h.left⟩

/-- What is reached from where one has come to. -/
theorem trans {next : γ → δ → Prop} {last : γ × World} {final : δ × World}
    (h : Reached view related here there result other)
    (hnext : Reached view next result.2 other.2 last final) :
    Reached view next here there last final := by
  obtain ⟨time, hresult, hother⟩ := h.wake
  obtain ⟨more, hlast, hfinal⟩ := hnext.wake
  refine ⟨hnext.related, hnext.clock, ⟨Awaited.earlier? time more, ?_, ?_⟩,
    hnext.left.trans h.left, hnext.right.trans h.right⟩
  · rw [hlast, hresult, Awaited.earlier?_assoc]
  · rw [hfinal, hother, Awaited.earlier?_assoc]

/-- Less is in view. -/
theorem desk (h : Reached World.still related here there result other) :
    Reached World.desk related here there result other :=
  ⟨h.related, h.clock, h.wake, desk_of_still h.left, desk_of_still h.right⟩

end World.Reached

namespace Run.Mirrors

variable {view : World → κ} {related : α → β → Prop} {next : γ → δ → Prop}

theorem pure {first : α} {second : β} (h : related first second) :
    Run.Mirrors view related (Pure.pure first) (Pure.pure second) :=
  fun _ _ hclock => .some ⟨h, hclock, ⟨none, (Awaited.earlier?_none _).symm,
    (Awaited.earlier?_none _).symm⟩, rfl, rfl⟩

theorem failure :
    Run.Mirrors view related (Alternative.failure : Run α) (Alternative.failure : Run β) :=
  fun _ _ _ => .none

theorem bind {first : Run α} {second : Run β} {after : α → Run γ} {behind : β → Run δ}
    (h : first.Mirrors view related second)
    (hnext : ∀ value other, related value other →
      (after value).Mirrors view next (behind other)) :
    (first >>= after).Mirrors view next (second >>= behind) := by
  intro here there hclock
  have hfirst := h hclock
  rw [StateT.run_bind, StateT.run_bind]
  generalize first.run here = reached, second.run there = arrived at hfirst
  cases hfirst with
  | none => exact .none
  | @some result other hreached =>
      have hrest := hnext _ _ hreached.related hreached.clock
      simp only [Option.bind_eq_bind, Option.bind_some]
      generalize (after result.1).run result.2 = last, (behind other.1).run other.2 = final
        at hrest
      cases hrest with
      | none => exact .none
      | some hlast => exact .some (hreached.trans hlast)

theorem imp {wider : α → β → Prop} {first : Run α} {second : Run β}
    (h : first.Mirrors view related second)
    (hwider : ∀ value other, related value other → wider value other) :
    first.Mirrors view wider second :=
  fun _ _ hclock => rel_imp (h hclock) fun _ _ hreached => hreached.imp (hwider _ _)

theorem symm {first : Run α} {second : Run β} (h : first.Mirrors view related second) :
    second.Mirrors view (fun value other => related other value) first := by
  intro here there hclock
  have hfirst := h hclock.symm
  generalize second.run here = arrived, first.run there = reached at hfirst ⊢
  cases hfirst with
  | none => exact .none
  | some hreached => exact .some hreached.symm

theorem desk {first : Run α} {second : Run β} (h : first.Mirrors World.still related second) :
    first.Mirrors World.desk related second :=
  fun _ _ hclock => rel_imp (h hclock) fun _ _ hreached => hreached.desk

/-- Both pass. -/
theorem of_passes {first second : Run Unit} {time : Option Nat} (h : first.Passes view time)
    (hsecond : second.Passes view time) :
    first.Mirrors view (fun _ _ => True) second := by
  intro here there hclock
  obtain ⟨later, hrun, hlater, halarm, hview⟩ := h here
  obtain ⟨after, hother, hafter, hwake, hseen⟩ := hsecond there
  rw [hrun, hother]
  exact .some ⟨trivial, (hlater.trans hclock).trans hafter.symm, ⟨time, halarm, hwake⟩, hview,
    hseen⟩

/-- One of the two does something more that passes. -/
theorem skip_left {step : Run Unit} (hstep : step.Passes view none) {first : Run α}
    {second : Run β} (h : first.Mirrors view related second) :
    (step >>= fun _ => first).Mirrors view related second := by
  have hidle : (Pure.pure () : Run Unit).Passes view none := fun world =>
    ⟨world, rfl, rfl, (Awaited.earlier?_none _).symm, rfl⟩
  have hboth : (step >>= fun _ => first).Mirrors view related (Pure.pure () >>= fun _ => second) :=
    (of_passes hstep hidle).bind fun _ _ _ => h
  rwa [pure_bind] at hboth

theorem skip_right {step : Run Unit} (hstep : step.Passes view none) {first : Run α}
    {second : Run β} (h : first.Mirrors view related second) :
    first.Mirrors view related (step >>= fun _ => second) :=
  (h.symm.skip_left hstep).symm

end Run.Mirrors

theorem Run.report_passes (event : Event) : (Run.report event).Passes World.still none :=
  fun _ => ⟨_, rfl, rfl, (Awaited.earlier?_none _).symm, rfl⟩

namespace Run.Mirrors

variable {view : World → κ} {related : α → β → Prop} {next : γ → δ → Prop}

/-- Computations that may fail with an error mirror one another in a row. -/
theorem run_bind {first : ExceptT PipeError Run α} {second : ExceptT PipeError Run β}
    {after : α → ExceptT PipeError Run γ} {behind : β → ExceptT PipeError Run δ}
    (h : first.run.Mirrors view (Agree related) second.run)
    (hnext : ∀ value other, related value other →
      (after value).run.Mirrors view (Agree next) (behind other).run) :
    (first >>= after).run.Mirrors view (Agree next) (second >>= behind).run := by
  rw [ExceptT.run_bind, ExceptT.run_bind]
  apply h.bind
  intro value other hagree
  cases hagree with
  | error error => exact .pure (.error error)
  | ok hrelated => exact hnext _ _ hrelated

theorem run_lift {first : Run α} {second : Run β} (h : first.Mirrors view related second) :
    (ExceptT.lift first : ExceptT PipeError Run α).run.Mirrors view (Agree related)
      (ExceptT.lift second : ExceptT PipeError Run β).run := by
  rw [ExceptT.run_lift, ExceptT.run_lift, map_eq_pure_bind, map_eq_pure_bind]
  exact h.bind fun value other hrelated => .pure (.ok hrelated)

theorem run_of_agree {first : Except PipeError α} {second : Except PipeError β}
    (h : Agree related first second) :
    (ExceptT.mk (Pure.pure first) : ExceptT PipeError Run α).run.Mirrors view (Agree related)
      (ExceptT.mk (Pure.pure second) : ExceptT PipeError Run β).run :=
  .pure h

end Run.Mirrors

end Pipework
