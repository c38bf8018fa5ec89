import Pipework.Proofs.Mode.Twin
import Pipework.Proofs.Outcome

/-! # Computations that follow one another

A computation follows another one if, started in a world that is alike, it fails with the same error
or comes to a related result, and leaves the worlds alike.
-/

namespace Pipework

variable {ε α β γ δ : Type}

/-- The same error, or related results. -/
inductive Agree (related : α → β → Prop) : Except ε α → Except ε β → Prop
  | error (error : ε) : Agree related (.error error) (.error error)
  | ok {first : α} {second : β} (h : related first second) : Agree related (.ok first) (.ok second)

namespace Agree

variable {related : α → β → Prop} {next : γ → δ → Prop}

theorem refl (outcome : Except ε α) : Agree (fun first second => first = second) outcome outcome := by
  cases outcome with
  | error error => exact .error error
  | ok value => exact .ok rfl

theorem imp {wider : α → β → Prop} {first : Except ε α} {second : Except ε β}
    (h : Agree related first second) (hwider : ∀ value other, related value other → wider value other) :
    Agree wider first second := by
  cases h with
  | error error => exact .error error
  | ok h => exact .ok (hwider _ _ h)

theorem bind {first : Except ε α} {second : Except ε β} {after : α → Except ε γ}
    {behind : β → Except ε δ} (h : Agree related first second)
    (hnext : ∀ value other, related value other → Agree next (after value) (behind other)) :
    Agree next (first >>= after) (second >>= behind) := by
  cases h with
  | error error => exact .error error
  | ok h => exact hnext _ _ h

theorem map {first : Except ε α} {second : Except ε β} {change : α → γ} {alter : β → δ}
    (h : Agree related first second)
    (hnext : ∀ value other, related value other → next (change value) (alter other)) :
    Agree next (first.map change) (second.map alter) := by
  cases h with
  | error error => exact .error error
  | ok h => exact .ok (hnext _ _ h)

end Agree

/-- Wherever the first computation comes to a result, the second comes to a related one, and leaves
a world that is alike. -/
def Run.Follows (related : α → β → Prop) (first : Run α) (second : Run β) : Prop :=
  ∀ ⦃world twin : World⦄, world.Alike twin → ∀ ⦃result : α⦄ ⦃later : World⦄,
    first.run world = some (result, later) → ∃ other after,
      second.run twin = some (other, after) ∧ related result other ∧ later.Alike after

namespace Run.Follows

variable {related : α → β → Prop} {next : γ → δ → Prop}

theorem pure {first : α} {second : β} (h : related first second) :
    Run.Follows related (Pure.pure first) (Pure.pure second) := by
  intro world twin halike result later hrun
  cases hrun
  exact ⟨second, twin, rfl, h, halike⟩

theorem failure {second : Run β} : Run.Follows related (Alternative.failure : Run α) second := by
  intro world twin halike result later hrun
  cases hrun

theorem bind {first : Run α} {second : Run β} {after : α → Run γ} {behind : β → Run δ}
    (h : first.Follows related second)
    (hnext : ∀ value other, related value other → (after value).Follows next (behind other)) :
    (first >>= after).Follows next (second >>= behind) := by
  intro world twin halike result later hrun
  obtain ⟨value, middle, hfirst, hafter⟩ := run_bind_eq_some_iff.mp hrun
  obtain ⟨other, between, hsecond, hrelated, hmiddle⟩ := h halike hfirst
  obtain ⟨outcome, behind, hbehind, hresult⟩ := hnext value other hrelated hmiddle hafter
  exact ⟨outcome, behind, run_bind_eq_some_iff.mpr ⟨other, between, hsecond, hbehind⟩, hresult⟩

theorem report (first second : Event) :
    (Run.report first).Follows (fun _ _ => True) (Run.report second) := by
  intro world twin halike result later hrun
  cases hrun
  exact ⟨(), _, rfl, trivial, halike.lines, halike.questions, halike.reads⟩

theorem ask (question : String) :
    (Run.ask question).Follows (fun first second => first = second) (Run.ask question) := by
  intro world twin halike result later hrun
  cases hrun
  refine ⟨_, _, rfl, ?_, ?_, ?_, halike.reads⟩
  · rw [halike.lines]
  · exact congrArg List.tail halike.lines
  · exact congrArg (· ++ [question]) halike.questions

theorem readFile (setting : Setting) (path : String) :
    (Run.readFile setting path).Follows (fun first second => first = second)
      (Run.readFile setting path) := by
  intro world twin halike result later hrun
  cases hrun
  exact ⟨_, _, rfl, rfl, halike.lines, halike.questions,
    congrArg (· ++ [path]) halike.reads⟩

/-- Computations that may fail with an error follow one another in a row. -/
theorem run_bind {first : ExceptT PipeError Run α} {second : ExceptT PipeError Run β}
    {after : α → ExceptT PipeError Run γ} {behind : β → ExceptT PipeError Run δ}
    (h : first.run.Follows (Agree related) second.run)
    (hnext : ∀ value other, related value other →
      (after value).run.Follows (Agree next) (behind other).run) :
    (first >>= after).run.Follows (Agree next) (second >>= behind).run := by
  rw [ExceptT.run_bind, ExceptT.run_bind]
  apply h.bind
  intro value other hagree
  cases hagree with
  | error error => exact .pure (.error error)
  | ok hrelated => exact hnext _ _ hrelated

theorem run_lift {first : Run α} {second : Run β} (h : first.Follows related second) :
    (ExceptT.lift first : ExceptT PipeError Run α).run.Follows (Agree related)
      (ExceptT.lift second : ExceptT PipeError Run β).run := by
  rw [ExceptT.run_lift, ExceptT.run_lift, map_eq_pure_bind, map_eq_pure_bind]
  exact h.bind fun value other hrelated => .pure (.ok hrelated)

theorem run_of_agree {first : Except PipeError α} {second : Except PipeError β}
    (h : Agree related first second) :
    (ExceptT.mk (Pure.pure first) : ExceptT PipeError Run α).run.Follows (Agree related)
      (ExceptT.mk (Pure.pure second) : ExceptT PipeError Run β).run :=
  .pure h

end Run.Follows

end Pipework
