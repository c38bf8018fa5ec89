import Mathlib

/-! # Outcomes of steps in a row

A row of steps succeeds exactly if each of its steps does, and has a result within a budget exactly
if each of them has one.
-/

namespace Pipework

theorem bind_eq_ok_iff {ε α β : Type} {first : Except ε α} {next : α → Except ε β} {result : β} :
    (first >>= next) = .ok result ↔ ∃ value, first = .ok value ∧ next value = .ok result := by
  cases first with
  | error error =>
      constructor
      · intro h
        cases h
      · rintro ⟨_, ⟨⟩, _⟩
  | ok value =>
      constructor
      · exact fun h => ⟨value, rfl, h⟩
      · rintro ⟨_, ⟨⟩, h⟩
        exact h

theorem map_eq_ok_iff {ε α β : Type} {outcome : Except ε α} {change : α → β} {result : β} :
    outcome.map change = .ok result ↔ ∃ value, outcome = .ok value ∧ change value = result := by
  cases outcome with
  | error error =>
      constructor
      · intro h
        cases h
      · rintro ⟨_, ⟨⟩, _⟩
  | ok value =>
      constructor
      · exact fun h => ⟨value, rfl, Except.ok.inj h⟩
      · rintro ⟨_, ⟨⟩, h⟩
        exact congrArg _ h

/-- Two computations in a row have a result exactly if both have one. -/
theorem run_bind_eq_some_iff {σ α β : Type} {first : StateT σ Option α}
    {next : α → StateT σ Option β} {state later : σ} {result : β} :
    (first >>= next).run state = some (result, later) ↔ ∃ value middle,
      first.run state = some (value, middle) ∧ (next value).run middle = some (result, later) := by
  rw [StateT.run_bind]
  cases hfirst : first.run state with
  | none =>
      constructor
      · intro h
        cases h
      · rintro ⟨_, _, ⟨⟩, _⟩
  | some reached =>
      obtain ⟨value, middle⟩ := reached
      constructor
      · exact fun h => ⟨value, middle, rfl, h⟩
      · rintro ⟨_, _, ⟨⟩, h⟩
        exact h

/-- Two computations in a row that may fail come to an outcome if the first fails with it, or if
the second comes to it from where the first has led. -/
theorem run_run_bind_eq_some_iff {ε σ α β : Type} {first : ExceptT ε (StateT σ Option) α}
    {next : α → ExceptT ε (StateT σ Option) β} {state later : σ} {result : Except ε β} :
    (first >>= next).run.run state = some (result, later) ↔
      (∃ error, first.run.run state = some (.error error, later) ∧ result = .error error) ∨
      ∃ value middle, first.run.run state = some (.ok value, middle) ∧
        (next value).run.run middle = some (result, later) := by
  rw [ExceptT.run_bind, run_bind_eq_some_iff]
  constructor
  · rintro ⟨outcome, middle, hfirst, hnext⟩
    cases outcome with
    | error error =>
        cases hnext
        exact .inl ⟨error, hfirst, rfl⟩
    | ok value => exact .inr ⟨value, middle, hfirst, hnext⟩
  · rintro (⟨error, hfirst, rfl⟩ | ⟨value, middle, hfirst, hnext⟩)
    · exact ⟨.error error, later, hfirst, rfl⟩
    · exact ⟨.ok value, middle, hfirst, hnext⟩

end Pipework
