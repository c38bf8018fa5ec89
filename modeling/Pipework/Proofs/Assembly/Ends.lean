import Pipework.Assembly
import Pipework.Proofs.Outcome
import Pipework.World

/-! # How computations end

A computation that may fail ends with an error, with a value or, within a budget, with nothing.
`Ends lost fails post` says what each of these comes with; it is established step by step along the
computation.
-/

namespace Pipework

/-- An error is as one predicate says and a value as the other. -/
def Turns {α : Type} (fails : PipeError → Prop) (post : α → Prop) : Except PipeError α → Prop
  | .error error => fails error
  | .ok value => post value

/-- A computation has nothing to give only where `lost` holds; its outcome is as the predicates
say. -/
def Ends {α : Type} (lost : Prop) (fails : PipeError → Prop) (post : α → Prop)
    (computation : ExceptT PipeError Run α) : Prop :=
  ∀ world, match computation.run.run world with
    | none => lost
    | some (outcome, _) => Turns fails post outcome

variable {α β : Type} {lost : Prop} {fails : PipeError → Prop} {mid : α → Prop} {post : β → Prop}

namespace Turns

theorem bind {first : Except PipeError α} {next : α → Except PipeError β}
    (hfirst : Turns fails mid first) (hnext : ∀ value, mid value → Turns fails post (next value)) :
    Turns fails post (first >>= next) := by
  cases first with
  | error error => exact hfirst
  | ok value => exact hnext value hfirst

theorem imp {wider : PipeError → Prop} {weaker : α → Prop} {outcome : Except PipeError α}
    (h : Turns fails mid outcome) (hfails : ∀ error, fails error → wider error)
    (hpost : ∀ value, mid value → weaker value) : Turns wider weaker outcome := by
  cases outcome with
  | error error => exact hfails error h
  | ok value => exact hpost value h

end Turns

namespace Ends

theorem bind {first : ExceptT PipeError Run α} {next : α → ExceptT PipeError Run β}
    (hfirst : Ends lost fails mid first)
    (hnext : ∀ value, mid value → Ends lost fails post (next value)) :
    Ends lost fails post (first >>= next) := by
  intro world
  have hreached := hfirst world
  rw [ExceptT.run_bind, StateT.run_bind]
  cases hrun : first.run.run world with
  | none =>
      rw [hrun] at hreached
      exact hreached
  | some reached =>
      obtain ⟨outcome, later⟩ := reached
      rw [hrun] at hreached
      cases outcome with
      | error error => exact hreached
      | ok value => exact hnext value hreached later

theorem trivial (computation : ExceptT PipeError Run α) :
    Ends True (fun _ => True) (fun _ => True) computation := by
  intro world
  rcases computation.run.run world with _ | ⟨_ | _, _⟩ <;> exact True.intro

theorem of_turns {outcome : Except PipeError α} (h : Turns fails mid outcome) :
    Ends lost fails mid (ExceptT.mk (pure outcome)) :=
  fun _ => h

/-- What a computation that cannot fail gives. -/
theorem lift {computation : Run α}
    (h : ∀ world, match computation.run world with
      | none => lost
      | some (value, _) => mid value) : Ends lost fails mid (ExceptT.lift computation) := by
  intro world
  have hvalue := h world
  rw [ExceptT.run_lift, StateT.run_map]
  cases hrun : computation.run world with
  | none =>
      rw [hrun] at hvalue
      exact hvalue
  | some reached =>
      rw [hrun] at hvalue
      exact hvalue

theorem imp {wider : PipeError → Prop} {weaker : α → Prop} {computation : ExceptT PipeError Run α}
    (h : Ends lost fails mid computation) (hfails : ∀ error, fails error → wider error)
    (hpost : ∀ value, mid value → weaker value) : Ends lost wider weaker computation := by
  intro world
  have houtcome := h world
  cases hrun : computation.run.run world with
  | none =>
      rw [hrun] at houtcome
      exact houtcome
  | some reached =>
      rw [hrun] at houtcome
      exact Turns.imp houtcome hfails hpost

theorem outcome {computation : ExceptT PipeError Run α} (h : Ends lost fails mid computation)
    {world later : World} {outcome : Except PipeError α}
    (hrun : computation.run.run world = some (outcome, later)) : Turns fails mid outcome := by
  have houtcome := h world
  rw [hrun] at houtcome
  exact houtcome

theorem exists_outcome {computation : ExceptT PipeError Run α}
    (h : Ends False fails mid computation) (world : World) : ∃ outcome later,
      computation.run.run world = some (outcome, later) ∧ Turns fails mid outcome := by
  have houtcome := h world
  cases hrun : computation.run.run world with
  | none =>
      rw [hrun] at houtcome
      exact houtcome.elim
  | some reached =>
      rw [hrun] at houtcome
      exact ⟨reached.1, reached.2, rfl, houtcome⟩

end Ends

/-- Building a step ends as gathering its arguments, reporting and building its module do. Only an
error of the last names the step. -/
theorem Workshop.ends_buildStep {φ : Type} {workshop : Workshop Run φ} {assembly : Assembly φ}
    {step : Plan.Step} {factory : φ} {mid : Arguments φ × Assembly φ → Prop}
    {post : Assembly φ → Prop}
    (harguments : Turns fails mid (assembly.arguments workshop.context step))
    (hreport : ∀ event, Ends lost fails (fun _ => True) (ExceptT.lift (workshop.report event)))
    (hbuild : ∀ args rest, mid (args, rest) → ∀ world,
      match (workshop.build factory args).run world with
      | none => lost
      | some (.error error, _) => fails (error.whileBuilding step.id)
      | some (.ok built, _) => post (rest.addBuilt step built)) :
    Ends lost fails post (workshop.buildStep assembly step factory) := by
  unfold buildStep
  refine Ends.bind (.of_turns harguments) ?_
  rintro ⟨args, rest⟩ hmid
  have hbuilt : Ends lost fails
      (Turns (fun error => fails (error.whileBuilding step.id))
        fun built => post (rest.addBuilt step built))
      (ExceptT.lift (workshop.build factory args)) := by
    refine .lift fun world => ?_
    have hreached := hbuild args rest hmid world
    generalize (workshop.build factory args).run world = reached at hreached ⊢
    rcases reached with _ | ⟨_ | _, _⟩ <;> exact hreached
  -- The branches of the report go on in the same way, each with a copy of the rest.
  have hrest : ∀ continuation : Except PipeError Built → ExceptT PipeError Run (Assembly φ),
      (∀ error, continuation (.error error) = throw (error.whileBuilding step.id)) →
      (∀ built, continuation (.ok built) = pure (rest.addBuilt step built)) →
      Ends lost fails post (ExceptT.lift (workshop.build factory args) >>= continuation) := by
    intro continuation herror hok
    refine hbuilt.bind fun outcome houtcome => ?_
    cases outcome with
    | error error =>
        rw [herror]
        exact fun _ => houtcome
    | ok built =>
        rw [hok]
        exact fun _ => houtcome
  dsimp only
  split
  · exact (hreport _).bind fun _ _ => hrest _ (fun _ => rfl) fun _ => rfl
  · exact hrest _ (fun _ => rfl) fun _ => rfl

end Pipework
