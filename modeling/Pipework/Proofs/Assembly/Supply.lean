import Mathlib
import Pipework.Assembly
import Pipework.Proofs.Plan.Demand
import Pipework.World

/-! # Taking stages

A stage with one consumer can be taken once, a shared one any number of times, a split as often as
it has branches. `Assembly.Serves` says of an assembly that it can still serve what is going to be
taken from it; each taking uses up one piece of that.
-/

namespace Pipework

/-- An error that says that less is there than is needed. -/
def PipeError.IsShortage : PipeError → Prop
  | .stageTaken _ => True
  | .noBranchLeft _ _ => True
  | .malformed _ .embedNotBound => True
  | .malformed _ .recordOutsideLoop => True
  | _ => False

/-- An outcome is as it should be unless it is an error, which must not be a shortage. -/
def Settled {α : Type} (post : α → Prop) : Except PipeError α → Prop
  | .error error => ¬ error.IsShortage
  | .ok value => post value

/-- Every outcome of a computation is settled. -/
def Suffices {α : Type} (post : α → Prop) (computation : ExceptT PipeError Run α) : Prop :=
  ∀ world outcome later, computation.run.run world = some (outcome, later) → Settled post outcome

section

variable {α β : Type} {mid : α → Prop} {post : β → Prop}

theorem Settled.bind {first : Except PipeError α} {next : α → Except PipeError β}
    (hfirst : Settled mid first) (hnext : ∀ value, mid value → Settled post (next value)) :
    Settled post (first >>= next) := by
  cases first with
  | error error => exact hfirst
  | ok value => exact hnext value hfirst

theorem Suffices.bind {first : ExceptT PipeError Run α} {next : α → ExceptT PipeError Run β}
    (hfirst : Suffices mid first) (hnext : ∀ value, mid value → Suffices post (next value)) :
    Suffices post (first >>= next) := by
  intro world outcome later hrun
  rw [ExceptT.run_bind] at hrun
  obtain ⟨reached, middle, hreached, hrun⟩ := run_bind_eq_some_iff.mp hrun
  have hsettled := hfirst world reached middle hreached
  cases reached with
  | error error =>
      cases hrun
      exact hsettled
  | ok value => exact hnext value hsettled middle outcome later hrun

theorem Suffices.of_settled {outcome : Except PipeError α} (h : Settled mid outcome) :
    Suffices mid (ExceptT.mk (pure outcome)) := by
  intro world reached later hrun
  cases hrun
  exact h

/-- What a computation that cannot fail gives. -/
theorem Suffices.lift {computation : Run α}
    (h : ∀ world value later, computation.run world = some (value, later) → mid value) :
    Suffices mid (ExceptT.lift computation) := by
  intro world outcome later hrun
  rw [ExceptT.run_lift, ← bind_pure_comp] at hrun
  obtain ⟨value, middle, hvalue, hpure⟩ := run_bind_eq_some_iff.mp hrun
  cases hpure
  exact h world value later hvalue

end

namespace Assembly

variable {φ : Type} {assembly : Assembly φ}

/-- A slot can still be taken a number of times. -/
def Supplies (assembly : Assembly φ) (count : Nat) : Slot → Prop
  | .owned none => count = 0
  | .owned (some _) => count ≤ 1
  | .tap _ => True
  | .fork junction => ∃ fork, assembly.junctions[junction]? = some (.fork fork) ∧
      count + fork.handedOut ≤ fork.branches

/-- Every module that has a slot can still be taken as often as is needed. -/
structure Serves (assembly : Assembly φ) (need : ModuleId → Nat) : Prop where
  supplied : ∀ id slot, assembly.slots.lookup id = some slot → assembly.Supplies (need id) slot
  /-- No two modules are at one junction. -/
  apart : ∀ first second junction, assembly.slots.lookup first = some (.fork junction) →
    assembly.slots.lookup second = some (.fork junction) → first = second

/-- One assembly has the modules of another. -/
structure Keeps (before after : Assembly φ) : Prop where
  output_eq : after.output = before.output
  embeds_eq : after.embeds = before.embeds
  lookup_none : ∀ id, after.slots.lookup id = none ↔ before.slots.lookup id = none

theorem Keeps.refl (assembly : Assembly φ) : assembly.Keeps assembly :=
  ⟨rfl, rfl, fun _ => Iff.rfl⟩

theorem Keeps.trans {first second third : Assembly φ} (h : first.Keeps second)
    (hnext : second.Keeps third) : first.Keeps third :=
  ⟨hnext.output_eq.trans h.output_eq, hnext.embeds_eq.trans h.embeds_eq,
    fun id => (hnext.lookup_none id).trans (h.lookup_none id)⟩

theorem Supplies.mono {slot : Slot} {more less : Nat} (h : assembly.Supplies more slot)
    (hle : less ≤ more) : assembly.Supplies less slot := by
  match slot, h with
  | .owned none, h => exact Nat.le_zero.mp (h ▸ hle)
  | .owned (some _), h => exact hle.trans h
  | .tap _, _ => trivial
  | .fork _, ⟨fork, hfork, hbranches⟩ => exact ⟨fork, hfork, by omega⟩

theorem Serves.mono {more less : ModuleId → Nat} (h : assembly.Serves more)
    (hle : ∀ id, less id ≤ more id) : assembly.Serves less :=
  ⟨fun id slot hslot => (h.supplied id slot hslot).mono (hle id), h.apart⟩

theorem lookup_setSlot (assembly : Assembly φ) (id other : ModuleId) (slot : Slot) :
    (assembly.setSlot id slot).slots.lookup other =
      if other = id then (assembly.slots.lookup id).map fun _ => slot
      else assembly.slots.lookup other := by
  rw [setSlot]
  induction assembly.slots with
  | nil => simp
  | cons entry rest ih =>
      obtain ⟨head, held⟩ := entry
      by_cases hhead : head = id
      · subst hhead
        by_cases hother : other = head
        · simp [hother]
        · have hbeq : (other == head) = false := beq_eq_false_iff_ne.mpr hother
          simpa [List.lookup_cons, hother, hbeq] using ih
      · by_cases hsame : other = head
        · subst hsame
          simp [hhead]
        · have hbeq : (other == head) = false := beq_eq_false_iff_ne.mpr hsame
          by_cases hother : other = id
          · subst hother
            simpa [List.lookup_cons, hhead, hbeq] using ih
          · simpa [List.lookup_cons, hhead, hother, hbeq] using ih

theorem keeps_setSlot (assembly : Assembly φ) (id : ModuleId) (slot : Slot) :
    assembly.Keeps (assembly.setSlot id slot) := by
  refine ⟨rfl, rfl, fun other => ?_⟩
  rw [lookup_setSlot]
  by_cases hother : other = id
  · rw [if_pos hother, Option.map_eq_none_iff, hother]
  · rw [if_neg hother]

/-- Taking the branch of a split leaves the other junctions alone. -/
theorem Serves.takeBranch {rest : ModuleId → Nat} {id : ModuleId} {junction : Nat}
    (h : assembly.Serves fun other => (if other = id then 1 else 0) + rest other)
    (hslot : assembly.slots.lookup id = some (.fork junction)) :
    ∃ stage next, assembly.takeBranch id junction = .ok (stage, next) ∧ next.Serves rest ∧
      assembly.Keeps next := by
  obtain ⟨fork, hfork, hbranches⟩ := h.supplied id _ hslot
  rw [if_pos rfl] at hbranches
  let taken : Fork Stage := { fork with handedOut := fork.handedOut + 1 }
  have hattach : fork.attach = .ok (fork.handedOut, taken) := by
    rw [Fork.attach, if_pos (by omega)]
  refine ⟨.branch junction fork.handedOut,
    { assembly with junctions := assembly.junctions.set junction (.fork taken) }, ?_,
    ⟨fun other slot hother => ?_, h.apart⟩, rfl, rfl, fun _ => Iff.rfl⟩
  · simp only [Assembly.takeBranch, hfork, hattach]
    rfl
  · have hsupplied := h.supplied other slot hother
    match slot, hother, hsupplied with
    | .owned none, _, hsupplied => exact (Nat.add_eq_zero_iff.mp hsupplied).2
    | .owned (some _), _, hsupplied => exact (Nat.le_add_left _ _).trans hsupplied
    | .tap _, _, _ => trivial
    | .fork place, hother, ⟨held, hheld, hleft⟩ =>
        by_cases hplace : place = junction
        · subst hplace
          obtain rfl : other = id := h.apart other id place hother hslot
          have hlt : place < assembly.junctions.length := (List.getElem?_eq_some_iff.mp hfork).1
          refine ⟨taken, List.getElem?_set_self hlt, ?_⟩
          change rest other + (fork.handedOut + 1) ≤ fork.branches
          omega
        · exact ⟨held, (List.getElem?_set_ne (Ne.symm hplace)).trans hheld, by omega⟩

/-- Taking a stage once uses up one piece of what is needed of it. -/
theorem Serves.take {rest : ModuleId → Nat} {id : ModuleId}
    (h : assembly.Serves fun other => (if other = id then 1 else 0) + rest other) :
    Settled (fun taken => taken.2.Serves rest ∧ assembly.Keeps taken.2) (assembly.take id) := by
  have hrest : assembly.Serves rest := h.mono fun other => Nat.le_add_left _ _
  match hslot : assembly.slots.lookup id with
  | none =>
      simp only [Assembly.take, hslot]
      exact not_false
  | some (.owned none) =>
      have hnone := h.supplied id _ hslot
      rw [if_pos rfl] at hnone
      exact absurd (Nat.add_eq_zero_iff.mp hnone).1 Nat.one_ne_zero
  | some (.owned (some stage)) =>
      simp only [Assembly.take, hslot]
      have hgone : rest id = 0 := by
        have hone : (if id = id then 1 else 0) + rest id ≤ 1 := h.supplied id _ hslot
        rw [if_pos rfl] at hone
        omega
      refine ⟨⟨fun other slot hother => ?_, fun first second junction hfirst hsecond => ?_⟩,
        keeps_setSlot assembly id _⟩
      · rw [lookup_setSlot] at hother
        split at hother
        next heq =>
          rw [hslot] at hother
          cases hother
          exact heq ▸ hgone
        · exact hrest.supplied other slot hother
      · rw [lookup_setSlot] at hfirst hsecond
        split at hfirst
        · simp [hslot] at hfirst
        · split at hsecond
          · simp [hslot] at hsecond
          · exact h.apart first second junction hfirst hsecond
  | some (.tap junction) =>
      simp only [Assembly.take, hslot]
      exact ⟨hrest, .refl assembly⟩
  | some (.fork junction) =>
      obtain ⟨stage, next, htake, hnext⟩ := h.takeBranch hslot
      simp only [Assembly.take, hslot, htake]
      exact hnext

theorem Serves.takeInput {rest : ModuleId → Nat} {step : Plan.Step} (hfed : step.input ≠ .record)
    (h : assembly.Serves fun id => (if step.input = .module id then 1 else 0) + rest id) :
    Settled (fun taken => taken.2.Serves rest ∧ assembly.Keeps taken.2)
      (assembly.takeInput step) := by
  unfold Assembly.takeInput
  match hinput : step.input with
  | .sentinel => exact ⟨h.mono fun id => Nat.le_add_left _ _, .refl assembly⟩
  | .record => exact absurd hinput hfed
  | .module source =>
      refine Serves.take (h.mono fun id => ?_)
      rw [hinput]
      simp only [Feed.module.injEq, eq_comm (a := id)]
      exact Nat.le_refl _

theorem Serves.takeInputs {rest : ModuleId → Nat} {inputs : List (String × ModuleId)}
    (h : assembly.Serves fun id => (inputs.countP fun input => input.2 == id) + rest id) :
    Settled (fun taken => taken.2.Serves rest ∧ assembly.Keeps taken.2)
      (assembly.takeInputs inputs) := by
  induction inputs generalizing assembly with
  | nil => exact ⟨h.mono fun id => Nat.le_add_left _ _, .refl assembly⟩
  | cons input others ih =>
      obtain ⟨name, source⟩ := input
      rw [Assembly.takeInputs]
      have hfirst : assembly.Serves fun id => (if id = source then 1 else 0) +
          ((others.countP fun input => input.2 == id) + rest id) := by
        refine h.mono fun id => Nat.le_of_eq ?_
        simp only [List.countP_cons, beq_iff_eq, eq_comm (a := id)]
        omega
      refine Settled.bind (Serves.take hfirst) ?_
      rintro ⟨stage, next⟩ ⟨hserves, hkeeps⟩
      refine Settled.bind (ih hserves) ?_
      rintro ⟨stages, final⟩ ⟨hfinal, hlater⟩
      exact ⟨hfinal, hkeeps.trans hlater⟩

/-- The bound module that a step embeds is there. -/
theorem embedFor_settled {step : Plan.Step}
    (hbound : ∀ id, step.embed = some id → (assembly.embeds.lookup id).isSome = true) :
    Settled (fun _ => True) (assembly.embedFor step) := by
  unfold Assembly.embedFor
  match hembed : step.embed with
  | none => trivial
  | some id =>
      obtain ⟨embed, hfound⟩ := Option.isSome_iff_exists.mp (hbound id hembed)
      simp only [Assembly.embed, hfound]
      trivial

/-- A step takes from the steps before it exactly what it demands. -/
theorem Serves.arguments {rest : ModuleId → Nat} {step : Plan.Step} {context : RunContext}
    (hfed : step.input ≠ .record)
    (hbound : ∀ id, step.embed = some id → (assembly.embeds.lookup id).isSome = true)
    (h : assembly.Serves fun id => step.demand id + rest id) :
    Settled (fun taken => (taken.1.branches = step.branches ∧ taken.2.Serves rest) ∧
      assembly.Keeps taken.2) (assembly.arguments context step) := by
  have hfirst : assembly.Serves fun id => (if step.input = .module id then 1 else 0) +
      ((step.inputs.countP fun input => input.2 == id) + rest id) :=
    h.mono fun id => Nat.le_of_eq (Nat.add_assoc _ _ _).symm
  refine Settled.bind (Serves.takeInput hfed hfirst) ?_
  rintro ⟨stage, next⟩ ⟨hserves, hkeeps⟩
  refine Settled.bind (Serves.takeInputs hserves) ?_
  rintro ⟨stages, final⟩ ⟨hfinal, hlater⟩
  have hall := hkeeps.trans hlater
  refine Settled.bind (embedFor_settled fun id hid => ?_) fun _ _ => ⟨⟨rfl, hfinal⟩, hall⟩
  rw [hall.embeds_eq]
  exact hbound id hid

end Assembly

end Pipework
