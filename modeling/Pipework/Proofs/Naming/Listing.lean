import Mathlib
import Pipework.Factory
import Pipework.Pipe.Description
import Pipework.Proofs.Naming.Collisions
import Pipework.Proofs.Outcome

/-! # The types that a pipe is said to depend on

A pipe is described by the names under which the types of its modules are listed, embedded and
unconnected modules included. The names increase, and every type has its name among them. Types that
are listed under one name have one entry, so there are as many entries as types exactly if no two
types of the pipe are alike.
-/

namespace Pipework

namespace Pipe

variable {name other : String} {names : List String}

theorem mem_insertName : other ∈ insertName name names ↔ other = name ∨ other ∈ names := by
  induction names with
  | nil => simp [insertName]
  | cons head rest ih =>
      rw [insertName]
      split
      next heq => simp [heq]
      next =>
        split
        next => simp
        next =>
          simp only [List.mem_cons, ih]
          exact or_left_comm

/-- A name is put where it belongs. -/
theorem pairwise_insertName (h : names.Pairwise (· < ·)) :
    (insertName name names).Pairwise (· < ·) := by
  induction names with
  | nil => exact List.pairwise_singleton _ _
  | cons head rest ih =>
      obtain ⟨hhead, hrest⟩ := List.pairwise_cons.mp h
      rw [insertName]
      split
      next => exact h
      next hne =>
        split
        next hlt =>
          refine List.pairwise_cons.mpr ⟨fun later hlater => ?_, h⟩
          rcases List.mem_cons.mp hlater with rfl | hlater
          · exact hlt
          · exact hlt.trans (hhead later hlater)
        next hnot =>
          refine List.pairwise_cons.mpr ⟨fun later hlater => ?_, ih hrest⟩
          rcases mem_insertName.mp hlater with rfl | hlater
          · exact lt_of_le_of_ne (not_lt.mp hnot) (Ne.symm hne)
          · exact hhead later hlater

/-- The names of modules are added to those that are listed already. -/
theorem foldl_insertName (modules : List Module) (h : names.Pairwise (· < ·)) :
    let added := modules.foldl
      (fun names module => insertName (TypeName.callName module.type) names) names
    added.Pairwise (· < ·) ∧ ∀ name, name ∈ added ↔
      name ∈ names ∨ ∃ module ∈ modules, TypeName.callName module.type = name := by
  induction modules generalizing names with
  | nil => exact ⟨h, by simp⟩
  | cons module rest ih =>
      have hinsert : (insertName (TypeName.callName module.type) names).Pairwise (· < ·) :=
        pairwise_insertName h
      obtain ⟨hpairwise, hmem⟩ := ih hinsert
      refine ⟨hpairwise, fun name => ?_⟩
      rw [List.foldl_cons, hmem, mem_insertName, List.exists_mem_cons_iff]
      rw [or_assoc, or_left_comm, eq_comm]

/-- The types of the modules. -/
def types (pipe : Pipe) : Finset String :=
  (pipe.diagram.modules.map Module.type).toFinset

theorem mem_types {pipe : Pipe} {type : String} :
    type ∈ pipe.types ↔ ∃ module ∈ pipe.diagram.modules, module.type = type := by
  simp [types]

theorem pairwise_dependencyNames (pipe : Pipe) : pipe.dependencyNames.Pairwise (· < ·) :=
  (foldl_insertName pipe.diagram.modules List.Pairwise.nil).1

theorem mem_dependencyNames {pipe : Pipe} {name : String} : name ∈ pipe.dependencyNames ↔
    ∃ module ∈ pipe.diagram.modules, TypeName.callName module.type = name := by
  rw [dependencyNames, (foldl_insertName pipe.diagram.modules List.Pairwise.nil).2]
  simp

/-- There is one entry for each name under which a type of the pipe is listed. -/
theorem length_dependencyNames (pipe : Pipe) :
    pipe.dependencyNames.length = (pipe.types.image TypeName.callName).card := by
  have hnames : pipe.dependencyNames.toFinset = pipe.types.image TypeName.callName := by
    ext name
    simp [mem_dependencyNames, mem_types]
  rw [← hnames, List.toFinset_card_of_nodup (pipe.pairwise_dependencyNames.imp ne_of_lt)]

/-- What the list of a pipe's dependencies says. -/
structure ListsTypes (pipe : Pipe) : Prop where
  increasing : pipe.dependencyNames.Pairwise (· < ·)
  /-- Listed are the names of the types of all modules, wherever they stand in the diagram. -/
  listed : ∀ name, name ∈ pipe.dependencyNames ↔
    ∃ module ∈ pipe.diagram.modules, TypeName.callName module.type = name
  /-- One entry stands for the types that are alike, and for no others. -/
  shared : ∀ first second, TypeName.callName first = TypeName.callName second ↔
    TypeName.Alike first second
  /-- The entry of a built-in type stands for that type alone. -/
  builtin : ∀ (type : Builtin) (other : String),
    TypeName.callName other = TypeName.callName type.name → other = type.name
  /-- There are as many entries as types exactly if no two of the types are alike. -/
  count : pipe.dependencyNames.length = pipe.types.card ↔
    ∀ first ∈ pipe.types, ∀ second ∈ pipe.types, TypeName.Alike first second → first = second

theorem dependencyNames_listsTypes (pipe : Pipe) : pipe.ListsTypes where
  increasing := pipe.pairwise_dependencyNames
  listed := fun _ => mem_dependencyNames
  shared := fun _ _ => TypeName.callName_eq_iff
  builtin := fun _ _ h => (TypeName.callName_eq_iff.mp h.symm).eq_builtin
  count := by
    rw [length_dependencyNames, Finset.card_image_iff]
    constructor
    · intro h first hfirst second hsecond halike
      exact h hfirst hsecond (TypeName.callName_eq_iff.mpr halike)
    · intro h first hfirst second hsecond hsame
      exact h first hfirst second hsecond (TypeName.callName_eq_iff.mp hsame)

/-- Two modules that run pipes whose names differ in a separator. -/
def namesakes : Value :=
  .object ⟨[("modules", .list [
    .object ⟨[("id", .text "first"), ("type", .text "pipe:a-b")]⟩,
    .object ⟨[("id", .text "second"), ("type", .text "pipe:a_b")]⟩])]⟩

/-- A pipe without modules. -/
def blank : Pipe :=
  { diagram := { Roster.empty with name := "blank", wires := [] }
    dependents := [], order := [], plan := ⟨[], ⟨0, 0, 0, 0⟩⟩ }

/-- A pipe can be registered under both names, and one that runs both has one entry for the two
types. -/
theorem namesakes_listed_once :
    compile (.object ⟨[("modules", .list [])]⟩) "blank" = .ok blank ∧
    (∃ once twice, Registry.standard.addPipe "a-b" blank = .ok once ∧
      once.addPipe "a_b" blank = .ok twice) ∧
    ∃ pipe, compile namesakes "outer" = .ok pipe ∧ pipe.types = {"pipe:a-b", "pipe:a_b"} ∧
      pipe.dependencyNames = ["pipe_a_b"] := by
  refine ⟨by cbv, ⟨_, _, rfl, rfl⟩, ?_⟩
  have hok : (compile namesakes "outer").map (fun pipe =>
      (pipe.diagram.modules.map Module.type, pipe.dependencyNames)) =
        .ok (["pipe:a-b", "pipe:a_b"], ["pipe_a_b"]) := by cbv
  obtain ⟨pipe, hpipe, hfound⟩ := map_eq_ok_iff.mp hok
  obtain ⟨htypes, hnames⟩ := Prod.mk.inj hfound
  refine ⟨pipe, hpipe, ?_, hnames⟩
  rw [types, htypes]
  rfl

end Pipe

end Pipework
