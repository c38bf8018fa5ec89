import Mathlib
import Pipework.Diagram.Basic

/-! # The index of a diagram

A module is looked up by an index that is kept beside the list of modules. The index has the ids of
the listed modules and no others, and as long as no two modules share an id it leads to what a
search of the list would find.
-/

namespace Pipework.Roster

variable {roster : Roster} {id : ModuleId} {module : Module} {place : Nat}

@[simp]
theorem modules_empty : empty.modules = [] := rfl

@[simp]
theorem modules_push (roster : Roster) (module : Module) :
    (roster.push module).modules = roster.modules ++ [module] := rfl

theorem pushAll_append (roster : Roster) (first second : List Module) :
    roster.pushAll (first ++ second) = (roster.pushAll first).pushAll second :=
  List.foldl_append

@[simp]
theorem modules_pushAll (roster : Roster) (modules : List Module) :
    (roster.pushAll modules).modules = roster.modules ++ modules := by
  induction modules generalizing roster with
  | nil => exact (List.append_nil _).symm
  | cons module rest ih =>
      have hpush : roster.pushAll (module :: rest) = (roster.push module).pushAll rest := rfl
      rw [hpush, ih, modules_push, List.append_assoc, List.singleton_append]

theorem exists_position? (h : roster.contains id = true) :
    ∃ place, roster.position? id = some place :=
  Option.isSome_iff_exists.mp h

/-- The index has the ids of the modules and no others. -/
theorem contains_iff : roster.contains id = true ↔ ∃ module ∈ roster.modules, module.id = id := by
  constructor
  · intro h
    obtain ⟨place, hplace⟩ := exists_position? h
    obtain ⟨module, hmodule, hid⟩ := roster.leads id place hplace
    exact ⟨module, List.mem_of_getElem? hmodule, hid⟩
  · rintro ⟨module, hmem, rfl⟩
    exact roster.finds module hmem

theorem not_contains_of_position? (h : roster.position? id = none) :
    roster.contains id = false := by
  by_contra hcontains
  obtain ⟨place, hplace⟩ := exists_position? (by simpa using hcontains)
  cases h.symm.trans hplace

theorem mem_of_module? (h : roster.module? id = some module) :
    module ∈ roster.modules ∧ module.id = id := by
  obtain ⟨place, hplace, hmodule⟩ := Option.bind_eq_some_iff.mp h
  obtain ⟨held, hheld, hid⟩ := roster.leads id place hplace
  obtain rfl : held = module := Option.some.inj (hheld.symm.trans hmodule)
  exact ⟨List.mem_of_getElem? hmodule, hid⟩

theorem module?_eq_none_iff : roster.module? id = none ↔ id ∉ roster.modules.map Module.id := by
  rw [List.mem_map, ← contains_iff, module?]
  cases hposition : roster.position? id with
  | none => simp [not_contains_of_position? hposition]
  | some place =>
      obtain ⟨module, hmodule, -⟩ := roster.leads id place hposition
      have hcontains : roster.contains id = true := Option.isSome_iff_exists.mpr ⟨place, hposition⟩
      simp [hmodule, hcontains]

theorem position?_lt (h : roster.position? id = some place) : place < roster.modules.length := by
  obtain ⟨module, hmodule, -⟩ := roster.leads id place h
  exact (List.getElem?_eq_some_iff.mp hmodule).1

section Distinct

variable (hnodup : (roster.modules.map Module.id).Nodup)

include hnodup

/-- The index leads to the places of the modules. -/
theorem position?_eq_some_iff : roster.position? id = some place ↔
    ∃ module, roster.modules[place]? = some module ∧ module.id = id := by
  refine ⟨roster.leads id place, ?_⟩
  rintro ⟨module, hmodule, rfl⟩
  have hmem := List.mem_of_getElem? hmodule
  obtain ⟨other, hother⟩ := exists_position? (contains_iff.mpr ⟨module, hmem, rfl⟩)
  obtain ⟨held, hheld, hid⟩ := roster.leads _ other hother
  -- The index might lead to another module of that id, but there is none.
  obtain rfl : held = module :=
    List.inj_on_of_nodup_map hnodup (List.mem_of_getElem? hheld) hmem hid
  obtain ⟨hlt, -⟩ := List.getElem?_eq_some_iff.mp hheld
  have hplace : other = place :=
    (List.getElem?_inj hlt (hnodup.of_map _)).mp (hheld.trans hmodule.symm)
  rw [hother, hplace]

/-- The index says at which place a search of the list would end. -/
theorem position?_eq_findIdx? (id : ModuleId) :
    roster.position? id = roster.modules.findIdx? fun module => module.id == id := by
  ext place
  rw [position?_eq_some_iff hnodup, List.findIdx?_eq_some_iff_getElem]
  constructor
  · rintro ⟨module, hmodule, rfl⟩
    obtain ⟨hplace, rfl⟩ := List.getElem?_eq_some_iff.mp hmodule
    refine ⟨hplace, beq_self_eq_true _, fun before hbefore hid => ?_⟩
    have hsame := List.inj_on_of_nodup_map hnodup (List.getElem_mem _) (List.getElem_mem _)
      (beq_iff_eq.mp hid)
    exact absurd ((hnodup.of_map _).getElem_inj_iff.mp hsame) (Nat.ne_of_lt hbefore)
  · rintro ⟨hplace, hid, -⟩
    exact ⟨_, List.getElem?_eq_getElem hplace, beq_iff_eq.mp hid⟩

theorem module?_of_mem (h : module ∈ roster.modules) : roster.module? module.id = some module := by
  obtain ⟨place, hplace⟩ := List.mem_iff_getElem?.mp h
  have hposition := (position?_eq_some_iff hnodup).mpr ⟨module, hplace, rfl⟩
  rw [module?, hposition, Option.bind_some, hplace]

/-- Looking a module up finds what a search of the list would find. -/
theorem module?_eq_find? (id : ModuleId) :
    roster.module? id = roster.modules.find? fun module => module.id == id := by
  cases hfind : roster.modules.find? fun module => module.id == id with
  | none =>
      rw [module?_eq_none_iff, List.mem_map]
      rintro ⟨module, hmem, rfl⟩
      simpa using List.find?_eq_none.mp hfind module hmem
  | some module =>
      obtain rfl : module.id = id := beq_iff_eq.mp (List.find?_some (p := fun module : Module =>
        module.id == id) hfind)
      exact module?_of_mem hnodup (List.mem_of_find?_eq_some hfind)

end Distinct

end Pipework.Roster
