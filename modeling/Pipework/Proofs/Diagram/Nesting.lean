import Mathlib
import Pipework.Proofs.Diagram.Index
import Pipework.Proofs.Outcome

/-! # Loops and what they embed

Reading a description puts each embedded module right behind its loop. So the modules of a diagram
are chains of loops, each of which ends with the first module that is no loop, and no two modules
have the same id.
-/

namespace Pipework

namespace Diagram

/-- A module of the given parent and, behind a loop, the module that it embeds with all that is
behind that one. -/
inductive Nested : Option ModuleId → List Module → Prop
  | plain {parent : Option ModuleId} {module : Module} (hparent : module.parent = parent)
      (htype : module.type ≠ TypeName.loop) : Nested parent [module]
  | loop {parent : Option ModuleId} {module inner : Module} {rest : List Module}
      (hparent : module.parent = parent) (htype : module.type = TypeName.loop)
      (hbody : module.loopBody? = some inner.id) (hrest : Nested (some module.id) (inner :: rest)) :
      Nested parent (module :: inner :: rest)

/-- How the modules of a diagram belong together. -/
structure Coherent (modules : List Module) : Prop where
  nodup : (modules.map Module.id).Nodup
  /-- An embedded module belongs to a loop that embeds it. -/
  owner : ∀ module ∈ modules, ∀ id, module.parent = some id → ∃ loop ∈ modules,
    loop.id = id ∧ loop.type = TypeName.loop ∧ loop.loopBody? = some module.id
  /-- A loop embeds a module that belongs to it. -/
  body : ∀ loop ∈ modules, loop.type = TypeName.loop → ∃ inner ∈ modules,
    loop.loopBody? = some inner.id ∧ inner.parent = some loop.id

namespace Nested

variable {parent : Option ModuleId} {chain : List Module}

/-- A chain begins with a module of the given parent; the owners of the others are in it. -/
theorem owner (h : Nested parent chain) : ∀ module ∈ chain, module.parent = parent ∨
    ∃ loop ∈ chain, module.parent = some loop.id ∧ loop.type = TypeName.loop ∧
      loop.loopBody? = some module.id := by
  suffices hchain : (∀ module ∈ chain.head?, module.parent = parent) ∧ ∀ module ∈ chain.tail,
      ∃ loop ∈ chain, module.parent = some loop.id ∧ loop.type = TypeName.loop ∧
        loop.loopBody? = some module.id by
    intro module hmem
    cases chain with
    | nil => cases hmem
    | cons head rest =>
        rcases List.mem_cons.mp hmem with rfl | hmem
        · exact .inl (hchain.1 module rfl)
        · exact .inr (hchain.2 module hmem)
  induction h with
  | plain hparent htype => exact ⟨by rintro module ⟨⟩; exact hparent, fun _ hmem => nomatch hmem⟩
  | @loop _ module inner rest hparent htype hbody hrest ih =>
      refine ⟨by rintro module ⟨⟩; exact hparent, fun other hmem => ?_⟩
      rcases List.mem_cons.mp hmem with rfl | hmem
      · exact ⟨module, List.mem_cons_self, ih.1 other rfl, htype, hbody⟩
      · obtain ⟨loop, hloop, hinner⟩ := ih.2 other hmem
        exact ⟨loop, List.mem_cons_of_mem _ hloop, hinner⟩

/-- Every loop of a chain has what it embeds in the chain. -/
theorem body (h : Nested parent chain) : ∀ loop ∈ chain, loop.type = TypeName.loop →
    ∃ inner ∈ chain, loop.loopBody? = some inner.id ∧ inner.parent = some loop.id := by
  induction h with
  | plain hparent htype =>
      intro loop hmem hloop
      exact absurd (List.mem_singleton.mp hmem ▸ hloop) htype
  | @loop _ module inner rest hparent htype hbody hrest ih =>
      intro loop hmem hloop
      rcases List.mem_cons.mp hmem with rfl | hmem
      · refine ⟨inner, List.mem_cons_of_mem _ List.mem_cons_self, hbody, ?_⟩
        cases hrest with
        | plain hinner _ => exact hinner
        | loop hinner _ _ _ => exact hinner
      · obtain ⟨other, hother, hbelongs⟩ := ih loop hmem hloop
        exact ⟨other, List.mem_cons_of_mem _ hother, hbelongs⟩

end Nested

end Diagram

namespace Description

variable {before after : Roster} {raw : Value} {path : String} {parent : Option ModuleId}
  {module : Module}

theorem nonemptyText_eq_ok {value : Option Value} {text : String}
    (h : nonemptyText value path = .ok text) : value = some (.text text) := by
  unfold nonemptyText at h
  split at h
  · split at h
    · cases h
    · cases h
      rfl
  · cases h
  · cases h

/-- What a module that is read has of its description. -/
theorem readModule_eq_ok (h : readModule before raw path parent = .ok module) :
    raw.field? "id" = some (.text module.rawId) ∧ module.id = .ofRaw module.rawId ∧
      raw.field? "type" = some (.text module.type) ∧
      module.conf = .ofValue ((raw.field? "conf").getD .null) ∧ module.parent = parent ∧
      module.id ∉ before.modules.map Module.id := by
  unfold readModule at h
  cases hobject : raw.asObject? with
  | none =>
      rw [hobject] at h
      cases h
  | some fields =>
      rw [hobject] at h
      obtain ⟨rawId, hid, h⟩ := bind_eq_ok_iff.mp h
      obtain ⟨type, htype, h⟩ := bind_eq_ok_iff.mp h
      cases hfind : before.module? (.ofRaw rawId) with
      | some existing =>
          simp only [hfind] at h
          cases h
      | none =>
          simp only [hfind] at h
          cases h
          simp only [Value.field?, hobject, Option.bind_some]
          exact ⟨nonemptyText_eq_ok hid, trivial, nonemptyText_eq_ok htype, trivial, trivial,
            Roster.module?_eq_none_iff.mp hfind⟩

/-- The id of what a loop embeds is that in its description. -/
theorem loopBody?_of_readModule (h : readModule before raw path parent = .ok module)
    (htype : module.type = TypeName.loop) : module.loopBody? =
      (((embedded? raw).bind fun embed => embed.field? "id").bind Value.asText?).map
        ModuleId.ofRaw := by
  obtain ⟨-, -, -, hconf, -⟩ := readModule_eq_ok h
  have hdescriptor : module.conf.descriptor? "embed" =
      (raw.field? "conf").bind fun conf => conf.field? "embed" := by
    rw [hconf]
    cases raw.field? "conf" with
    | none => rfl
    | some conf => cases conf <;> rfl
  rw [Module.loopBody?, if_pos htype, hdescriptor, embedded?]

theorem nodup_of_readModule (h : readModule before raw path parent = .ok module)
    (hbefore : (before.modules.map Module.id).Nodup) :
    ((before.push module).modules.map Module.id).Nodup := by
  obtain ⟨-, -, -, -, -, hnew⟩ := readModule_eq_ok h
  rw [Roster.modules_push, List.map_append, List.map_singleton]
  exact List.nodup_append.mpr ⟨hbefore, List.nodup_singleton _, fun id hid other hother =>
    List.mem_singleton.mp hother ▸ ne_of_mem_of_not_mem hid hnew⟩

/-- What is placed behind the modules before is a chain, with a new id for each of its modules. -/
theorem placeModule_eq_ok (h : placeModule before raw path parent = .ok after) :
    ∃ module rest, readModule before raw path parent = .ok module ∧
      after.modules = before.modules ++ module :: rest ∧ Diagram.Nested parent (module :: rest) ∧
      ((before.modules.map Module.id).Nodup → (after.modules.map Module.id).Nodup) := by
  induction before, raw, path, parent using placeModule.induct with
  | case1 before raw path parent error hread =>
      rw [placeModule, hread] at h
      cases h
  | case2 before raw path parent module hread htype hnone =>
      rw [placeModule, hread] at h
      simp only [if_pos htype] at h
      split at h
      · cases h
      next embed hembed => simp [hnone] at hembed
  | case3 before raw path parent module hread htype embed hembed ih =>
      rw [placeModule, hread] at h
      simp only [if_pos htype] at h
      split at h
      · cases h
      next other hother =>
        obtain rfl : embed = other := Option.some.inj (hembed.symm.trans hother)
        obtain ⟨inner, rest, hinner, hmodules, hnested, hnodup⟩ := ih h
        obtain ⟨hparent, hbody⟩ : module.parent = parent ∧
            module.loopBody? = some inner.id := by
          obtain ⟨-, -, -, -, hparent, -⟩ := readModule_eq_ok hread
          obtain ⟨hid, hinnerId, -⟩ := readModule_eq_ok hinner
          refine ⟨hparent, ?_⟩
          rw [loopBody?_of_readModule hread htype, hembed, Option.bind_some, hid, hinnerId]
          rfl
        refine ⟨module, inner :: rest, hread, by simp [hmodules],
          .loop hparent htype hbody hnested, ?_⟩
        exact fun hbefore => hnodup (nodup_of_readModule hread hbefore)
  | case4 before raw path parent module hread htype =>
      rw [placeModule, hread] at h
      simp only [if_neg htype, Except.ok.injEq] at h
      subst h
      obtain ⟨-, -, -, -, hparent, -⟩ := readModule_eq_ok hread
      exact ⟨module, [], hread, rfl, .plain hparent htype, nodup_of_readModule hread⟩

theorem coherent_append {modules chain : List Module} (hmodules : Diagram.Coherent modules)
    (hchain : Diagram.Nested none chain) (hnodup : ((modules ++ chain).map Module.id).Nodup) :
    Diagram.Coherent (modules ++ chain) where
  nodup := hnodup
  owner := by
    intro module hmem id hid
    rcases List.mem_append.mp hmem with hmem | hmem
    · obtain ⟨loop, hloop, howner⟩ := hmodules.owner module hmem id hid
      exact ⟨loop, List.mem_append_left _ hloop, howner⟩
    · rcases hchain.owner module hmem with hnone | ⟨loop, hloop, hparent, htype, hbody⟩
      · cases hid.symm.trans hnone
      · exact ⟨loop, List.mem_append_right _ hloop,
          Option.some.inj (hparent.symm.trans hid), htype, hbody⟩
  body := by
    intro loop hmem htype
    rcases List.mem_append.mp hmem with hmem | hmem
    · obtain ⟨inner, hinner, hbelongs⟩ := hmodules.body loop hmem htype
      exact ⟨inner, List.mem_append_left _ hinner, hbelongs⟩
    · obtain ⟨inner, hinner, hbelongs⟩ := hchain.body loop hmem htype
      exact ⟨inner, List.mem_append_right _ hinner, hbelongs⟩

theorem coherent_of_placeModules {index : Nat} {listed : List Value}
    (hbefore : Diagram.Coherent before.modules)
    (h : placeModules before index listed = .ok after) : Diagram.Coherent after.modules := by
  induction listed generalizing before index with
  | nil => exact Except.ok.inj h ▸ hbefore
  | cons raw rest ih =>
      rw [placeModules] at h
      split at h
      · cases h
      next placed hplaced =>
        obtain ⟨module, chain, -, hmodules, hnested, hnodup⟩ := placeModule_eq_ok hplaced
        refine ih ?_ h
        have hids := hnodup hbefore.nodup
        rw [hmodules] at hids ⊢
        exact coherent_append hbefore hnested hids

end Description

namespace Diagram

/-- The modules of a description belong together. -/
theorem coherent_of_parse {description : Value} {name : String} {diagram : Diagram}
    (h : parse description name = .ok diagram) : Coherent diagram.modules := by
  unfold parse at h
  split at h
  · cases h
  · split at h
    · cases h
    next listed _ =>
      obtain ⟨roster, hroster, h⟩ := bind_eq_ok_iff.mp h
      obtain ⟨wires, -, h⟩ := bind_eq_ok_iff.mp h
      cases h
      refine Description.coherent_of_placeModules ?_ hroster
      exact { nodup := List.nodup_nil, owner := nofun, body := nofun }

/-- In a diagram that has been read the index finds what a search of the modules would find. -/
theorem lookups_of_parse {description : Value} {name : String} {diagram : Diagram}
    (h : parse description name = .ok diagram) (id : ModuleId) :
    diagram.position? id = diagram.modules.findIdx? (fun module => module.id == id) ∧
      diagram.module? id = diagram.modules.find? fun module => module.id == id := by
  have hnodup := (coherent_of_parse h).nodup
  exact ⟨Roster.position?_eq_findIdx? hnodup id, Roster.module?_eq_find? hnodup id⟩

end Diagram

end Pipework
