import Mathlib
import Pipework.Proofs.Diagram.Nesting

/-! # The grammar of descriptions

What a description has to be for `Diagram.parse` to read it, said of the value itself: which members
its modules and wires must have, with all that loops embed, and that no two modules share an id. A
value of that form is read faithfully. The modules are those of the description from the outside in,
every id leads to its module, and what a loop embeds stands right behind it.
-/

namespace Pipework

namespace Description

/-- A value has a text that is not empty under a key. -/
def HasText (raw : Value) (key : String) : Prop :=
  ∃ text, raw.field? key = some (.text text) ∧ text.isEmpty = false

/-- The text under a key. -/
def textOf (raw : Value) (key : String) : String :=
  ((raw.field? key).bind Value.asText?).getD ""

/-- The id of a module by its description. -/
def idOf (raw : Value) : ModuleId :=
  .ofRaw (textOf raw "id")

/-- Whether a module is a loop by its description. -/
def IsLoop (raw : Value) : Prop :=
  textOf raw "type" = TypeName.loop

instance (raw : Value) : Decidable (IsLoop raw) :=
  inferInstanceAs (Decidable (_ = _))

/-- What the description of one module must be. -/
structure ModuleForm (raw : Value) : Prop where
  id : HasText raw "id"
  type : HasText raw "type"
  embed : IsLoop raw → (embedded? raw).isSome

/-- What one end of a wire must be. -/
structure WireEndForm (value : Value) : Prop where
  module : HasText value "moduleid"
  terminal : HasText value "id"

/-- What the description of one wire must be. -/
structure WireForm (raw : Value) : Prop where
  id : HasText raw "id"
  source : ∃ value, raw.field? "src" = some value ∧ WireEndForm value
  target : ∃ value, raw.field? "tgt" = some value ∧ WireEndForm value

/-- A module's description, with the loop that the module belongs to. -/
structure Entry where
  parent : Option ModuleId
  raw : Value

namespace Entry

/-- The module that an entry describes. -/
def module (entry : Entry) : Module :=
  { id := idOf entry.raw
    rawId := textOf entry.raw "id"
    type := textOf entry.raw "type"
    conf := .ofValue ((entry.raw.field? "conf").getD .null)
    parent := entry.parent }

end Entry

/-- The entry of a module and, behind it, those of all that it embeds, from the outside in. -/
def entries (parent : Option ModuleId) (raw : Value) : List Entry :=
  ⟨parent, raw⟩ ::
    if IsLoop raw then
      match _owned : embedded? raw with
      | none => []
      | some embed => entries (some (idOf raw)) embed
    else []
termination_by sizeOf raw
decreasing_by exact sizeOf_lt_of_embedded? _owned

/-- The items that a description lists under a key. -/
def listed (description : Value) (key : String) : List Value :=
  ((description.field? key).map items).getD []

/-- The entries of all modules, in the order of the description. -/
def allEntries (description : Value) : List Entry :=
  (listed description "modules").flatMap (entries none)

/-- What a description must be. -/
structure Form (description : Value) : Prop where
  listsModules : (description.field? "modules").isSome
  modules : ∀ entry ∈ allEntries description, ModuleForm entry.raw
  ids : ((allEntries description).map fun entry => idOf entry.raw).Nodup
  wires : ∀ raw ∈ listed description "wires", WireForm raw

section Reading

variable {before : Roster} {raw : Value} {path : String} {parent : Option ModuleId}
  {module : Module}

theorem entries_of_not_isLoop (hloop : ¬ IsLoop raw) : entries parent raw = [⟨parent, raw⟩] := by
  rw [entries, if_neg hloop]

theorem entries_of_embedded? {embed : Value} (hloop : IsLoop raw)
    (hembed : embedded? raw = some embed) :
    entries parent raw = ⟨parent, raw⟩ :: entries (some (idOf raw)) embed := by
  rw [entries, if_pos hloop]
  split
  next hnone => cases hnone.symm.trans hembed
  next other hother => rw [Option.some.inj (hother.symm.trans hembed)]

theorem get?_of_asObject? {value : Value} {fields : Dict Value}
    (h : value.asObject? = some fields) (key : String) : fields.get? key = value.field? key := by
  rw [Value.field?, h, Option.bind_some]

theorem textOf_eq {key text : String} (h : raw.field? key = some (.text text)) :
    textOf raw key = text := by
  rw [textOf, h]
  rfl

/-- A text is read exactly if it is there and not empty. -/
theorem nonemptyText_eq_ok_iff {key text : String} :
    nonemptyText (raw.field? key) path = .ok text ↔ HasText raw key ∧ text = textOf raw key := by
  constructor
  · intro h
    have hfield := nonemptyText_eq_ok h
    rw [hfield] at h
    simp only [nonemptyText] at h
    split at h
    · cases h
    next hempty => exact ⟨⟨text, hfield, by simpa using hempty⟩, (textOf_eq hfield).symm⟩
  · rintro ⟨⟨held, hfield, hempty⟩, rfl⟩
    rw [textOf_eq hfield, hfield]
    simp only [nonemptyText, hempty, Bool.false_eq_true, if_false]

theorem HasText.asObject? {key : String} (h : HasText raw key) :
    ∃ fields, raw.asObject? = some fields ∧ ∀ key, fields.get? key = raw.field? key := by
  obtain ⟨text, hfield, -⟩ := h
  obtain ⟨fields, hfields, -⟩ := Option.bind_eq_some_iff.mp hfield
  exact ⟨fields, hfields, get?_of_asObject? hfields⟩

/-- A module is read exactly if its description has the texts and its id is new. -/
theorem readModule_eq_ok_iff : readModule before raw path parent = .ok module ↔
    HasText raw "id" ∧ HasText raw "type" ∧ idOf raw ∉ before.modules.map Module.id ∧
      module = Entry.module ⟨parent, raw⟩ := by
  constructor
  · intro h
    obtain ⟨hid, hofRaw, htype, hconf, hparent, hnew⟩ := readModule_eq_ok h
    have hidOf : module.id = idOf raw := by rw [hofRaw, idOf, textOf_eq hid]
    have hmodule : module = Entry.module ⟨parent, raw⟩ := by
      simp only [Entry.module, textOf_eq hid, textOf_eq htype, ← hidOf, ← hconf, ← hparent]
    unfold readModule at h
    cases hobject : raw.asObject? with
    | none =>
        rw [hobject] at h
        cases h
    | some fields =>
        simp only [hobject, get?_of_asObject? hobject] at h
        obtain ⟨rawId, hrawId, h⟩ := bind_eq_ok_iff.mp h
        obtain ⟨type, hread, -⟩ := bind_eq_ok_iff.mp h
        exact ⟨(nonemptyText_eq_ok_iff.mp hrawId).1, (nonemptyText_eq_ok_iff.mp hread).1,
          hidOf ▸ hnew, hmodule⟩
  · rintro ⟨hid, htype, hnew, rfl⟩
    obtain ⟨fields, hobject, hfield⟩ := hid.asObject?
    simp only [readModule, hobject, hfield]
    refine bind_eq_ok_iff.mpr ⟨_, nonemptyText_eq_ok_iff.mpr ⟨hid, rfl⟩, ?_⟩
    refine bind_eq_ok_iff.mpr ⟨_, nonemptyText_eq_ok_iff.mpr ⟨htype, rfl⟩, ?_⟩
    have hnone : before.module? (.ofRaw (textOf raw "id")) = none :=
      Roster.module?_eq_none_iff.mpr hnew
    simp only [hnone]
    rfl

end Reading

/-- The modules so far and, behind them, those of some entries. -/
def placed (before : Roster) (entries : List Entry) : Roster :=
  before.pushAll (entries.map Entry.module)

/-- Entries can be placed if each has the form of a module and no id comes twice. -/
structure Placeable (before : Roster) (entries : List Entry) : Prop where
  forms : ∀ entry ∈ entries, ModuleForm entry.raw
  ids : ((placed before entries).modules.map Module.id).Nodup

section Placing

variable {before after : Roster} {entry : Entry} {rest more : List Entry} {raw : Value}
  {path : String} {parent : Option ModuleId}

theorem placed_nil : placed before [] = before := rfl

theorem placed_cons : placed before (entry :: rest) = placed (before.push entry.module) rest := rfl

theorem placed_append : placed before (rest ++ more) = placed (placed before rest) more := by
  rw [placed, List.map_append, Roster.pushAll_append]
  rfl

theorem modules_placed :
    (placed before rest).modules = before.modules ++ rest.map Entry.module :=
  Roster.modules_pushAll ..

namespace Placeable

theorem nodup (h : Placeable before rest) : (before.modules.map Module.id).Nodup := by
  have hids := h.ids
  rw [modules_placed, List.map_append] at hids
  exact hids.of_append_left

theorem nil_iff : Placeable before [] ↔ (before.modules.map Module.id).Nodup :=
  ⟨nodup, fun hbefore => ⟨nofun, hbefore⟩⟩

theorem append_iff :
    Placeable before (rest ++ more) ↔
      Placeable before rest ∧ Placeable (placed before rest) more := by
  constructor
  · intro h
    have hids := h.ids
    rw [placed_append] at hids
    refine ⟨⟨fun entry hmem => h.forms entry (List.mem_append_left _ hmem), ?_⟩,
      fun entry hmem => h.forms entry (List.mem_append_right _ hmem), hids⟩
    rw [modules_placed, List.map_append] at hids
    exact hids.of_append_left
  · rintro ⟨hrest, hmore⟩
    refine ⟨fun entry hmem => ?_, placed_append ▸ hmore.ids⟩
    rcases List.mem_append.mp hmem with hmem | hmem
    · exact hrest.forms entry hmem
    · exact hmore.forms entry hmem

theorem cons_iff : Placeable before (entry :: rest) ↔
    ModuleForm entry.raw ∧ Placeable (before.push entry.module) rest := by
  constructor
  · intro h
    exact ⟨h.forms entry List.mem_cons_self,
      fun other hmem => h.forms other (List.mem_cons_of_mem _ hmem), placed_cons ▸ h.ids⟩
  · rintro ⟨hentry, hrest⟩
    refine ⟨fun other hmem => ?_, placed_cons ▸ hrest.ids⟩
    rcases List.mem_cons.mp hmem with rfl | hmem
    · exact hentry
    · exact hrest.forms other hmem

/-- The module of the first entry can be read. -/
theorem readModule (h : Placeable before (⟨parent, raw⟩ :: rest)) (path : String) :
    readModule before raw path parent = .ok (Entry.module ⟨parent, raw⟩) := by
  obtain ⟨hform, hrest⟩ := cons_iff.mp h
  refine readModule_eq_ok_iff.mpr ⟨hform.id, hform.type, ?_, rfl⟩
  have hnodup := hrest.nodup
  rw [Roster.modules_push, List.map_append, List.map_singleton] at hnodup
  intro hmem
  exact (List.nodup_append.mp hnodup).2.2 _ hmem _ (List.mem_singleton_self _) rfl

end Placeable

/-- A module is placed, with all that it embeds, exactly if its entries can be. -/
theorem placeModule_eq_ok_iff (hbefore : (before.modules.map Module.id).Nodup) :
    placeModule before raw path parent = .ok after ↔
      Placeable before (entries parent raw) ∧ after = placed before (entries parent raw) := by
  induction before, raw, path, parent using placeModule.induct with
  | case1 before raw path parent error hread =>
      rw [placeModule, hread]
      constructor
      · intro h
        cases h
      · rintro ⟨hplace, -⟩
        rw [entries] at hplace
        cases hread.symm.trans (hplace.readModule path)
  | case2 before raw path parent module hread htype hnone =>
      obtain ⟨-, -, -, rfl⟩ := readModule_eq_ok_iff.mp hread
      rw [placeModule, hread]
      simp only [if_pos htype]
      constructor
      · intro h
        split at h
        · cases h
        next embed hembed => simp [hnone] at hembed
      · rintro ⟨hplace, -⟩
        rw [entries] at hplace
        have hsome := (Placeable.cons_iff.mp hplace).1.embed htype
        rw [hnone] at hsome
        cases hsome
  | case3 before raw path parent module hread htype embed hembed ih =>
      obtain ⟨hid, htext, hnew, rfl⟩ := readModule_eq_ok_iff.mp hread
      have hnodup := nodup_of_readModule hread hbefore
      rw [placeModule, hread]
      simp only [if_pos htype]
      have hform : ModuleForm raw := ⟨hid, htext, fun _ => by rw [hembed]; rfl⟩
      rw [entries_of_embedded? htype hembed, Placeable.cons_iff, placed_cons]
      split
      next hnone => cases hnone.symm.trans hembed
      next other hother =>
        obtain rfl : embed = other := Option.some.inj (hembed.symm.trans hother)
        rw [ih hnodup]
        exact ⟨fun h => ⟨⟨hform, h.1⟩, h.2⟩, fun h => ⟨h.1.2, h.2⟩⟩
  | case4 before raw path parent module hread htype =>
      obtain ⟨hid, htext, hnew, rfl⟩ := readModule_eq_ok_iff.mp hread
      have hnodup := nodup_of_readModule hread hbefore
      rw [placeModule, hread]
      simp only [if_neg htype, Except.ok.injEq]
      have hform : ModuleForm raw := ⟨hid, htext, fun hloop => absurd hloop htype⟩
      rw [entries_of_not_isLoop htype, Placeable.cons_iff, Placeable.nil_iff]
      exact ⟨fun h => ⟨⟨hform, hnodup⟩, h.symm⟩, fun h => h.2.symm⟩

/-- Modules are placed exactly if their entries can be. -/
theorem placeModules_eq_ok_iff {index : Nat} {raws : List Value}
    (hbefore : (before.modules.map Module.id).Nodup) :
    placeModules before index raws = .ok after ↔
      Placeable before (raws.flatMap (entries none)) ∧
        after = placed before (raws.flatMap (entries none)) := by
  induction raws generalizing before index with
  | nil =>
      rw [List.flatMap_nil, Placeable.nil_iff, placeModules, Except.ok.injEq]
      simp [placed_nil, hbefore, eq_comm]
  | cons raw rest ih =>
      rw [List.flatMap_cons, Placeable.append_iff, placed_append, placeModules]
      split
      next error hplace =>
        constructor
        · intro h
          cases h
        · rintro ⟨⟨hfirst, -⟩, -⟩
          cases hplace.symm.trans ((placeModule_eq_ok_iff hbefore).mpr ⟨hfirst, rfl⟩)
      next reached hplace =>
        obtain ⟨hfirst, rfl⟩ := (placeModule_eq_ok_iff hbefore).mp hplace
        rw [ih hfirst.ids]
        exact ⟨fun h => ⟨⟨hfirst, h.1⟩, h.2⟩, fun h => ⟨h.1.2, h.2⟩⟩

end Placing

section Wires

variable {raw : Value} {path : String}

/-- The end of a wire by its description. -/
def wireEndOf (value : Value) : WireEnd :=
  ⟨.ofRaw (textOf value "moduleid"), ⟨textOf value "id"⟩⟩

/-- A wire by its description. -/
def wireOf (raw : Value) : Wire :=
  { id := .ofRaw (textOf raw "id")
    source := wireEndOf ((raw.field? "src").getD .null)
    target := wireEndOf ((raw.field? "tgt").getD .null) }

theorem readWireEnd_eq_ok_iff {held : Option Value} {place : WireEnd} :
    readWireEnd held path = .ok place ↔
      ∃ value, held = some value ∧ WireEndForm value ∧ place = wireEndOf value := by
  constructor
  · intro h
    unfold readWireEnd at h
    split at h
    · cases h
    next fields hfields =>
      obtain ⟨value, rfl, hobject⟩ := Option.bind_eq_some_iff.mp hfields
      simp only [get?_of_asObject? hobject] at h
      obtain ⟨module, hmodule, h⟩ := bind_eq_ok_iff.mp h
      obtain ⟨terminal, hterminal, h⟩ := bind_eq_ok_iff.mp h
      obtain ⟨hmoduleText, rfl⟩ := nonemptyText_eq_ok_iff.mp hmodule
      obtain ⟨hterminalText, rfl⟩ := nonemptyText_eq_ok_iff.mp hterminal
      cases h
      exact ⟨value, rfl, ⟨hmoduleText, hterminalText⟩, rfl⟩
  · rintro ⟨value, rfl, hform, rfl⟩
    obtain ⟨fields, hobject, hfield⟩ := hform.module.asObject?
    simp only [readWireEnd, Option.bind_some, hobject, hfield]
    refine bind_eq_ok_iff.mpr ⟨_, nonemptyText_eq_ok_iff.mpr ⟨hform.module, rfl⟩, ?_⟩
    exact bind_eq_ok_iff.mpr ⟨_, nonemptyText_eq_ok_iff.mpr ⟨hform.terminal, rfl⟩, rfl⟩

/-- A wire is read exactly if its description has the form of one. -/
theorem readWire_eq_ok_iff {wire : Wire} :
    readWire raw path = .ok wire ↔ WireForm raw ∧ wire = wireOf raw := by
  constructor
  · intro h
    unfold readWire at h
    split at h
    · cases h
    next fields hobject =>
      simp only [get?_of_asObject? hobject] at h
      obtain ⟨id, hid, h⟩ := bind_eq_ok_iff.mp h
      obtain ⟨source, hsource, h⟩ := bind_eq_ok_iff.mp h
      obtain ⟨target, htarget, h⟩ := bind_eq_ok_iff.mp h
      obtain ⟨hidText, rfl⟩ := nonemptyText_eq_ok_iff.mp hid
      obtain ⟨src, hsrc, hsourceForm, rfl⟩ := readWireEnd_eq_ok_iff.mp hsource
      obtain ⟨tgt, htgt, htargetForm, rfl⟩ := readWireEnd_eq_ok_iff.mp htarget
      cases h
      refine ⟨⟨hidText, ⟨src, hsrc, hsourceForm⟩, tgt, htgt, htargetForm⟩, ?_⟩
      rw [wireOf, hsrc, htgt]
      rfl
  · rintro ⟨⟨hid, ⟨src, hsrc, hsource⟩, tgt, htgt, htarget⟩, rfl⟩
    obtain ⟨fields, hobject, hfield⟩ := hid.asObject?
    simp only [readWire, hobject, hfield]
    refine bind_eq_ok_iff.mpr ⟨_, nonemptyText_eq_ok_iff.mpr ⟨hid, rfl⟩, ?_⟩
    refine bind_eq_ok_iff.mpr ⟨_, readWireEnd_eq_ok_iff.mpr ⟨src, hsrc, hsource, rfl⟩, ?_⟩
    refine bind_eq_ok_iff.mpr ⟨_, readWireEnd_eq_ok_iff.mpr ⟨tgt, htgt, htarget, rfl⟩, ?_⟩
    rw [wireOf, hsrc, htgt]
    rfl

theorem readWires_eq_ok_iff {index : Nat} {raws : List Value} {wires : List Wire} :
    readWires index raws = .ok wires ↔
      (∀ raw ∈ raws, WireForm raw) ∧ wires = raws.map wireOf := by
  induction raws generalizing index wires with
  | nil => simp [readWires, eq_comm]
  | cons raw rest ih =>
      rw [readWires, List.forall_mem_cons, List.map_cons]
      constructor
      · intro h
        obtain ⟨wire, hwire, h⟩ := bind_eq_ok_iff.mp h
        obtain ⟨others, hothers, h⟩ := bind_eq_ok_iff.mp h
        obtain ⟨hform, rfl⟩ := readWire_eq_ok_iff.mp hwire
        obtain ⟨hforms, rfl⟩ := ih.mp hothers
        cases h
        exact ⟨⟨hform, hforms⟩, rfl⟩
      · rintro ⟨⟨hform, hforms⟩, rfl⟩
        refine bind_eq_ok_iff.mpr ⟨_, readWire_eq_ok_iff.mpr ⟨hform, rfl⟩, ?_⟩
        exact bind_eq_ok_iff.mpr ⟨_, ih.mpr ⟨hforms, rfl⟩, rfl⟩

end Wires

end Description

namespace Diagram

open Description

/-- The diagram of a description that has the form of one. -/
def ofForm (description : Value) (name : String) : Diagram :=
  { placed .empty (allEntries description) with
    name := normalize name
    wires := (listed description "wires").map wireOf }

@[simp]
theorem modules_ofForm (description : Value) (name : String) :
    (ofForm description name).modules = (allEntries description).map Entry.module := by
  rw [ofForm, modules_placed, Roster.modules_empty, List.nil_append]

/-- A description is read exactly if it has the form of one. -/
theorem parse_eq_ok_iff {description : Value} {name : String} {diagram : Diagram} :
    parse description name = .ok diagram ↔
      Form description ∧ diagram = ofForm description name := by
  have hroster {listing : Value} (hlisting : description.field? "modules" = some listing)
      {roster : Roster} : placeModules .empty 0 (items listing) = .ok roster ↔
        Placeable .empty (allEntries description) ∧
          roster = placed .empty (allEntries description) := by
    have hall : (items listing).flatMap (entries none) = allEntries description := by
      rw [allEntries, listed, hlisting]
      rfl
    rw [placeModules_eq_ok_iff (by exact List.nodup_nil), hall]
  have hids : ((placed .empty (allEntries description)).modules.map Module.id).Nodup ↔
      ((allEntries description).map fun entry => idOf entry.raw).Nodup := by
    rw [modules_placed, Roster.modules_empty, List.nil_append, List.map_map]
    rfl
  constructor
  · intro h
    unfold parse at h
    split at h
    · cases h
    next root hroot =>
      simp only [get?_of_asObject? hroot] at h
      split at h
      · cases h
      next listing hlisting =>
        obtain ⟨roster, hplaced, h⟩ := bind_eq_ok_iff.mp h
        obtain ⟨wires, hread, h⟩ := bind_eq_ok_iff.mp h
        obtain ⟨hplaceable, rfl⟩ := (hroster hlisting).mp hplaced
        obtain ⟨hwires, rfl⟩ := readWires_eq_ok_iff.mp hread
        cases h
        exact ⟨⟨by rw [hlisting]; rfl, hplaceable.forms, hids.mp hplaceable.ids, hwires⟩, rfl⟩
  · rintro ⟨hform, rfl⟩
    obtain ⟨listing, hlisting⟩ := Option.isSome_iff_exists.mp hform.listsModules
    obtain ⟨root, hroot, hget⟩ := Option.bind_eq_some_iff.mp hlisting
    simp only [parse, hroot, hget, get?_of_asObject? hroot]
    refine bind_eq_ok_iff.mpr ⟨_, (hroster hlisting).mpr ⟨⟨hform.modules, ?_⟩, rfl⟩, ?_⟩
    · exact hids.mpr hform.ids
    · exact bind_eq_ok_iff.mpr ⟨_, readWires_eq_ok_iff.mpr ⟨hform.wires, rfl⟩, rfl⟩

/-- A module is a loop that embeds another one, which belongs to it. -/
structure Owns (loop module : Module) : Prop where
  type : loop.type = TypeName.loop
  body : loop.loopBody? = some module.id
  parent : module.parent = some loop.id

/-- Of two modules that stand side by side, the first owns the second if it is a loop at all, or if
the second is embedded. -/
structure Beside (first second : Module) : Prop where
  loop : first.type = TypeName.loop → Owns first second
  inner : second.isInner = true → Owns first second

/-- How the modules of a diagram stand. -/
structure LaidOut (modules : List Module) : Prop where
  beside : modules.IsChain Beside
  first : ∀ module ∈ modules.head?, module.isInner = false
  last : ∀ module ∈ modules.getLast?, module.type ≠ TypeName.loop

namespace Nested

variable {parent : Option ModuleId} {chain : List Module}

theorem parent_head (h : Nested parent chain) : ∀ module ∈ chain.head?, module.parent = parent := by
  cases h with
  | plain hparent => rintro _ ⟨⟩; exact hparent
  | loop hparent => rintro _ ⟨⟩; exact hparent

theorem type_last (h : Nested parent chain) :
    ∀ module ∈ chain.getLast?, module.type ≠ TypeName.loop := by
  induction h with
  | plain _ htype => rintro _ ⟨⟩; exact htype
  | loop _ _ _ _ ih =>
      rw [List.getLast?_cons_cons]
      exact ih

theorem beside (h : Nested parent chain) : chain.IsChain Beside := by
  induction h with
  | plain => exact List.isChain_singleton _
  | @loop _ module inner rest hparent htype hbody hrest ih =>
      have howns : Owns module inner := ⟨htype, hbody, hrest.parent_head inner rfl⟩
      exact List.isChain_cons_cons.mpr ⟨⟨fun _ => howns, fun _ => howns⟩, ih⟩

end Nested

namespace LaidOut

variable {modules chain : List Module} {place : Nat} {module loop : Module}

theorem nil : LaidOut [] where
  beside := .nil
  first := nofun
  last := nofun

theorem append (h : LaidOut modules) (hchain : Nested none chain) :
    LaidOut (modules ++ chain) where
  beside := by
    refine List.isChain_append.mpr ⟨h.beside, hchain.beside, ?_⟩
    intro last hlast first hfirst
    refine ⟨fun hloop => absurd hloop (h.last last hlast), fun hinner => ?_⟩
    rw [Module.isInner, hchain.parent_head first hfirst] at hinner
    cases hinner
  first := by
    intro module hmodule
    rw [List.head?_append, Option.mem_def, Option.or_eq_some_iff] at hmodule
    rcases hmodule with hmodule | ⟨-, hmodule⟩
    · exact h.first module hmodule
    · rw [Module.isInner, hchain.parent_head module hmodule]
      rfl
  last := by
    intro module hmodule
    rw [List.getLast?_append, Option.mem_def, Option.or_eq_some_iff] at hmodule
    rcases hmodule with hmodule | ⟨-, hmodule⟩
    · exact hchain.type_last module hmodule
    · exact h.last module hmodule

end LaidOut

section Standing

variable {diagram : Diagram} {place : Nat} {loop module : Module}

end Standing

end Diagram

end Pipework
