import Pipework.Proofs.Assembly.Ends
import Pipework.Proofs.Diagram.Grammar
import Pipework.Proofs.Naming.Collisions
import Pipework.Proofs.Order.Execution

/-! # Wires and their ids

No two modules of a diagram share an id, but wires may: a description is read whatever the ids of its
wires are. The id of a wire leads to as many wires as there are ids in the description that collide
with it. An error of compiling that names a wire names the id of one that is at fault.
-/

namespace Pipework

open Description

/-- Two names are read as one id exactly if they collide. -/
theorem WireId.ofRaw_eq_iff {first second : String} :
    WireId.ofRaw first = WireId.ofRaw second ↔ Ident.Collide first second := by
  rw [ofRaw, ofRaw, WireId.mk.injEq, Ident.normalize_eq_iff]

namespace Description

/-- The ids of the wires as a description has them. -/
def wireNames (description : Value) : List String :=
  (listed description "wires").map fun raw => textOf raw "id"

/-- The description with one more wire behind the others. -/
def addWire (description raw : Value) : Value :=
  .object ((description.asObject?.getD .empty).insert "wires"
    (.list (listed description "wires" ++ [raw])))

variable {description raw : Value}

theorem field?_addWire_of_ne {key : String} (h : key ≠ "wires") :
    (addWire description raw).field? key = description.field? key := by
  rw [addWire, Value.field?, Value.asObject?, Option.bind_some, Dict.get?_insert_of_ne _ _ h,
    Value.field?]
  cases description.asObject? <;> rfl

theorem listed_addWire : listed (addWire description raw) "wires" =
    listed description "wires" ++ [raw] := by
  have hfield : (addWire description raw).field? "wires" =
      some (.list (listed description "wires" ++ [raw])) := Dict.get?_insert_self ..
  rw [listed, hfield]
  rfl

theorem allEntries_addWire : allEntries (addWire description raw) = allEntries description := by
  rw [allEntries, allEntries, listed, field?_addWire_of_ne (by decide), listed]

/-- One more wire of the right form leaves a description in form. -/
theorem Form.addWire (h : Form description) (hwire : WireForm raw) :
    Form (addWire description raw) where
  listsModules := by
    rw [field?_addWire_of_ne (by decide)]
    exact h.listsModules
  modules := by
    rw [allEntries_addWire]
    exact h.modules
  ids := by
    rw [allEntries_addWire]
    exact h.ids
  wires := by
    rw [listed_addWire]
    intro other hother
    rcases List.mem_append.mp hother with hother | hother
    · exact h.wires other hother
    · rw [List.mem_singleton.mp hother]
      exact hwire

end Description

namespace Diagram

/-- The wires with an id. -/
def wiresOf (diagram : Diagram) (id : WireId) : List Wire :=
  diagram.wires.filter fun wire => wire.id == id

/-- An error that names a wire names one that is at fault: an end of it leads to no module, or it is
a second wire to an input. -/
def Blames (diagram : Diagram) : PipeError → Prop
  | .looseWire id missing => diagram.contains missing = false ∧
      ∃ wire ∈ diagram.wiresOf id, wire.source.module = missing ∨ wire.target.module = missing
  | .malformed path (.wiredTwice input module) => ∃ id, path = "/wires/" ++ id.name ∧
      ∃ wire ∈ diagram.wiresOf id, wire.feedsByName module = true ∧
        normalize wire.target.terminal.name = input
  | _ => True

/-- A computation that fails blames a wire that is at fault, if any. -/
def BlamesIn {α : Type} (diagram : Diagram) (outcome : Except PipeError α) : Prop :=
  Turns diagram.Blames (fun _ => True) outcome

section Blaming

variable {α β : Type} {diagram : Diagram} {wire : Wire} {module : Module}

theorem BlamesIn.bind {first : Except PipeError α} {next : α → Except PipeError β}
    (h : diagram.BlamesIn first) (hnext : ∀ value, diagram.BlamesIn (next value)) :
    diagram.BlamesIn (first >>= next) :=
  Turns.bind h fun value _ => hnext value

theorem BlamesIn.map {first : Except PipeError α} (h : diagram.BlamesIn first) (change : α → β) :
    diagram.BlamesIn (first.map change) := by
  cases first with
  | error error => exact h
  | ok value => trivial

theorem mem_wiresOf_id (h : wire ∈ diagram.wires) : wire ∈ diagram.wiresOf wire.id :=
  List.mem_filter.mpr ⟨h, beq_self_eq_true _⟩

theorem endPosition_blames (hwire : wire ∈ diagram.wires) {wireEnd : WireEnd}
    (hend : wireEnd = wire.source ∨ wireEnd = wire.target) :
    diagram.BlamesIn (diagram.endPosition wire wireEnd) := by
  unfold endPosition
  split
  next => trivial
  next hnone =>
    refine ⟨Roster.not_contains_of_position? hnone, wire, mem_wiresOf_id hwire, ?_⟩
    rcases hend with rfl | rfl
    · exact .inl rfl
    · exact .inr rfl

theorem wireEdges_blames {wires : List Wire} (h : ∀ wire ∈ wires, wire ∈ diagram.wires) :
    diagram.BlamesIn (diagram.wireEdges wires) := by
  induction wires with
  | nil => trivial
  | cons wire rest ih =>
      obtain ⟨hwire, hrest⟩ := List.forall_mem_cons.mp h
      refine (endPosition_blames hwire (.inl rfl)).bind fun source => ?_
      refine (endPosition_blames hwire (.inr rfl)).bind fun target => ?_
      exact (ih hrest).bind fun edges => trivial

theorem embedEdges_blames (start : Nat) (modules : List Module) :
    diagram.BlamesIn (diagram.embedEdges start modules) := by
  induction modules generalizing start with
  | nil => trivial
  | cons module rest ih =>
      refine (ih (start + 1)).bind fun edges => ?_
      split
      next => trivial
      next => split <;> trivial

theorem dependencies_blames : diagram.BlamesIn diagram.dependencies :=
  (embedEdges_blames 0 diagram.modules).bind fun _ =>
    (wireEdges_blames fun _ hwire => hwire).bind fun _ => trivial

theorem sortModules_blames (dependencies : Dependencies) :
    diagram.BlamesIn (diagram.sortModules dependencies) := by
  unfold sortModules
  split <;> trivial

theorem wireSource_blames (hwire : wire ∈ diagram.wires) :
    diagram.BlamesIn (diagram.wireSource wire) := by
  unfold wireSource
  split
  next => trivial
  next hnot => exact ⟨by simpa using hnot, wire, mem_wiresOf_id hwire, .inl rfl⟩

theorem feedOf_blames (module : Module) : diagram.BlamesIn (diagram.feedOf module) := by
  unfold feedOf
  split
  next => trivial
  next =>
    split
    next wire hwire => exact (wireSource_blames (List.mem_of_find?_eq_some hwire)).map _
    next => trivial

/-- A wire that comes second to a named input is blamed for it. -/
theorem addNamedFeeds_blames {wires : List Wire} (found : List (String × ModuleId))
    (h : ∀ wire ∈ wires, wire ∈ diagram.namedWires module) :
    diagram.BlamesIn (diagram.addNamedFeeds module found wires) := by
  induction wires generalizing found with
  | nil => trivial
  | cons wire rest ih =>
      obtain ⟨hwire, hrest⟩ := List.forall_mem_cons.mp h
      obtain ⟨hmem, hfeeds⟩ := List.mem_filter.mp hwire
      have hsource : diagram.BlamesIn (diagram.wireSource wire) := wireSource_blames hmem
      rw [addNamedFeeds]
      split
      next error herror =>
        rw [herror] at hsource
        exact hsource
      next =>
        dsimp only
        split
        next => exact ⟨wire.id, rfl, wire, mem_wiresOf_id hmem, hfeeds, rfl⟩
        next => exact ih _ hrest

theorem namedFeeds_blames (module : Module) : diagram.BlamesIn (diagram.namedFeeds module) := by
  unfold namedFeeds
  split
  next => trivial
  next => exact addNamedFeeds_blames [] fun _ hwire => hwire

theorem embed_blames (module : Module) : diagram.BlamesIn (diagram.embed module) := by
  unfold embed
  split
  next => split <;> trivial
  next => trivial

theorem stepsOf_blames (last : Option ModuleId) (ids : List ModuleId) :
    diagram.BlamesIn (diagram.stepsOf last ids) := by
  induction ids with
  | nil => trivial
  | cons id rest ih =>
      rw [stepsOf]
      split
      next => trivial
      next module _ =>
        refine BlamesIn.bind ?_ fun step => ih.bind fun steps => trivial
        refine (feedOf_blames module).bind fun input => ?_
        refine (namedFeeds_blames module).bind fun inputs => ?_
        exact (embed_blames module).bind fun embed => trivial

theorem compile_blames (diagram : Diagram) : diagram.BlamesIn diagram.compile :=
  dependencies_blames.bind fun dependencies =>
    (sortModules_blames dependencies).bind fun order =>
      (stepsOf_blames order.getLast? order).bind fun _ => trivial

end Blaming

/-- What the ids in a diagram tell about the description that it was read from. -/
structure Names (description : Value) (name : String) (diagram : Diagram) : Prop where
  modules : (diagram.modules.map Module.id).Nodup
  /-- An id leads to as many wires as there are ids in the description that collide with it. -/
  wires : ∀ raw, (diagram.wiresOf (.ofRaw raw)).length =
    (wireNames description).countP fun other => Ident.Collide raw other
  /-- So each wire has an id of its own exactly if no two ids in the description collide. -/
  distinct : (diagram.wires.map Wire.id).Nodup ↔
    (wireNames description).Pairwise fun first second => ¬ Ident.Collide first second
  /-- Nobody looks whether they do: one more wire is accepted whatever its id is. -/
  unchecked : ∀ raw, WireForm raw → ∃ larger, parse (addWire description raw) name = .ok larger ∧
    larger.modules = diagram.modules ∧ larger.wires = diagram.wires ++ [wireOf raw]
  blames : ∀ error, diagram.compile = .error error → diagram.Blames error

theorem wireIds_ofForm (description : Value) (name : String) :
    (ofForm description name).wires.map Wire.id = (wireNames description).map WireId.ofRaw := by
  rw [ofForm, wireNames, List.map_map, List.map_map]
  rfl

/-- In what has been read no two modules share an id, and two wires do exactly if their ids in the
description collide. -/
theorem parse_names {description : Value} {name : String} {diagram : Diagram}
    (h : parse description name = .ok diagram) : Names description name diagram := by
  obtain ⟨hform, rfl⟩ := parse_eq_ok_iff.mp h
  have hids := wireIds_ofForm description name
  refine
    { modules := ?_
      wires := fun raw => ?_
      distinct := ?_
      unchecked := fun raw hraw => ?_
      blames := fun error herror => ?_ }
  · rw [modules_ofForm, List.map_map]
    exact hform.ids
  · calc
      _ = ((ofForm description name).wires.map Wire.id).countP (· == .ofRaw raw) := by
        rw [wiresOf, ← List.countP_eq_length_filter, List.countP_map]
        rfl
      _ = (wireNames description).countP fun other => WireId.ofRaw other == .ofRaw raw := by
        rw [hids, List.countP_map]
        rfl
      _ = _ := List.countP_congr fun other _ => by
        rw [beq_iff_eq, decide_eq_true_iff, ← WireId.ofRaw_eq_iff, eq_comm]
  · rw [hids, List.Nodup, List.pairwise_map]
    simp only [ne_eq, WireId.ofRaw_eq_iff]
  · refine ⟨_, parse_eq_ok_iff.mpr ⟨hform.addWire hraw, rfl⟩, ?_, ?_⟩
    · rw [modules_ofForm, modules_ofForm, allEntries_addWire]
    · simp only [ofForm, listed_addWire, List.map_append, List.map_singleton]
  · have hblames := compile_blames (ofForm description name)
    rw [herror] at hblames
    exact hblames

/-- Two wires whose ids differ in a separator, the second one from nowhere. -/
def namesakeWires : Value :=
  .object ⟨[
    ("modules", .list [plainModule "first" "output", plainModule "last" "output"]),
    ("wires", .list [plainWire "to-last" "first" "last", plainWire "to_last" "nowhere" "last"])]⟩

/-- What there is to read in that description. -/
def namesakeDiagram : Diagram :=
  { Roster.empty.pushAll [
      ⟨⟨"first"⟩, "first", "output", .empty, none⟩, ⟨⟨"last"⟩, "last", "output", .empty, none⟩] with
    name := "pipe"
    wires := [
      ⟨⟨"to_last"⟩, ⟨⟨"first"⟩, ⟨"_OUTPUT"⟩⟩, ⟨⟨"last"⟩, ⟨"_INPUT"⟩⟩⟩,
      ⟨⟨"to_last"⟩, ⟨⟨"nowhere"⟩, ⟨"_OUTPUT"⟩⟩, ⟨⟨"last"⟩, ⟨"_INPUT"⟩⟩⟩] }

theorem parse_names_of_namesakes :
    parse namesakeWires "pipe" = .ok namesakeDiagram ∧ Names namesakeWires "pipe" namesakeDiagram := by
  have hparse : parse namesakeWires "pipe" = .ok namesakeDiagram := by cbv
  exact ⟨hparse, parse_names hparse⟩

/-- The two wires are read under one id, although the description has two, and the error that the
second one causes leads to both. -/
theorem namesakes_share_an_id : wireNames namesakeWires = ["to-last", "to_last"] ∧
    parse namesakeWires "pipe" = .ok namesakeDiagram ∧
    ¬ (namesakeDiagram.wires.map Wire.id).Nodup ∧
    namesakeDiagram.compile = .error (.looseWire ⟨"to_last"⟩ ⟨"nowhere"⟩) ∧
    (namesakeDiagram.wiresOf ⟨"to_last"⟩).length = 2 := by
  refine ⟨by cbv, by cbv, by decide, by cbv, by decide⟩

end Diagram

end Pipework
