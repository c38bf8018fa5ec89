import Pipework.Conf
import Pipework.Builtin
import Pipework.Terminal

/-!
# Diagrams

A description lists modules and the wires between their terminals. A loop module carries another
module in its configuration; it becomes a module of the diagram as well, right behind the loop that
owns it, and may itself be a loop. An index leads from each id to the place of its module.
`Diagram.parse` reads a description or says at which place of it something is wrong.
-/

namespace Pipework

/-- A module of a diagram. -/
structure Module where
  id : ModuleId
  /-- The id as the description has it. -/
  rawId : String
  type : String
  conf : Conf
  /-- The loop that owns an embedded module. -/
  parent : Option ModuleId
deriving Inhabited

namespace Module

/-- Whether the module belongs to a loop. -/
def isInner (module : Module) : Bool :=
  module.parent.isSome

/-- The id of the module that a loop owns. -/
def loopBody? (module : Module) : Option ModuleId :=
  if module.type = TypeName.loop then
    ((((module.conf.descriptor? "embed").bind fun embed => embed.field? "value").bind
      fun value => value.field? "id").bind Value.asText?).map ModuleId.ofRaw
  else none

end Module

/-- Modules in the order in which they were read, with an index of their places. -/
structure Roster where
  modules : List Module
  /-- The places of the modules, by the names of their ids. -/
  index : Dict Nat
  /-- What is found in the index is the place of a module with that id. -/
  leads : ∀ (id : ModuleId) (place : Nat), index.get? id.name = some place →
    ∃ module, modules[place]? = some module ∧ module.id = id
  /-- Every id can be found in the index. -/
  finds : ∀ module ∈ modules, (index.get? module.id.name).isSome = true

namespace Roster

/-- No modules yet. -/
def empty : Roster where
  modules := []
  index := .empty
  leads := nofun
  finds := nofun

instance : Inhabited Roster := ⟨empty⟩

variable (roster : Roster)

theorem leads_push (module : Module) (id : ModuleId) (place : Nat)
    (h : (roster.index.insert module.id.name roster.modules.length).get? id.name = some place) :
    ∃ held, (roster.modules ++ [module])[place]? = some held ∧ held.id = id := by
  rw [Dict.get?_insert] at h
  split at h
  next hname =>
    cases h
    have hid : module.id = id := congrArg ModuleId.mk hname.symm
    exact ⟨module, by simp, hid⟩
  next =>
    obtain ⟨held, hheld, hid⟩ := roster.leads id place h
    obtain ⟨hlt, -⟩ := List.getElem?_eq_some_iff.mp hheld
    exact ⟨held, (List.getElem?_append_left hlt).trans hheld, hid⟩

theorem finds_push (module : Module) : ∀ held ∈ roster.modules ++ [module],
    ((roster.index.insert module.id.name roster.modules.length).get? held.id.name).isSome =
      true := by
  intro held hmem
  rw [Dict.get?_insert]
  split
  · rfl
  next hname =>
    rcases List.mem_append.mp hmem with hmem | hmem
    · exact roster.finds held hmem
    · exact absurd (List.mem_singleton.mp hmem ▸ rfl) hname

/-- One module more. Its place is noted before it is put there. -/
def push (module : Module) : Roster where
  modules := roster.modules ++ [module]
  index := roster.index.insert module.id.name roster.modules.length
  leads := roster.leads_push module
  finds := roster.finds_push module

/-- Several modules more, one after the other. -/
def pushAll (modules : List Module) : Roster :=
  modules.foldl push roster

/-- The place of the module with an id. -/
def position? (id : ModuleId) : Option Nat :=
  roster.index.get? id.name

/-- The module with an id. -/
def module? (id : ModuleId) : Option Module :=
  (roster.position? id).bind fun place => roster.modules[place]?

/-- Whether there is a module with an id. -/
def contains (id : ModuleId) : Bool :=
  roster.index.contains id.name

end Roster

/-- One end of a wire. -/
structure WireEnd where
  module : ModuleId
  terminal : Terminal
deriving DecidableEq, Inhabited

/-- A connection from one terminal to another. -/
structure Wire where
  id : WireId
  source : WireEnd
  target : WireEnd
deriving DecidableEq, Inhabited

namespace Wire

/-- Whether the wire brings an output to a module's default input. -/
def feeds (wire : Wire) (id : ModuleId) : Bool :=
  wire.target.module == id && wire.target.terminal.isMain && wire.source.terminal.isOutput

/-- Whether the wire brings an output to one of a module's named inputs. -/
def feedsByName (wire : Wire) (id : ModuleId) : Bool :=
  wire.target.module == id && !wire.target.terminal.isMain && wire.source.terminal.isOutput

end Wire

/-- The modules and wires of a description. Embedded modules follow their loops. -/
structure Diagram extends Roster where
  name : String
  wires : List Wire
deriving Inhabited

namespace Description

/-- An error at a place of a description. -/
def refuse {α : Type} (path : String) (defect : Defect) : Except PipeError α :=
  .error (.malformed path defect)

/-- The items of a list; null has none, and any other value is the only item. -/
def items : Value → List Value
  | .list items => items
  | .null => []
  | single => [single]

/-- A text that must be there and must not be empty. -/
def nonemptyText (value : Option Value) (path : String) : Except PipeError String :=
  match value with
  | some (.text text) => if text.isEmpty then refuse path .emptyText else .ok text
  | some _ => refuse path .notText
  | none => refuse path .missingField

/-- The place of a loop's embedded module. -/
def embedPath (path : String) : String :=
  path ++ "/conf/embed/value"

/-- The embedded module in the description of a loop. -/
def embedded? (raw : Value) : Option Value :=
  ((raw.field? "conf").bind fun conf => conf.field? "embed").bind fun embed => embed.field? "value"

/-- An embedded module's description is part of its loop's. -/
theorem sizeOf_lt_of_embedded? {raw embed : Value} (h : embedded? raw = some embed) :
    sizeOf embed < sizeOf raw := by
  simp only [embedded?, Option.bind_eq_some_iff] at h
  obtain ⟨descriptor, ⟨conf, hconf, hdescriptor⟩, hembed⟩ := h
  have := Value.sizeOf_lt_of_field? hconf
  have := Value.sizeOf_lt_of_field? hdescriptor
  have := Value.sizeOf_lt_of_field? hembed
  omega

/-- Reads one module, without the one that it may embed. Its id must not be that of a module
before it. -/
def readModule (before : Roster) (raw : Value) (path : String) (parent : Option ModuleId) :
    Except PipeError Module :=
  match raw.asObject? with
  | none => refuse path .moduleNotObject
  | some fields => do
      let rawId ← nonemptyText (fields.get? "id") (path ++ "/id")
      let type ← nonemptyText (fields.get? "type") (path ++ "/type")
      let id := ModuleId.ofRaw rawId
      match before.module? id with
      | some existing => refuse (path ++ "/id") (.idCollision rawId existing.rawId)
      | none =>
          let conf := Conf.ofValue ((fields.get? "conf").getD .null)
          return { id, rawId, type, conf, parent }

/-- Adds a module and, behind a loop, the module that it embeds. -/
def placeModule (before : Roster) (raw : Value) (path : String) (parent : Option ModuleId) :
    Except PipeError Roster :=
  match readModule before raw path parent with
  | .error error => .error error
  | .ok module =>
      if module.type = TypeName.loop then
        match _owned : embedded? raw with
        | none => refuse (embedPath path) .loopWithoutEmbed
        | some embed => placeModule (before.push module) embed (embedPath path) (some module.id)
      else .ok (before.push module)
termination_by sizeOf raw
decreasing_by exact sizeOf_lt_of_embedded? _owned

/-- Adds the listed modules one after the other, the first of them at a given index. -/
def placeModules (before : Roster) (index : Nat) : List Value → Except PipeError Roster
  | [] => .ok before
  | raw :: rest =>
      match placeModule before raw ("/modules/" ++ index.repr) none with
      | .error error => .error error
      | .ok roster => placeModules roster (index + 1) rest

/-- Reads one end of a wire. -/
def readWireEnd (value : Option Value) (path : String) : Except PipeError WireEnd :=
  match value.bind Value.asObject? with
  | none => refuse path .missingWireEnd
  | some fields => do
      let module ← nonemptyText (fields.get? "moduleid") (path ++ "/moduleid")
      let terminal ← nonemptyText (fields.get? "id") (path ++ "/id")
      return ⟨.ofRaw module, ⟨terminal⟩⟩

/-- Reads one wire. -/
def readWire (raw : Value) (path : String) : Except PipeError Wire :=
  match raw.asObject? with
  | none => refuse path .wireNotObject
  | some fields => do
      let id ← nonemptyText (fields.get? "id") (path ++ "/id")
      let source ← readWireEnd (fields.get? "src") (path ++ "/src")
      let target ← readWireEnd (fields.get? "tgt") (path ++ "/tgt")
      return ⟨.ofRaw id, source, target⟩

/-- Reads the listed wires, the first of them at a given index. -/
def readWires (index : Nat) : List Value → Except PipeError (List Wire)
  | [] => .ok []
  | raw :: rest => do
      let wire ← readWire raw ("/wires/" ++ index.repr)
      return wire :: (← readWires (index + 1) rest)

end Description

namespace Diagram

/-- Reads a description. Modules must be listed, wires may be missing. -/
def parse (description : Value) (name : String) : Except PipeError Diagram :=
  match description.asObject? with
  | none => Description.refuse "/" .descriptionNotObject
  | some root =>
      match root.get? "modules" with
      | none => Description.refuse "/modules" .missingField
      | some listed => do
          let roster ← Description.placeModules .empty 0 (Description.items listed)
          let wires ← Description.readWires 0
            (((root.get? "wires").map Description.items).getD [])
          return { roster with name := normalize name, wires }

end Diagram

end Pipework
