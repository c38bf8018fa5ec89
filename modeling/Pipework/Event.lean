import Pipework.Answer

/-!
# Events

What a program may report while it compiles, assembles and runs pipes. Warnings concern parts of a
description that have no effect.
-/

namespace Pipework

/-- Something worth reporting. -/
inductive Event where
  /-- A module is not connected to anything. -/
  | pruned (type : String) (module : ModuleId)
  /-- Wires lead to an embedded module, which cannot have inputs of its own. -/
  | wiresIgnored (count : Nat) (module : ModuleId)
  /-- Nobody takes some branches of a split. -/
  | branchesUnused (module : ModuleId) (unused : Nat)
  | running (mode : Mode) (pipe : String)
  | assembled (mode : Mode) (modules : Nat) (pipe : String)
  /-- A step is about to be built. -/
  | building (callForm : String)
deriving DecidableEq, Inhabited

namespace Event

/-- Whether the event is a warning. -/
def isWarning : Event → Bool
  | pruned .. | wiresIgnored .. | branchesUnused .. => true
  | _ => false

/-- The wording of an event. -/
def message : Event → String
  | pruned type _ => "Pruning orphan module " ++ type
  | wiresIgnored count _ =>
      "Ignoring " ++ count.repr ++ " auxiliary wire(s) into embedded module"
  | branchesUnused _ _ => "Split has unconsumed branches"
  | running .sync _ => "Running pipe"
  | running .async _ => "Running pipe asynchronously"
  | assembled .sync _ _ => "Assembled pipeline"
  | assembled .async _ _ => "Assembled async pipeline"
  | building callForm => callForm

/-- The named particulars of an event. -/
def fields : Event → List (String × String)
  | pruned _ id => [("module", id.name)]
  | wiresIgnored _ id => [("module", id.name)]
  | branchesUnused id unused => [("module", id.name), ("unused", unused.repr)]
  | running _ pipe => [("pipe", pipe)]
  | assembled _ modules pipe => [("modules", modules.repr), ("pipe", pipe)]
  | building _ => []

end Event

end Pipework
