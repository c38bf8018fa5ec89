import Pipework.Diagram.Order
import Pipework.Diagram.Steps

/-!
# Pipes

A description is compiled into a pipe: the modules and wires, the dependencies of those modules
that any wire or loop connects, their order, and a plan with the arguments of each. An unconnected
module stays in the diagram and out of the plan. Compiling depends on the description alone.
-/

namespace Pipework

/-- A compiled pipe. -/
structure Pipe where
  diagram : Diagram
  /-- The connected modules, each with the modules that need it. -/
  dependents : List (ModuleId × List ModuleId)
  /-- The connected modules, each after those that it needs. -/
  order : List ModuleId
  plan : Plan
deriving Inhabited

namespace Diagram

variable (diagram : Diagram)

/-- The edges from embedded modules to their loops, for modules from a position on. -/
def embedEdges (position : Nat) : List Module → Except PipeError (List (Nat × Nat))
  | [] => .ok []
  | module :: rest => do
      let edges ← embedEdges (position + 1) rest
      match module.parent with
      | none => return edges
      | some parent =>
          match diagram.position? parent with
          | some owner => return (position, owner) :: edges
          | none => .error (.malformed ("/modules/" ++ parent.name) .unknownParent)

/-- The position of one end of a wire. -/
def endPosition (wire : Wire) (wireEnd : WireEnd) : Except PipeError Nat :=
  match diagram.position? wireEnd.module with
  | some position => .ok position
  | none => .error (.looseWire wire.id wireEnd.module)

/-- The edges of wires, from source to target. -/
def wireEdges : List Wire → Except PipeError (List (Nat × Nat))
  | [] => .ok []
  | wire :: rest => do
      let source ← diagram.endPosition wire wire.source
      let target ← diagram.endPosition wire wire.target
      return (source, target) :: (← wireEdges rest)

/-- What needs what: a loop needs its embedded module, and the target of a wire its source. -/
def dependencies : Except PipeError Dependencies := do
  let owned ← diagram.embedEdges 0 diagram.modules
  let wired ← diagram.wireEdges diagram.wires
  return { size := diagram.modules.length, edges := owned ++ wired }

/-- The id of the module at a position. -/
def idAt (position : Nat) : ModuleId :=
  (diagram.modules[position]?.map Module.id).getD default

/-- The connected modules and the modules that need each of them. -/
def dependents (dependencies : Dependencies) : List (ModuleId × List ModuleId) :=
  dependencies.active.map fun position =>
    (diagram.idAt position, (dependencies.targets position).map diagram.idAt)

/-- The order of the connected modules. -/
def sortModules (dependencies : Dependencies) : Except PipeError (List ModuleId) :=
  match dependencies.sort? with
  | some (.sorted order) => .ok (order.map diagram.idAt)
  | some (.cyclic left) => .error (.cyclic (left.map diagram.idAt))
  | none => .error (.malformed "/wires" .uncountable)

/-- The plan of a diagram whose modules are executed as the steps say. -/
def planOf (steps : List Plan.Step) : Plan :=
  { steps
    counts := {
      total := diagram.modules.length
      active := steps.length
      pruned := diagram.modules.length - steps.length
      embedded := diagram.modules.countP Module.isInner } }

/-- Compiles what has been read of a description. -/
def compile : Except PipeError Pipe := do
  let dependencies ← diagram.dependencies
  let order ← diagram.sortModules dependencies
  let steps ← diagram.planSteps order
  return {
    diagram, order
    dependents := diagram.dependents dependencies
    plan := diagram.planOf steps }

end Diagram

namespace Pipe

/-- Compiles a description under a name. -/
def compile (description : Value) (name : String) : Except PipeError Pipe := do
  let diagram ← Diagram.parse description name
  diagram.compile

/-- Whether a module is connected to any other, or to itself. -/
def isWired (pipe : Pipe) (id : ModuleId) : Bool :=
  pipe.dependents.any fun entry => entry.1 == id

/-- The modules that belong to loops. -/
def embedded (pipe : Pipe) : List Module :=
  pipe.diagram.modules.filter Module.isInner

/-- The modules that no wire and no loop connects. -/
def pruned (pipe : Pipe) : List Module :=
  pipe.diagram.modules.filter fun module => !pipe.isWired module.id

end Pipe

end Pipework
