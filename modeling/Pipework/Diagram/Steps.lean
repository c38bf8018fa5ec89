import Pipework.Plan

/-!
# Wiring

Turns modules in a given order into the steps of a plan. A module's default input is the first wire
into it; every further wire from an output into one of its other terminals is a named input, and no
two of them may have one name. Embedded modules get their only input from their loop.
-/

namespace Pipework.Diagram

variable (diagram : Diagram)

/-- The number of branches of a split without outgoing wires. -/
def usualBranches : Nat := 2

/-- The source of a wire, which must be a module of the diagram. -/
def wireSource (wire : Wire) : Except PipeError ModuleId :=
  if diagram.contains wire.source.module then .ok wire.source.module
  else .error (.looseWire wire.id wire.source.module)

/-- Where a module's default input comes from. -/
def feedOf (module : Module) : Except PipeError Feed :=
  if module.isInner then .ok .record
  else
    match diagram.wires.find? fun wire => wire.feeds module.id with
    | some wire => (diagram.wireSource wire).map .module
    | none => .ok .sentinel

/-- The wires into a module's named inputs. -/
def namedWires (module : Module) : List Wire :=
  diagram.wires.filter fun wire => wire.feedsByName module.id

/-- Adds wires to the named inputs found so far. -/
def addNamedFeeds (module : Module) (found : List (String × ModuleId)) :
    List Wire → Except PipeError (List (String × ModuleId))
  | [] => .ok found
  | wire :: rest =>
      match diagram.wireSource wire with
      | .error error => .error error
      | .ok source =>
          let name := normalize wire.target.terminal.name
          if found.any fun input => input.1 == name then
            .error (.malformed ("/wires/" ++ wire.id.name) (.wiredTwice name module.id))
          else addNamedFeeds module (found ++ [(name, source)]) rest

/-- A module's named inputs, in the order of their wires. An embedded module has none. -/
def namedFeeds (module : Module) : Except PipeError (List (String × ModuleId)) :=
  if module.isInner then .ok []
  else diagram.addNamedFeeds module [] (diagram.namedWires module)

/-- The module that a loop runs for each record. -/
def embed (module : Module) : Except PipeError (Option ModuleId) :=
  if module.type = TypeName.loop then
    match module.loopBody?.filter diagram.contains with
    | some id => .ok (some id)
    | none =>
        .error (.malformed ("/modules/" ++ module.id.name ++ "/conf/embed/value/id")
          .noEmbedReference)
  else .ok none

/-- The number of branches of a split: one for each wire out of it, if there is any. -/
def branches (module : Module) : Option Nat :=
  if module.type = TypeName.split then
    let outgoing := diagram.wires.countP fun wire => wire.source.module == module.id
    some (if outgoing = 0 then usualBranches else outgoing)
  else none

/-- How often a module's stage is taken: by every wire out of an output, by the output of the pipe
if it is the last module, and by its loop if it is embedded. -/
def consumers (module : Module) (isLast : Bool) : Nat :=
  (diagram.wires.countP fun wire =>
      wire.source.module == module.id && wire.source.terminal.isOutput)
    + isLast.toNat + module.isInner.toNat

/-- The step of a module. -/
def stepOf (module : Module) (isLast : Bool) : Except PipeError Plan.Step := do
  let input ← diagram.feedOf module
  let inputs ← diagram.namedFeeds module
  let embed ← diagram.embed module
  return {
    id := module.id
    type := module.type
    embedded := module.isInner
    input, inputs, embed
    branches := diagram.branches module
    conf := module.conf
    consumers := diagram.consumers module isLast }

/-- The steps of the modules with the given ids. The last id is that of the output. -/
def stepsOf (last : Option ModuleId) : List ModuleId → Except PipeError (List Plan.Step)
  | [] => .ok []
  | id :: rest =>
      match diagram.module? id with
      | none => .error (.malformed ("/modules/" ++ id.name) .unknownModule)
      | some module => do
          let step ← diagram.stepOf module (last == some id)
          return step :: (← stepsOf last rest)

/-- The steps of modules in a given order. -/
def planSteps (order : List ModuleId) : Except PipeError (List Plan.Step) :=
  diagram.stepsOf order.getLast? order

end Pipework.Diagram
