import Pipework.Event
import Pipework.Stage.Basic

/-!
# Assembling pipes

The steps of a plan are built one after the other, each once, with the stages that they need taken
from the steps before. An embedded module is not built but bound, and its loop builds it for every
record. Whoever asks for the output takes the stage of the last step; branches that nobody took by
then are closed.

Assembling is the same for all kinds of factories: it says when a module is built and from what.
-/

namespace Pipework

/-- Where the stage of a built module is until it is taken. -/
inductive Slot where
  /-- It has one consumer and is there until it is taken. -/
  | owned (stage : Option Stage)
  /-- It is the shared stage at a place of the junctions. -/
  | tap (junction : Nat)
  /-- It is the split at a place of the junctions. -/
  | fork (junction : Nat)

/-- The built and the bound modules of a pipe. -/
structure Assembly (φ : Type) where
  /-- The module whose stage is the output. -/
  output : ModuleId
  slots : List (ModuleId × Slot)
  embeds : List (ModuleId × Embed φ)
  junctions : List (Junction Stage)

namespace Assembly

variable {φ : Type}

/-- An assembly without modules. -/
def start (output : ModuleId) : Assembly φ :=
  { output, slots := [], embeds := [], junctions := [] }

/-- The number of built and bound modules. -/
def size (assembly : Assembly φ) : Nat :=
  assembly.slots.length + assembly.embeds.length

/-- Whether a module has been built or bound. -/
def contains (assembly : Assembly φ) (id : ModuleId) : Bool :=
  (assembly.slots.lookup id).isSome || (assembly.embeds.lookup id).isSome

/-- Puts something else into the slot of a module. -/
def setSlot (assembly : Assembly φ) (id : ModuleId) (slot : Slot) : Assembly φ :=
  { assembly with
    slots := assembly.slots.map fun entry => if entry.1 = id then (id, slot) else entry }

/-- Hands out the next branch of a split. -/
def takeBranch (assembly : Assembly φ) (id : ModuleId) (junction : Nat) :
    Except PipeError (Stage × Assembly φ) :=
  match assembly.junctions[junction]? with
  | some (.fork fork) => do
      let (index, fork) ← fork.attach
      return (.branch junction index,
        { assembly with junctions := assembly.junctions.set junction (.fork fork) })
  | _ => .error (.stageTaken id)

/-- Hands out the stage of a module to one consumer. -/
def take (assembly : Assembly φ) (id : ModuleId) : Except PipeError (Stage × Assembly φ) :=
  match assembly.slots.lookup id with
  | none => .error (.malformed ("/modules/" ++ id.name) .notAssembled)
  | some (.owned none) => .error (.stageTaken id)
  | some (.owned (some stage)) => .ok (stage, assembly.setSlot id (.owned none))
  | some (.tap junction) => .ok (.tap junction, assembly)
  | some (.fork junction) => assembly.takeBranch id junction

/-- The bound module with an id. -/
def embed (assembly : Assembly φ) (id : ModuleId) : Except PipeError (Embed φ) :=
  match assembly.embeds.lookup id with
  | some embed => .ok embed
  | none => .error (.malformed ("/modules/" ++ id.name) .embedNotBound)

/-- The bound module that a step embeds, if it embeds one. -/
def embedFor (assembly : Assembly φ) (step : Plan.Step) : Except PipeError (Option (Embed φ)) :=
  match step.embed with
  | none => .ok none
  | some id => (assembly.embed id).map some

/-- Takes the default input of a step. -/
def takeInput (assembly : Assembly φ) (step : Plan.Step) :
    Except PipeError (Stage × Assembly φ) :=
  match step.input with
  | .sentinel => .ok (.sentinel, assembly)
  | .module source => assembly.take source
  | .record => .error (.malformed ("/modules/" ++ step.id.name) .recordOutsideLoop)

/-- Takes named inputs. -/
def takeInputs (assembly : Assembly φ) :
    List (String × ModuleId) → Except PipeError (List (String × Stage) × Assembly φ)
  | [] => .ok ([], assembly)
  | (name, source) :: rest => do
      let (stage, assembly) ← assembly.take source
      let (stages, assembly) ← assembly.takeInputs rest
      return ((name, stage) :: stages, assembly)

/-- What a step is built from, and the assembly without the stages that it takes. -/
def arguments (assembly : Assembly φ) (context : RunContext) (step : Plan.Step) :
    Except PipeError (Arguments φ × Assembly φ) := do
  let (input, assembly) ← assembly.takeInput step
  let (inputs, assembly) ← assembly.takeInputs step.inputs
  let embed ← assembly.embedFor step
  return ({ id := step.id, context, input, conf := step.conf, inputs, embed,
            branches := step.branches }, assembly)

/-- Files a slot under the id of a step. -/
def addSlot (assembly : Assembly φ) (step : Plan.Step) (slot : Slot) : Assembly φ :=
  { assembly with slots := assembly.slots ++ [(step.id, slot)] }

/-- Adds a junction behind the others. -/
def addJunction (assembly : Assembly φ) (junction : Junction Stage) : Assembly φ :=
  { assembly with junctions := assembly.junctions ++ [junction] }

/-- Adds what building a step gave. A stage is attributed to its module and is shared if it has
more than one consumer; a split is neither. -/
def addBuilt (assembly : Assembly φ) (step : Plan.Step) : Built → Assembly φ
  | .single stage =>
      let stage := .tagged step.id 0 stage
      if 1 < step.consumers then
        (assembly.addJunction (.tap (.start stage))).addSlot step
          (.tap assembly.junctions.length)
      else assembly.addSlot step (.owned (some stage))
  | .fork branches upstream =>
      (assembly.addJunction (.fork (.start step.id upstream branches))).addSlot step
        (.fork assembly.junctions.length)

/-- Binds an embedded module. -/
def bind (assembly : Assembly φ) (context : RunContext) (step : Plan.Step) (factory : φ) :
    Except PipeError (Assembly φ) := do
  let nested ← assembly.embedFor step
  let embed : Embed φ := { id := step.id, factory, context, conf := step.conf, nested }
  return { assembly with embeds := assembly.embeds ++ [(step.id, embed)] }

/-- The warning about a split with branches that nobody took. -/
def unused? (assembly : Assembly φ) (entry : ModuleId × Slot) : Option Event :=
  match entry.2 with
  | .fork junction =>
      match assembly.junctions[junction]? with
      | some (.fork fork) =>
          if fork.unused = 0 then none else some (.branchesUnused entry.1 fork.unused)
      | _ => none
  | _ => none

/-- Closes the branches of a junction that nobody took. -/
def closeJunction : Junction Stage → Junction Stage
  | .fork fork => .fork fork.close
  | .tap tap => .tap tap

/-- Takes the stage of the output. The warnings are about branches that nobody took. -/
def takeOutput (assembly : Assembly φ) : Except PipeError (Stage × List Event) := do
  let (stage, assembly) ← assembly.take assembly.output
  return (.closed (assembly.junctions.map closeJunction) stage,
    assembly.slots.filterMap assembly.unused?)

end Assembly

/-- What assembling depends on apart from the plan. -/
structure Workshop (m : Type → Type) (φ : Type) where
  registry : Registry φ
  /-- Builds one module. -/
  build : φ → Arguments φ → m (Except PipeError Built)
  report : Event → m Unit
  mode : Mode
  context : RunContext

namespace Workshop

variable {m : Type → Type} [Monad m] {φ : Type}

/-- Builds a step that is not embedded. -/
def buildStep (workshop : Workshop m φ) (assembly : Assembly φ) (step : Plan.Step)
    (factory : φ) : ExceptT PipeError m (Assembly φ) := do
  let (args, assembly) ← ExceptT.mk (pure (assembly.arguments workshop.context step))
  if workshop.context.verbose then
    ExceptT.lift (workshop.report (.building step.callForm))
  match ← ExceptT.lift (workshop.build factory args) with
  | .error error => throw (error.whileBuilding step.id)
  | .ok built => return assembly.addBuilt step built

/-- Adds one step to an assembly. -/
def addStep (workshop : Workshop m φ) (assembly : Assembly φ) (step : Plan.Step) :
    ExceptT PipeError m (Assembly φ) := do
  let factory ← ExceptT.mk (pure (workshop.registry.get step.type))
  if step.embedded then
    ExceptT.mk (pure (assembly.bind workshop.context step factory))
  else workshop.buildStep assembly step factory

/-- Adds steps in their order. The first error ends it. -/
def addSteps (workshop : Workshop m φ) (assembly : Assembly φ) :
    List Plan.Step → ExceptT PipeError m (Assembly φ)
  | [] => pure assembly
  | step :: rest => do
      let assembly ← workshop.addStep assembly step
      workshop.addSteps assembly rest

/-- Assembles a pipe. -/
def assemble (workshop : Workshop m φ) (pipe : Pipe) :
    ExceptT PipeError m (Assembly φ) := do
  match pipe.plan.last? with
  | none => throw .emptyPipe
  | some last =>
      let assembly ← workshop.addSteps (.start last.id) pipe.plan.steps
      ExceptT.lift
        (workshop.report (.assembled workshop.mode assembly.size pipe.diagram.name))
      return assembly

/-- Assembles a pipe and takes its output. -/
def output (workshop : Workshop m φ) (pipe : Pipe) : ExceptT PipeError m Stage := do
  let assembly ← workshop.assemble pipe
  let (stage, warnings) ← ExceptT.mk (pure assembly.takeOutput)
  warnings.forM fun warning => ExceptT.lift (workshop.report warning)
  return stage

end Workshop

end Pipework
