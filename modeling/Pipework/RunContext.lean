import Pipework.Json.Members

/-!
# Run contexts

What holds for a whole run: whether it may prompt, what it logs, whether it only describes the pipe
and which values its user inputs are supplied with.
-/

namespace Pipework

/-- The parameters of a run. -/
structure RunContext where
  /-- User inputs never prompt and have their defaults. -/
  test : Bool := false
  /-- Every step is logged in call form. -/
  verbose : Bool := false
  /-- The run describes the inputs of the pipe. -/
  describeInput : Bool := false
  /-- The run describes the types that the pipe depends on. -/
  describeDependencies : Bool := false
  /-- The run belongs to a module of another pipe. -/
  submodule : Bool := false
  /-- Values for user inputs, by the names of the inputs. -/
  inputs : Dict Value := .empty
deriving Inhabited

namespace RunContext

/-- The context of a run that does not prompt. -/
def testing : RunContext := { test := true }

/-- Supplies an input. -/
def supplying (context : RunContext) (name : String) (value : Value) : RunContext :=
  { context with inputs := context.inputs.insert name value }

/-- Whether the run only describes the pipe. -/
def onlyDescribes (context : RunContext) : Bool :=
  context.describeInput || context.describeDependencies

/-- The context of a pipe that runs as a module. It keeps the two flags for testing and logging and
nothing else of the run that it belongs to. -/
def asSubpipe (context : RunContext) (inputs : Dict Value) : RunContext :=
  { test := context.test, verbose := context.verbose, submodule := true, inputs }

/-- Whether user inputs take the supplied values, or else their defaults, without a prompt. -/
def takesSupplied (context : RunContext) : Bool :=
  context.submodule || !context.inputs.isEmpty

/-- The names of the parameters, in the order of their declaration. -/
def memberNames : List String :=
  ["test", "verbose", "describe_input", "describe_dependencies", "submodule", "inputs"]

/-- The context that a value stands for; missing parameters have their defaults. -/
def ofValue? (value : Value) : Option RunContext := do
  let members ← value.members? memberNames true
  let flag (name : String) := Value.member? members name false Value.asBool?
  return {
    test := ← flag "test"
    verbose := ← flag "verbose"
    describeInput := ← flag "describe_input"
    describeDependencies := ← flag "describe_dependencies"
    submodule := ← flag "submodule"
    inputs := ← Value.member? members "inputs" .empty Value.asObject? }

/-- The context as an object. -/
def toValue (context : RunContext) : Value :=
  .object (.ofList [
    ("test", .bool context.test),
    ("verbose", .bool context.verbose),
    ("describe_input", .bool context.describeInput),
    ("describe_dependencies", .bool context.describeDependencies),
    ("submodule", .bool context.submodule),
    ("inputs", .object context.inputs)])

end RunContext

end Pipework
