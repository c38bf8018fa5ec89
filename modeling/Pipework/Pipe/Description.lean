import Pipework.RunContext
import Pipework.Pipe.Basic

/-!
# Descriptions of pipes

What a pipe depends on and which inputs it asks for, read off its diagram without running it.
-/

namespace Pipework

/-- An input that a module asks for. -/
structure PipeInput where
  position : Int
  name : String
  prompt : String
  /-- The type that the descriptor of the default declares. -/
  kind : Option String
  default : Value
deriving Inhabited

namespace PipeInput

/-- A position given as an integer or as the text of one; anything else is position zero. -/
def positionOf (value : Value) : Int :=
  match value with
  | .text text => (Decimal.readInt64? (Text.trimChars text.toList)).getD 0
  | other => other.asInt64?.getD 0

/-- The input that a module with this configuration asks for. There is none unless a position, a
name and a prompt are configured. -/
def ofConf? (conf : Conf) : Option PipeInput := do
  let position ← conf.given? "position"
  let name ← conf.given? "name"
  let prompt ← conf.given? "prompt"
  return {
    position := positionOf position
    name := name.plainText
    prompt := prompt.plainText
    kind := ((conf.descriptor? "default").bind fun value => value.field? "type").bind Value.asText?
    default := (conf.given? "default").getD .null }

/-- Whether one input comes no later than another: by position, then by name, then by prompt. -/
def precedes (first second : PipeInput) : Bool :=
  first.position < second.position
    || (first.position == second.position
      && (first.name < second.name
        || (first.name == second.name && !(second.prompt < first.prompt))))

/-- The input as an object with its members in the order of their declaration. -/
def toValue (input : PipeInput) : Value :=
  .object ⟨[
    ("position", .int input.position),
    ("name", .text input.name),
    ("prompt", .text input.prompt),
    ("kind", .ofText? input.kind),
    ("default", input.default)]⟩

end PipeInput

namespace Pipe

/-- Puts a name into an increasing list without repetition. -/
def insertName (name : String) : List String → List String
  | [] => [name]
  | head :: rest =>
      if name = head then head :: rest
      else if name < head then name :: head :: rest
      else head :: insertName name rest

/-- The listed names of the types of all modules, in increasing order and each once. -/
def dependencyNames (pipe : Pipe) : List String :=
  pipe.diagram.modules.foldl
    (fun names module => insertName (TypeName.callName module.type) names) []

/-- The inputs that the modules ask for, embedded modules apart, in the order of their
positions. -/
def inputs (pipe : Pipe) : List PipeInput :=
  ((pipe.diagram.modules.filter fun module => !module.isInner).filterMap fun module =>
    PipeInput.ofConf? module.conf).mergeSort PipeInput.precedes

end Pipe

/-- What a run gives that only describes the pipe. -/
structure PipeDescription where
  dependencies : Option (List String)
  inputs : Option (List PipeInput)
deriving Inhabited

namespace PipeDescription

/-- The description that a context asks for, if it asks for any. -/
def ofRun? (context : RunContext) (pipe : Pipe) : Option PipeDescription :=
  if context.onlyDescribes then
    some {
      dependencies := if context.describeDependencies then some pipe.dependencyNames else none
      inputs := if context.describeInput then some pipe.inputs else none }
  else none

/-- The description as an object; a part that is not asked for is left out. -/
def toValue (description : PipeDescription) : Value :=
  let dependencies := description.dependencies.map fun names =>
    ("dependencies", Value.list (names.map Value.text))
  let inputs := description.inputs.map fun inputs =>
    ("inputs", Value.list (inputs.map PipeInput.toValue))
  .object ⟨dependencies.toList ++ inputs.toList⟩

end PipeDescription

end Pipework
