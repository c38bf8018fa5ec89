import Pipework.Conf
import Pipework.RunContext
import Pipework.Builtin

/-!
# User inputs

A user input is a value from outside the pipe, decided when its module is built: what the run
supplies under the input's name, the answer to a prompt, or the input's default. The module gives
the value in every record, without end.
-/

namespace Pipework

/-- What a user input asks for. -/
structure UserInput where
  name : String
  prompt : String
  default : String
deriving DecidableEq, Inhabited

namespace UserInput

/-- The key of the value in the records of a user input. -/
def valueKey : String := "content"

/-- The default of an input. An empty one gives way to that for debugging. -/
def defaultOf (conf : Conf) : Except PipeError String := do
  let text ← conf.text (.text "default") none
  if text.isEmpty then conf.text (.text "debug") none else return text

/-- The input that a configuration describes. -/
def ofConf (conf : Conf) : Except PipeError UserInput := do
  let default ← defaultOf conf
  let name ← conf.text (.text "name") none
  let prompt ← conf.text (.text "prompt") none
  return { name, prompt, default }

/-- The value of an input in a run that does not prompt. -/
def preset? (input : UserInput) (context : RunContext) : Option Value :=
  if context.takesSupplied then
    some ((context.inputs.get? input.name).getD (.text input.default))
  else if context.test then some (.text input.default)
  else none

/-- What the user is asked. -/
def question (input : UserInput) : String :=
  input.prompt ++ " (default=" ++ input.default ++ ") "

/-- The value that a line of the user stands for; an empty answer is that of the default. -/
def answer (input : UserInput) (line : String) : Value :=
  let text := Text.trim line
  .text (if text.isEmpty then input.default else text)

/-- The kind of the values that a built-in module gives. -/
def kindOf : Builtin → FieldType
  | .numberInput => .number
  | _ => .text

/-- The record with the value, as its kind has it. -/
def record (input : UserInput) (kind : FieldType) (value : Value) : Except PipeError Record :=
  (kind.convert input.name value).map (Dict.single valueKey)

end UserInput

end Pipework
