import Pipework.RunContext
import Pipework.FileTree
import Pipework.Json.Members
import Pipework.Text.Quoted
import Pipework.Toml.Reader

/-!
# Configuration of the program

What holds for all runs unless the command line says otherwise, kept in a TOML file with a table for
runs, one for their execution and one for logging. Whatever the file leaves out has its default.
-/

namespace Pipework

/-- The configuration of the program. -/
structure Configuration where
  /-- User inputs never prompt. -/
  test : Bool := false
  /-- Every step is logged in call form. -/
  verbose : Bool := false
  /-- Values for user inputs, by the names of the inputs. -/
  inputs : Dict String := .empty
  /-- Stages may have to wait. -/
  asyncMode : Bool := false
  /-- The milliseconds that one record may take where stages may have to wait. -/
  recordTimeout : Option Nat := none
  /-- Which events are logged. -/
  logFilter : String := "info,pipegraph_rs=debug"
deriving Inhabited

namespace Configuration

/-- What a format allows in the place of a table or of a missing value. -/
structure Format where
  /-- A list in the place of a table must not be longer than the table. -/
  closedLists : Bool
  /-- Null stands for a missing value. -/
  hasNull : Bool

/-- Configurations in JSON. -/
def json : Format := { closedLists := true, hasNull := true }

/-- Configurations in TOML. -/
def toml : Format := { closedLists := false, hasNull := false }

/-- The greatest number of milliseconds. -/
def maxTimeout : Nat := 18446744073709551615

/-- The texts of an object. -/
def readInputs? (value : Value) : Option (Dict String) := do
  let fields ← value.asObject?
  let entries ← fields.entries.mapM fun entry => entry.2.asText?.map fun text => (entry.1, text)
  return ⟨entries⟩

/-- A number of milliseconds, if there is one. -/
def readTimeout? (format : Format) : Value → Option (Option Nat)
  | .null => if format.hasNull then some none else none
  | .int number =>
      if 0 ≤ number ∧ number.toNat ≤ maxTimeout then some (some number.toNat) else none
  | _ => none

/-- The members of a table; a missing one is empty. -/
def readTable? (format : Format) (tables : Dict Value) (name : String) (members : List String) :
    Option (Dict Value) :=
  ((tables.get? name).getD (.object .empty)).members? members format.closedLists

/-- The configuration that a value stands for. -/
def ofValue? (format : Format) (value : Value) : Option Configuration := do
  let tables ← value.members? ["context", "runtime", "logging"] format.closedLists
  let context ← readTable? format tables "context" ["test", "verbose", "inputs"]
  let runtime ← readTable? format tables "runtime" ["async_mode", "record_timeout_ms"]
  let logging ← readTable? format tables "logging" ["filter"]
  let missing : Configuration := {}
  return {
    test := ← Value.member? context "test" missing.test Value.asBool?
    verbose := ← Value.member? context "verbose" missing.verbose Value.asBool?
    inputs := ← Value.member? context "inputs" missing.inputs readInputs?
    asyncMode := ← Value.member? runtime "async_mode" missing.asyncMode Value.asBool?
    recordTimeout :=
      ← Value.member? runtime "record_timeout_ms" missing.recordTimeout (readTimeout? format)
    logFilter := ← Value.member? logging "filter" missing.logFilter Value.asText? }

/-- The configuration as an object. -/
def toValue (config : Configuration) : Value :=
  let timeout := (config.recordTimeout.map fun number => Value.int (Int.ofNat number)).getD .null
  .object (.ofList [
    ("context", .object (.ofList [
      ("test", .bool config.test),
      ("verbose", .bool config.verbose),
      ("inputs", .object (config.inputs.mapValues .text))])),
    ("runtime", .object (.ofList [
      ("async_mode", .bool config.asyncMode),
      ("record_timeout_ms", timeout)])),
    ("logging", .object (.ofList [("filter", .text config.logFilter)]))])

/-- The context of runs, as far as the configuration decides it. -/
def runContext (config : Configuration) : RunContext :=
  { test := config.test, verbose := config.verbose, inputs := config.inputs.mapValues .text }

/-- The configuration in the text of a file. -/
def ofText? (text : String) : Option Configuration :=
  (Toml.read? text).bind (ofValue? toml)

/-- Reads a configuration file. -/
def load (read : String → Except FileError String) (path : String) :
    Except AppError Configuration :=
  match read path with
  | .error error =>
      .error (.inContext ("Failed to read config file " ++ Text.quote path) (.file error))
  | .ok text =>
      match ofText? text with
      | some config => .ok config
      | none =>
          .error (.inContext ("Failed to parse config file " ++ Text.quote path)
            (.config "TOML parse error"))

/-- Reads a configuration file. A missing or unreadable one counts as empty. -/
def loadIfAny (read : String → Except FileError String) (path : String) : Configuration :=
  (load read path).toOption.getD {}

/-- A line with a key and the spelling of its value. -/
def line (key value : String) : String :=
  Toml.quoteKey key ++ " = " ++ value ++ "\n"

/-- The spelling of a flag. -/
def flagText (flag : Bool) : String :=
  if flag then "true" else "false"

/-- The line with the limit on the time of records, if there is one. -/
def timeoutLine (config : Configuration) : String :=
  match config.recordTimeout with
  | some milliseconds => line "record_timeout_ms" milliseconds.repr
  | none => ""

/-- The configuration as the text of a file. TOML has no integers beyond 64 bits with a sign. -/
def text (config : Configuration) : Except AppError String :=
  if config.recordTimeout.any fun milliseconds => Value.maxInt64 < Int.ofNat milliseconds then
    .error (.serialization "out-of-range value for u64 type")
  else
    .ok ("[context]\n" ++ line "test" (flagText config.test)
      ++ line "verbose" (flagText config.verbose)
      ++ "\n[context.inputs]\n"
      ++ String.join (config.inputs.entries.map fun input => line input.1 (Toml.quote input.2))
      ++ "\n[runtime]\n" ++ line "async_mode" (flagText config.asyncMode) ++ config.timeoutLine
      ++ "\n[logging]\n" ++ line "filter" (Toml.quote config.logFilter))

/-- Writes a configuration file, and the directories above it that are missing. The files are those
after the attempt. -/
def save (config : Configuration) (files : FileTree) (path : String) :
    FileTree × Except AppError Unit :=
  match files.makeParents path with
  | (files, .error error) =>
      (files, .error (.config ("Failed to create config directory: " ++ error.message)))
  | (files, .ok ()) =>
      match config.text with
      | .error error => (files, .error error)
      | .ok text =>
          match files.write path text with
          | .ok files => (files, .ok ())
          | .error error =>
              (files, .error (.config ("Failed to write config file " ++ Text.quote path
                ++ ": " ++ error.message)))

end Configuration

end Pipework
