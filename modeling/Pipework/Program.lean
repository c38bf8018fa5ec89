import Pipework.CommandLine
import Pipework.Configuration
import Pipework.Json.Reader
import Pipework.Pipe.Warnings
import Pipework.PipeRun

/-!
# The program

What the program does with its arguments: it reads its configuration and the description of a pipe,
compiles it, and prints its plan, its description or the records that it gives, one a line. The
first error ends it.
-/

namespace Pipework

/-- What the program has decided to do. -/
inductive Program where
  /-- It prints a text and is done. -/
  | print (text : String)
  /-- It prints the records of a run, perhaps not all of them. -/
  | records (run : PipeRun) (limit : Option Nat)

namespace Program

/-- What is left of the program when it is done. -/
structure Output where
  exitCode : Nat
  stdout : String
  /-- What the user has been asked and, at the end, the error. -/
  stderr : String
deriving DecidableEq, Inhabited

/-- The lines of a text. -/
def lines (texts : List String) : String :=
  String.join (texts.map fun text => text ++ "\n")

/-- The configuration file in the directory for configurations. -/
def usualFile : String := "dev.pipegraph/config.toml"

/-- The configuration that applies: in the file that the user names, or in the usual one. -/
def configOf (read : String → Except FileError String) (usual? : Option String)
    (line : CommandLine) : Except String Configuration :=
  match line.config, usual? with
  | some path, _ => (Configuration.load read path).mapError AppError.message
  | none, some path => .ok (Configuration.loadIfAny read path)
  | none, none => .ok {}

/-- Reads the description of the pipe. -/
def descriptionOf (read : String → Except FileError String) (path : String) :
    Except String Value :=
  match read path with
  | .error _ => .error ("Failed to read pipe " ++ Text.quote path)
  | .ok text =>
      match Value.read? text with
      | some description => .ok description
      | none => .error ("Failed to parse pipe " ++ Text.quote path)

/-- The context of the run: what the user asks for, and the configuration where it goes further. -/
def contextOf (line : CommandLine) (config : Configuration) : RunContext :=
  let context := config.runContext
  line.inputs.foldl (fun context input => context.supplying input.1 (.text input.2))
    { context with
      test := context.test || line.test
      verbose := context.verbose || line.verbose
      describeInput := line.describeInput
      describeDependencies := line.describeDependencies }

/-- Starts a run, or describes the pipe. -/
def startRun (setting : Setting) (line : CommandLine) (config : Configuration)
    (pipe : Pipe) : Run (Except String Program) := do
  let mode := if line.asyncMode || config.asyncMode then Mode.async else .sync
  match ← PipeRun.ofContext setting mode config.recordTimeout (contextOf line config) pipe with
  | .error error => return .error error.message
  | .ok (.description description) => return .ok (.print (lines [description.toValue.indented 0]))
  | .ok (.running run) => return .ok (.records run line.limit)

/-- Decides what to do. An error is given by its text. -/
def start (setting : Setting) (usual? : Option String) (line : CommandLine) :
    Run (Except String Program) := do
  let prepared : Except String (Configuration × Pipe) := do
    let config ← configOf setting.read usual? line
    let description ← descriptionOf setting.read line.pipe
    let pipe ← (Pipe.compile description line.nameOfPipe).mapError PipeError.message
    return (config, pipe)
  match prepared with
  | .error text => return .error text
  | .ok (config, pipe) => do
      pipe.warnings.forM Run.report
      if line.plan then return .ok (.print (lines (pipe.plan.steps.map Plan.Step.callForm)))
      else startRun setting line config pipe

/-- The records of a run up to a limit, and the error that ended it. -/
def drain (setting : Setting) (budget : Nat) : Nat → PipeRun → Run (List Record × Option PipeError)
  | 0, _ => return ([], none)
  | count + 1, run => do
      match ← run.next setting budget with
      | (none, _) => return ([], none)
      | (some (.error error), _) => return ([], some error)
      | (some (.ok record), run) =>
          let (rest, error?) ← drain setting budget count run
          return (record :: rest, error?)

/-- The line about a record. -/
def recordLine (record : Record) : String :=
  lines [(Value.object record).compact]

/-- The line about an event. -/
def eventLine (event : Event) : String :=
  let fields := event.fields.map fun field => " " ++ field.1 ++ "=" ++ field.2
  lines [(if event.isWarning then "WARN " else "INFO ") ++ event.message ++ String.join fields]

/-- The line about the error that ended the program. -/
def errorLine (text : String) : String :=
  lines ["Error: " ++ text]

/-- Runs the program to its end. -/
def run (setting : Setting) (budget : Nat) (usual? : Option String) (line : CommandLine) :
    Run Output := do
  let (stdout, error?) ← match ← start setting usual? line with
    | .error text => pure ("", some text)
    | .ok (.print text) => pure (text, none)
    | .ok (.records run limit) => do
        let (given, error?) ← drain setting budget (limit.getD budget) run
        pure (String.join (given.map recordLine), error?.map PipeError.message)
  let questions := String.join (← get).questions
  match error? with
  | none => return { exitCode := 0, stdout, stderr := questions }
  | some text => return { exitCode := 1, stdout, stderr := questions ++ errorLine text }

end Program

end Pipework
