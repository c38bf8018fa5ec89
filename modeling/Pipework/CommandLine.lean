import Pipework.Decimal.Reading
import Pipework.Text.Pieces

/-!
# Command lines

The arguments of the program: the file of a pipe, flags, and options with values. An option's value
is the next argument or stands behind an equals sign; a value that starts with a hyphen needs the
second form. Behind two hyphens there are no options any more.
-/

namespace Pipework

/-- What the user asks the program to do. -/
structure CommandLine where
  /-- The file with the description of the pipe. -/
  pipe : String
  name : Option String := none
  config : Option String := none
  asyncMode : Bool := false
  test : Bool := false
  verbose : Bool := false
  describeDependencies : Bool := false
  describeInput : Bool := false
  /-- The values for user inputs, in the order of the arguments. -/
  inputs : List (String × String) := []
  /-- After how many records to stop. -/
  limit : Option Nat := none
  plan : Bool := false
deriving DecidableEq, Inhabited

namespace CommandLine

/-- Why arguments are refused, or that only help is asked for. -/
inductive UsageError where
  | missingPipe
  | unknownArgument
  /-- A value is missing or empty. -/
  | missingValue
  | badValue
  | repeated
  | unexpectedValue
  | help
deriving DecidableEq, Inhabited

/-- The wording of a refusal. -/
def UsageError.message : UsageError → String
  | missingPipe => "the pipe description is missing"
  | unknownArgument => "unknown argument"
  | missingValue => "a value is missing"
  | badValue => "a value does not have the expected form"
  | repeated => "an argument is given twice"
  | unexpectedValue => "a flag has no value"
  | help => "help"

/-- What the arguments are for. -/
def usage : String :=
  String.join ([
    "Compile and run a graph-shaped pipe description",
    "",
    "Usage: pipegraph [OPTIONS] <PIPE>",
    "",
    "Arguments:",
    "  <PIPE>                   Pipe description (JSON with modules and wires)",
    "",
    "Options:",
    "  --name <NAME>            Pipe name; defaults to the file stem",
    "  --config <FILE>          Configuration file",
    "  --async                  Let stages wait",
    "  --test                   Never prompt; user inputs use their defaults",
    "  --verbose                Log each resolved step",
    "  --describe-dependencies  Print the module types the pipe depends on",
    "  --describe-input         Print the user inputs the pipe declares",
    "  --input <NAME=VALUE>     User input value, repeatable",
    "  --limit <COUNT>          Stop after this many records",
    "  --plan                   Print the resolved plan instead of running",
    "  -h, --help               Print help"
  ].map fun row => row ++ "\n")

/-- Arguments without a value. -/
inductive Flag where
  | async
  | test
  | verbose
  | describeDependencies
  | describeInput
  | plan
deriving DecidableEq, Inhabited

/-- Arguments with a value. The pipe is the one without a name. -/
inductive Slot where
  | pipe
  | name
  | config
  | input
  | limit
deriving DecidableEq, Inhabited

/-- An argument with a name. -/
inductive Named where
  | flag (flag : Flag)
  | option (slot : Slot)
  | help

/-- The argument with a name. -/
def named? : String → Option Named
  | "async" => some (.flag .async)
  | "test" => some (.flag .test)
  | "verbose" => some (.flag .verbose)
  | "describe-dependencies" => some (.flag .describeDependencies)
  | "describe-input" => some (.flag .describeInput)
  | "plan" => some (.flag .plan)
  | "name" => some (.option .name)
  | "config" => some (.option .config)
  | "input" => some (.option .input)
  | "limit" => some (.option .limit)
  | "help" => some .help
  | _ => none

/-- What has been read of the arguments. -/
structure Progress where
  read : CommandLine := { pipe := "" }
  flags : List Flag := []
  slots : List Slot := []
  /-- An option or the pipe whose value has not been looked at, or has not come yet. -/
  pending : Option (Slot × Option String) := none
  /-- Whether there has been an argument for the pipe. -/
  hasPipe : Bool := false
  /-- Whether there are no options any more. -/
  trailing : Bool := false

namespace Progress

/-- Sets a flag. -/
def setFlag (line : CommandLine) : Flag → CommandLine
  | .async => { line with asyncMode := true }
  | .test => { line with test := true }
  | .verbose => { line with verbose := true }
  | .describeDependencies => { line with describeDependencies := true }
  | .describeInput => { line with describeInput := true }
  | .plan => { line with plan := true }

/-- A name and a value with an equals sign between them. -/
def readInput? (text : String) : Option (String × String) := do
  let (name, value) ← Text.cutOnce? '=' text.toList
  if name.isEmpty then none else some (String.ofList name, String.ofList value)

/-- A number of records. -/
def readLimit? (text : String) : Option Nat :=
  let digits := match text.toList with
    | '+' :: rest => rest
    | chars => chars
  (Decimal.readNat? digits).filter fun number => number ≤ Decimal.maxSignificand

/-- Fills a slot with a value. -/
def fill (line : CommandLine) (slot : Slot) (value : String) : Except UsageError CommandLine :=
  match slot with
  | .pipe => if value.isEmpty then .error .missingValue else .ok { line with pipe := value }
  | .config =>
      if value.isEmpty then .error .missingValue else .ok { line with config := some value }
  | .name => .ok { line with name := some value }
  | .input =>
      match readInput? value with
      | some input => .ok { line with inputs := line.inputs ++ [input] }
      | none => .error .badValue
  | .limit =>
      match readLimit? value with
      | some limit => .ok { line with limit := some limit }
      | none => .error .badValue

/-- Looks at the value of a slot. Only inputs may be given more than once. -/
def store (progress : Progress) (slot : Slot) (value : String) : Except UsageError Progress := do
  if slot ≠ .input ∧ progress.slots.contains slot then .error .repeated
  else
    let read ← fill progress.read slot value
    return { progress with read, slots := slot :: progress.slots }

/-- Looks at the value that is pending, which must be there by now. -/
def settle (progress : Progress) : Except UsageError Progress :=
  match progress.pending with
  | none => .ok progress
  | some (_, none) => .error .missingValue
  | some (slot, some value) => store { progress with pending := none } slot value

/-- Takes an argument as the pipe. -/
def takePipe (progress : Progress) (argument : String) : Except UsageError Progress := do
  if progress.hasPipe then .error .unknownArgument
  else
    let progress ← progress.settle
    return { progress with pending := some (.pipe, some argument), hasPipe := true }

/-- Takes a flag. -/
def takeFlag (progress : Progress) (flag : Flag) : Except UsageError Progress := do
  let progress ← progress.settle
  if progress.flags.contains flag then .error .repeated
  else
    return { progress with
      read := setFlag progress.read flag
      flags := flag :: progress.flags }

/-- Takes an argument with a name, perhaps with a value. -/
def takeNamed (progress : Progress) (name : String) (value? : Option String) :
    Except UsageError Progress :=
  match named? name, value? with
  | none, _ => .error .unknownArgument
  | some (.flag _), some _ => .error .unexpectedValue
  | some .help, some _ => .error .unexpectedValue
  | some (.flag flag), none => progress.takeFlag flag
  | some .help, none => do
      let _ ← progress.settle
      .error .help
  | some (.option slot), some value => do
      let progress ← progress.settle
      progress.store slot value
  | some (.option slot), none => do
      let progress ← progress.settle
      return { progress with pending := some (slot, none) }

/-- Takes one argument. -/
def take (progress : Progress) (argument : String) : Except UsageError Progress :=
  if progress.trailing then progress.takePipe argument
  else
    match argument.toList with
    | ['-', '-'] => .ok { progress with trailing := true }
    | '-' :: '-' :: rest =>
        match Text.cutOnce? '=' rest with
        | some (name, value) =>
            progress.takeNamed (String.ofList name) (some (String.ofList value))
        | none => progress.takeNamed (String.ofList rest) none
    | '-' :: 'h' :: _ => progress.takeNamed "help" none
    | '-' :: _ :: _ => .error .unknownArgument
    | _ =>
        match progress.pending with
        | some (slot, none) => .ok { progress with pending := some (slot, some argument) }
        | _ => progress.takePipe argument

end Progress

/-- Reads the arguments behind the program's name. -/
def parse (arguments : List String) : Except UsageError CommandLine := do
  let progress ← arguments.foldlM Progress.take {}
  let progress ← progress.settle
  if progress.slots.contains .pipe then return progress.read else .error .missingPipe

/-- The last name of a path, if it is that of a file and not a way up or to where one is. -/
def fileName? (path : String) : Option String :=
  let names := (Text.pieces '/' path).filter fun name => name ≠ ""
  let last := match names with
    | [only] => some only
    | names => (names.filter fun name => name ≠ ".").getLast?
  last.filter fun name => name ≠ "." ∧ name ≠ ".."

/-- A file name without its extension. A name that starts with its only dot has none. -/
def stem (name : String) : String :=
  let reversed := name.toList.reverse
  match Text.cutOnce? '.' reversed with
  | some (_, base) => if base.isEmpty then name else String.ofList base.reverse
  | none => name

/-- The name of the pipe: the one that is given, or that of the file. -/
def nameOfPipe (line : CommandLine) : String :=
  line.name.getD (((fileName? line.pipe).map stem).getD "pipe")

end CommandLine

end Pipework
