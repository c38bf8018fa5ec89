import Pipework.Program
import Std.Time.Zoned

/-!
# The program on the command line

Runs the program on the files, the clock and the terminal of the system. A run is carried out on
what is known of them; when it turns out to need a file or an answer of the user that is not known
yet, that is fetched and the run starts again from where it started. Records are printed as they
come.
-/

namespace Pipework.Outside

/-- What is known of the system. -/
structure Known where
  files : List (String × Except FileError String)
  now : DateTime

/-- The setting of runs on what is known. -/
def Known.setting (known : Known) : Setting where
  read path := (known.files.lookup path).getD (.error .notFound)
  now := known.now
  registry := .standard

/-- The number of steps that one record may take. -/
def budget : Nat := 1000000000000

/-- The moment that the clock shows. -/
def now : IO DateTime := do
  let moment ← Std.Time.PlainDateTime.now
  let date? := Date.ofParts? moment.date.year.toInt moment.date.month.toNat moment.date.day.toNat
  return (date?.bind fun date =>
    DateTime.ofParts? date moment.time.hour.toNat moment.time.minute.toNat
      moment.time.second.val.toNat).getD default

/-- Reads a file. -/
def readFile (path : String) : IO (Except FileError String) := do
  try
    let bytes ← IO.FS.readBinFile path
    match String.fromUTF8? bytes with
    | some text => return .ok text
    | none => return .error .invalidText
  catch
    | .inappropriateType _ code _ =>
        return .error (if code = 20 then .notDirectory else .isDirectory)
    | _ => return .error .notFound

/-- Reads a file unless it is known. -/
def learn (known : IO.Ref Known) (path : String) : IO Unit := do
  if ((← known.get).files.lookup path).isNone then
    let content ← readFile path
    known.modify fun before => { before with files := (path, content) :: before.files }

/-- Carries out a run and reports its events. There is no result if it takes too many steps. -/
partial def perform {α : Type} (known : IO.Ref Known) (run : Setting → Run α) (world : World) :
    IO (Option (α × World)) := do
  let before ← known.get
  match (run before.setting).run world with
  | none => return none
  | some (result, after) =>
      let unread := after.reads.filter fun path => (before.files.lookup path).isNone
      if unread.isEmpty then
        match after.questions.drop world.lines.length with
        | question :: _ => do
            IO.eprint question
            let line ← (← IO.getStdin).getLine
            perform known run { world with lines := world.lines ++ [line] }
        | [] => do
            after.events.forM fun event => IO.eprint (Program.eventLine event)
            return some (result,
              { after with events := [], questions := [], lines := [], reads := [] })
      else do
        unread.forM (learn known)
        perform known run world

/-- Ends the program with an error. -/
def fail (text : String) : IO UInt32 := do
  IO.eprint (Program.errorLine text)
  return 1

/-- What is said when a run takes too many steps. -/
def endless : String := "the run takes too many steps"

/-- Prints the records of a run as they come. -/
partial def printRecords (known : IO.Ref Known) (run : PipeRun) (limit : Option Nat)
    (world : World) : IO UInt32 := do
  if limit = some 0 then return 0
  match ← perform known (fun setting => run.next setting budget) world with
  | none => fail endless
  | some ((none, _), _) => return 0
  | some ((some (.error error), _), _) => fail error.message
  | some ((some (.ok record), run), world) => do
      IO.print (Program.recordLine record)
      (← IO.getStdout).flush
      printRecords known run (limit.map (· - 1)) world

/-- The usual configuration file, if there is a directory for configurations. -/
def usualConfig? : IO (Option String) := do
  let isAbsolute (path : String) : Bool := path.toList.head? == some '/'
  match (← IO.getEnv "XDG_CONFIG_HOME").filter isAbsolute, ← IO.getEnv "HOME" with
  | some directory, _ => return some (directory ++ "/" ++ Program.usualFile)
  | none, some home => return some (home ++ "/.config/" ++ Program.usualFile)
  | none, none => return none

/-- Does what a command line asks for. -/
def execute (line : CommandLine) : IO UInt32 := do
  let usual? ← usualConfig?
  let known ← IO.mkRef { files := [], now := ← now }
  ((line.config <|> usual?).toList ++ [line.pipe]).forM (learn known)
  match ← perform known (fun setting => Program.start setting usual? line) {} with
  | none => fail endless
  | some (.error text, _) => fail text
  | some (.ok (.print text), _) => do
      IO.print text
      return 0
  | some (.ok (.records run limit), world) => printRecords known run limit world

end Pipework.Outside

open Pipework in
/-- Reads the arguments and does what they ask for. The program exits with two when they are
refused. -/
def main (arguments : List String) : IO UInt32 := do
  match CommandLine.parse arguments with
  | .ok line => Outside.execute line
  | .error .help => do
      IO.print CommandLine.usage
      return 0
  | .error error => do
      IO.eprint ("error: " ++ error.message ++ "\n\n" ++ CommandLine.usage)
      return 2
