import Pipework.Await
import Pipework.Pipe.Description

/-!
# Runs

A run of a compiled pipe gives the answers of the pipe's output, or, if its context asks for that,
only a description of the pipe. Every run assembles the pipe anew and leaves the pipe as it is.

Where stages may have to wait, the time for one record may be limited. A timeout is reported with
the position of the record that was due, does not count as an answer, and leaves the record due.
-/

namespace Pipework

/-- A pipe that runs. -/
structure PipeRun where
  /-- The module whose stage is the output. -/
  output : ModuleId
  stage : Stage
  /-- The milliseconds that one record may take. -/
  limit : Option Nat
  /-- Whether the end is remembered, and the stage not asked any more. -/
  fused : Bool
  /-- The number of answers so far. -/
  produced : Nat
  finished : Bool

namespace PipeRun

/-- The run of a stage that has not been asked yet. Only where stages may have to wait is their
time limited and their end remembered. -/
def start (mode : Mode) (limit : Option Nat) (output : ModuleId) (stage : Stage) : PipeRun :=
  { output, stage
    limit := if mode = .async then limit else none
    fused := mode == .async
    produced := 0
    finished := false }

/-- The bare answers of the output, without a limit and without a memory of the end. After the end
they must not be asked for again. -/
def stream (run : PipeRun) : PipeRun :=
  { run with limit := none, fused := false, finished := false }

/-- Asks the output once. -/
def askOutput (setting : Setting) (budget : Nat) (stage : Stage) : Run (Poll × Stage) := do
  let ((poll, stage), _) ← (stage.poll setting budget).run []
  return (poll, stage)

/-- The next answer, or nothing at the end. -/
def next (setting : Setting) (budget : Nat) (run : PipeRun) : Run (Option Answer × PipeRun) := do
  if run.finished then return (none, run)
  let clock := (← get).clock
  let deadline := run.limit.map fun limit => clock + limit
  let (awaited, stage) ← Awaited.await (askOutput setting budget) deadline budget run.stage
  match awaited with
  | .answer answer => return (some answer, { run with stage, produced := run.produced + 1 })
  | .ended => return (none, { run with stage, finished := run.fused })
  | .late => return (some (.error (.timeout run.output run.produced)), { run with stage })

/-- Up to a number of answers, errors among them, and the end if it comes before. -/
def pull (setting : Setting) (budget : Nat) :
    Nat → PipeRun → Run (List (Option Answer) × PipeRun)
  | 0, run => return ([], run)
  | count + 1, run => do
      match ← run.next setting budget with
      | (none, run) => return ([none], run)
      | (some answer, run) =>
          let (answers, run) ← pull setting budget count run
          return (some answer :: answers, run)

/-- Up to a number of records. The first error takes the place of all of them. -/
def take (setting : Setting) (budget : Nat) :
    Nat → PipeRun → Run (Except PipeError (List Record) × PipeRun)
  | 0, run => return (.ok [], run)
  | count + 1, run => do
      match ← run.next setting budget with
      | (none, run) => return (.ok [], run)
      | (some (.error error), run) => return (.error error, run)
      | (some (.ok record), run) =>
          let (records, run) ← take setting budget count run
          return (records.map (record :: ·), run)

/-- What running a pipe gives. -/
inductive Started where
  | description (description : PipeDescription)
  | running (run : PipeRun)

/-- Assembles a pipe and takes its output. -/
def ofPipe (setting : Setting) (mode : Mode) (limit : Option Nat) (context : RunContext)
    (pipe : Pipe) : ExceptT PipeError Run PipeRun := do
  let stage ← (setting.workshop mode context).output pipe
  return .start mode limit ((pipe.plan.last?.map Plan.Step.id).getD default) stage

/-- Runs a pipe in a context. -/
def ofContext (setting : Setting) (mode : Mode) (limit : Option Nat)
    (context : RunContext) (pipe : Pipe) : Run (Except PipeError Started) := do
  match PipeDescription.ofRun? context pipe with
  | some description => return .ok (.description description)
  | none =>
      Run.report (.running mode pipe.diagram.name)
      return (← (ofPipe setting mode limit context pipe).run).map .running

end PipeRun

end Pipework
