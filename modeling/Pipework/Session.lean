import Pipework.PipeRun

/-!
# Sessions

Several runs of several pipes over one registry, side by side. A session is driven by commands that
name the runs and the pipes; the runs share the files, the clock, the user and the probes, and
nothing else.
-/

namespace Pipework

/-- What a command of a session does. -/
inductive Command where
  | compile (pipe : String) (description : Value)
  | start (run pipe : String) (mode : Mode) (context : RunContext)
  /-- Asks for answers. -/
  | next (run : String) (count : Nat)
  /-- Asks for records up to the first error. -/
  | take (run : String) (count : Nat)
  /-- Asks for all the records that are left. -/
  | collect (run : String)
  /-- Gives up the limit on the time of records. -/
  | stream (run : String)
  | drop (run : String)
  | dropPipe (pipe : String)
  /-- Lets milliseconds pass. -/
  | sleep (milliseconds : Nat)

/-- What a command of a session comes to. -/
inductive Reply where
  | compiled (order : List ModuleId)
  | started (output : ModuleId)
  | described (description : PipeDescription)
  | failed (error : PipeError)
  | answers (answers : List (Option Answer))
  | records (records : List Record)
  | streaming
  | dropped (found : Bool)
  | slept (milliseconds : Nat)
  /-- There is no such run or pipe, or the run is not of the kind that the command needs. -/
  | impossible

/-- How the answers of a run are given. -/
inductive Delivery where
  | sync
  | async
  /-- Without a limit on the time of records. -/
  | stream
deriving DecidableEq

/-- The pipes and the runs of a session, by their names. -/
structure Session where
  pipes : Dict Pipe
  runs : Dict (Delivery × PipeRun)
  /-- The milliseconds that one record may take. -/
  limit : Option Nat

namespace Session

/-- A session without pipes and runs. -/
def start (limit : Option Nat) : Session :=
  { pipes := .empty, runs := .empty, limit }

/-- Files a run under a name. -/
def keep (session : Session) (name : String) (delivery : Delivery) (run : PipeRun) : Session :=
  { session with runs := session.runs.insert name (delivery, run) }

/-- Takes a run out. -/
def without (session : Session) (name : String) : Session :=
  { session with runs := session.runs.erase name }

/-- What a list of records, or the error in its place, comes to. -/
def recordsReply : Except PipeError (List Record) → Reply
  | .ok records => .records records
  | .error error => .failed error

/-- Starts a run under a name. A run of this name gives way only if the start succeeds. -/
def startRun (setting : Setting) (session : Session) (name pipe : String) (mode : Mode)
    (context : RunContext) : Run (Reply × Session) := do
  match session.pipes.get? pipe with
  | none => return (.impossible, session)
  | some pipe =>
      match ← PipeRun.ofContext setting mode session.limit context pipe with
      | .error error => return (.failed error, session)
      | .ok (.description description) => return (.described description, session)
      | .ok (.running run) =>
          let delivery := if mode = .async then Delivery.async else Delivery.sync
          return (.started run.output, session.keep name delivery run)

/-- Lets a run that may have to wait do something. Any other run of the name is taken out. -/
def withAsync (session : Session) (name : String)
    (act : PipeRun → Run (Reply × Session)) : Run (Reply × Session) :=
  match session.runs.get? name with
  | some (.async, run) => act run
  | _ => return (.impossible, session.without name)

/-- Carries out a command. -/
def step (setting : Setting) (budget : Nat) (session : Session) :
    Command → Run (Reply × Session)
  | .compile name description =>
      match Pipe.compile description name with
      | .error error => return (.failed error, session)
      | .ok pipe =>
          return (.compiled pipe.order,
            { session with pipes := session.pipes.insert name pipe })
  | .start name pipe mode context => startRun setting session name pipe mode context
  | .next name count => do
      match session.runs.get? name with
      | none => return (.impossible, session)
      | some (delivery, run) =>
          let (answers, run) ← run.pull setting budget count
          return (.answers answers, session.keep name delivery run)
  | .take name count => session.withAsync name fun run => do
      let (records, run) ← run.take setting budget count
      return (recordsReply records, session.keep name .async run)
  | .collect name => session.withAsync name fun run => do
      let (records, _) ← run.take setting budget budget
      return (recordsReply records, session.without name)
  | .stream name => session.withAsync name fun run =>
      return (.streaming, session.keep name .stream run.stream)
  | .drop name => return (.dropped (session.runs.contains name), session.without name)
  | .dropPipe name =>
      return (.dropped (session.pipes.contains name),
        { session with pipes := session.pipes.erase name })
  | .sleep milliseconds => do
      modify fun world : World => { world with clock := world.clock + milliseconds }
      return (.slept milliseconds, session)

end Session

end Pipework
