import Pipework.Stage.Build

/-!
# Asking stages

What asking a stage comes to, and what it leaves of the stage. The budget bounds both the depth of
stages inside of stages and the number of records that a stage may take for one answer.
-/

namespace Pipework

namespace Job

/-- Collects the records of an embedded module. The first error takes the place of all of them. -/
def gather (ask : Stage → Flow (Poll × Stage)) (rule : LoopRule) (item : Record) :
    Nat → Stage → List Record → Flow (Progress (Job Stage))
  | 0, _, _ => failure
  | budget + 1, stage, found => do
      let (poll, stage) ← ask stage
      match poll with
      | .pending => return .waiting (.collect rule item stage found)
      | .ended => return .finished (.ok (rule.apply item found))
      | .answer (.error error) => return .finished (.error error)
      | .answer (.ok record) => gather ask rule item budget stage (found ++ [record])

/-- Reads the source for a record. -/
def fetch (setting : Setting) (conf : Conf) (item : Record) :
    Run (Except PipeError (List Record)) := do
  match Fetch.path conf (some item) with
  | .error error => return .error error
  | .ok path => return Fetch.records (← Run.readFile setting path)

/-- Goes on with a job as far as it comes now. -/
def work (setting : Setting) (ask : Stage → Flow (Poll × Stage)) (budget : Nat) :
    Job Stage → Flow (Progress (Job Stage))
  | .load conf item true => do
      Run.wakeAt (← (get : Run World)).clock
      return .waiting (.load conf item false)
  | .load conf item false => do
      let batch ← (fetch setting conf item : Run _)
      return .finished batch
  | .instantiate rule embed mode item => do
      match ← (embed.instantiate setting mode item : Run _) with
      | .error error => return .finished (.error error)
      | .ok stage => gather ask rule item budget stage []
  | .collect rule item stage found => gather ask rule item budget stage found

end Job

namespace Stage

/-- Asks a consumer of a junction. -/
def pollBranch (ask : Stage → Flow (Poll × Stage)) (junction index : Nat) : Flow Poll := do
  match (← get)[junction]? with
  | some (.fork fork) => do
      let outcome ← fork.poll ask index
      modify fun junctions => junctions.set junction (.fork outcome.fork)
      return outcome.poll
  | some (.tap held) => do
      let outcome ← held.poll ask index
      modify fun junctions => junctions.set junction (.tap outcome.tap)
      return outcome.poll
  | none => return .ended

/-- Asks a script at the time of the clock. -/
def pollScript (script : Script) : Run (Poll × Script) := do
  let outcome := script.poll (← get).clock
  match outcome.alarm with
  | some time => Run.wakeAt time
  | none => pure ()
  return (outcome.poll, outcome.script)

/-- Counts what a probe passes on. -/
def countPull (id : ModuleId) (poll : Poll) : Run Unit :=
  if poll.isReady then
    Run.count id fun count => { count with pulls := count.pulls + 1 }
  else pure ()

/-- Asks a stage, within a budget. -/
def poll (setting : Setting) : Nat → Stage → Flow (Poll × Stage)
  | 0, _ => failure
  | budget + 1, stage =>
      let ask := Stage.poll setting budget
      match stage with
      | .sentinel => return (.answer (.ok Record.sentinel), .sentinel)
      | .constant record => return (.answer (.ok record), .constant record)
      | .once none => return (.ended, .once none)
      | .once (some record) => return (.answer (.ok record), .once none)
      | .scripted script => do
          let (poll, script) ← (pollScript script : Run _)
          return (poll, .scripted script)
      | .tagged id index inner => do
          let (poll, inner) ← ask inner
          match poll with
          | .answer answer =>
              return (.answer (answer.mapError fun error => error.whileProducing id index),
                .tagged id (index + 1) inner)
          | other => return (other, .tagged id index inner)
      | .mapped transform inner => do
          let (poll, inner) ← ask inner
          return (poll.mapAnswer fun answer =>
              answer.bind fun record => transform.apply setting.now record,
            .mapped transform inner)
      | .batches task state => do
          let (poll, state) ←
            state.poll ask (fun item => task.begin item) (Job.work setting ask budget) failure
              budget
          return (poll, .batches task state)
      | .tally state => do
          let (poll, state) ← state.poll ask failure budget
          return (poll, .tally state)
      | .pairing state => do
          let (poll, state) ← state.poll ask
          return (poll, .pairing state)
      | .sampling state => do
          let (poll, state) ← state.poll ask
          return (poll, .sampling state)
      | .probe id inner => do
          let (poll, inner) ← ask inner
          countPull id poll
          return (poll, .probe id inner)
      | .branch junction index => do
          let poll ← pollBranch ask junction index
          return (poll, .branch junction index)
      | .tap junction => do
          let poll ← pollBranch ask junction 0
          return (poll, .tap junction)
      | .closed junctions out => do
          let ((poll, out), junctions) ← ((ask out).run junctions : Run _)
          return (poll, .closed junctions out)

end Stage

end Pipework
