import Pipework.Answer

/-!
# Batches

A stage that makes a batch of records of each input record. The batches follow one another in the
order of their input records; an error of the input and a batch that fails are one answer each, and
neither ends the stage. A record of the sentinel is the last one that is taken from the input.

Nothing is promised of a stage that is asked again after its end. The form that never waits ends
again; the form that may wait is broken by it, which is not told apart here: it ends again as well.
Runs that may wait, splits and shared stages remember the end of what they ask and do not ask it
again. Only the bare stream of a run leaves that to its reader.
-/

namespace Pipework

/-- How far the work on one record has come. -/
inductive Progress (ω : Type) where
  /-- The work goes on. -/
  | waiting (job : ω)
  | finished (batch : Except PipeError (List Record))

/-- The input of the stage, the answers that wait, and the work under way. -/
structure Batches (ι ω : Type) where
  input : ι
  queue : List Answer
  job : Option ω
  /-- Whether the input is not asked any more. -/
  last : Bool

namespace Batches

variable {ι ω : Type}

/-- A stage that has taken nothing from its input. -/
def start (input : ι) : Batches ι ω :=
  { input, queue := [], job := none, last := false }

/-- The answers that a batch comes to. -/
def answersOf : Except PipeError (List Record) → List Answer
  | .ok records => records.map .ok
  | .error error => [.error error]

/-- Asks for the next answer within a number of steps: the answers that wait come first, then the
work under way, then the input. When the steps do not suffice, it gives up. -/
def poll {m : Type → Type} [Monad m] (ask : ι → m (Poll × ι)) (begin : Record → ω)
    (work : ω → m (Progress ω)) (giveUp : m (Poll × Batches ι ω)) :
    Nat → Batches ι ω → m (Poll × Batches ι ω)
  | 0, _ => giveUp
  | budget + 1, batches =>
      match batches.queue, batches.job with
      | answer :: rest, _ => pure (.answer answer, { batches with queue := rest })
      | [], some job => do
          match ← work job with
          | .waiting job => return (.pending, { batches with job := some job })
          | .finished batch =>
              Batches.poll ask begin work giveUp budget
                { batches with queue := answersOf batch, job := none }
      | [], none =>
          if batches.last then pure (.ended, batches)
          else do
            let (poll, input) ← ask batches.input
            let batches := { batches with input }
            match poll with
            | .pending => return (.pending, batches)
            | .ended => return (.ended, { batches with last := true })
            | .answer (.error error) => return (.answer (.error error), batches)
            | .answer (.ok record) =>
                Batches.poll ask begin work giveUp budget
                  { batches with job := some (begin record), last := record.isSentinel }

end Batches

end Pipework
