import Pipework.Answer

/-!
# Tallies

A tally counts the records of its input and gives one record with their number when the input ends,
or when a record of the sentinel comes. An error of the input takes the place of the number. After
that one answer the tally has ended.
-/

namespace Pipework

/-- The input of a tally and the number of its records so far. -/
structure Tally (ι : Type) where
  input : ι
  count : Nat
  /-- Whether the answer has been given. -/
  done : Bool

namespace Tally

variable {ι : Type}

/-- The key of the number. -/
def numberKey : String := "count"

/-- The record with a number. -/
def record (count : Nat) : Record :=
  Dict.single numberKey (.int count)

/-- A tally that has counted nothing. -/
def start (input : ι) : Tally ι :=
  { input, count := 0, done := false }

/-- Gives the answer. -/
def finish (tally : Tally ι) (answer : Answer) : Poll × Tally ι :=
  (.answer answer, { tally with done := true })

/-- Asks for the answer within a number of steps, one for each record of the input. When there are
more records than steps, it gives up. -/
def poll {m : Type → Type} [Monad m] (ask : ι → m (Poll × ι)) (giveUp : m (Poll × Tally ι)) :
    Nat → Tally ι → m (Poll × Tally ι)
  | 0, _ => giveUp
  | budget + 1, tally =>
      if tally.done then pure (.ended, tally)
      else do
        let (poll, input) ← ask tally.input
        let tally := { tally with input }
        match poll with
        | .pending => return (.pending, tally)
        | .ended => return tally.finish (.ok (record tally.count))
        | .answer (.error error) => return tally.finish (.error error)
        | .answer (.ok item) =>
            if item.isSentinel then return tally.finish (.ok (record tally.count))
            else Tally.poll ask giveUp budget { tally with count := tally.count + 1 }

end Tally

end Pipework
