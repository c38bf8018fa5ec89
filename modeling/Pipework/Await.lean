import Pipework.Stage.Poll

/-!
# Waiting for answers

A stage that has to wait is asked again when the clock has reached the time that it waits for, and
not later than a deadline. What is ready at the deadline still counts; a deadline that has passed
takes nothing from the stage.
-/

namespace Pipework

/-- What waiting comes to. -/
inductive Awaited where
  | answer (answer : Answer)
  | ended
  /-- The deadline has passed and there was nothing. -/
  | late

namespace Awaited

variable {σ : Type}

/-- The earlier of two times, of which each may be missing. -/
def earlier? : Option Nat → Option Nat → Option Nat
  | some first, some second => some (min first second)
  | some first, none => some first
  | none, second => second

/-- Lets the clock move on to the next time at which something may happen. There may be none. -/
def waitFor (deadline : Option Nat) : Run Unit := do
  let world ← get
  match earlier? world.alarm deadline with
  | some time => set { world with clock := max world.clock time }
  | none => failure

/-- Asks until there is an answer or the end, or until the deadline has passed. -/
def await (ask : σ → Run (Poll × σ)) (deadline : Option Nat) : Nat → σ → Run (Awaited × σ)
  | 0, _ => failure
  | budget + 1, state => do
      modify fun world : World => { world with alarm := none }
      let (poll, state) ← ask state
      match poll with
      | .answer given => return (.answer given, state)
      | .ended => return (.ended, state)
      | .pending =>
          let clock := (← get).clock
          if deadline.any fun time => time ≤ clock then return (.late, state)
          else do
            waitFor deadline
            await ask deadline budget state

end Awaited

end Pipework
