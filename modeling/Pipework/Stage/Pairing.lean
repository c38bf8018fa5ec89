import Pipework.Answer

/-!
# Pairings

A pairing puts the answers of two inputs together, one of each at a time, until one of them ends.
The first input is asked before the second. Without waiting, the second one is asked only when the
first has given an answer, and an end is not remembered. Where stages may have to wait, both are
asked each time, an answer that comes early is held until its partner is there, and an input that
has ended is not asked again.
-/

namespace Pipework

namespace Pairing

/-- One of the two inputs. -/
structure Side (ι : Type) where
  /-- A missing input is empty. -/
  input : Option ι
  /-- The answer that waits for one of the other side. -/
  held : Option Answer
  /-- Whether the input has been found at its end. -/
  ended : Bool

namespace Side

variable {ι : Type}

/-- An input of which nothing has been taken. -/
def start (input : Option ι) : Side ι :=
  { input, held := none, ended := false }

/-- The same input with nothing held and its end forgotten. -/
def fresh (side : Side ι) : Side ι :=
  start side.input

/-- Asks the input, unless an answer is held or the end has been found. -/
def fill {m : Type → Type} [Monad m] (ask : ι → m (Poll × ι)) (side : Side ι) : m (Side ι) :=
  if side.held.isSome || side.ended then pure side
  else
    match side.input with
    | none => pure { side with ended := true }
    | some input => do
        let (poll, input) ← ask input
        let side := { side with input := some input }
        match poll with
        | .answer answer => return { side with held := some answer }
        | .ended => return { side with ended := true }
        | .pending => return side

end Side

end Pairing

/-- Two inputs whose answers are put together. -/
structure Pairing (ι : Type) where
  main : Pairing.Side ι
  other : Pairing.Side ι
  mode : Mode

namespace Pairing

variable {ι : Type}

/-- A pairing that has taken nothing from its inputs. The second may be missing. -/
def start (main : ι) (other : Option ι) (mode : Mode) : Pairing ι :=
  { main := .start (some main), other := .start other, mode }

/-- Two answers as one: the records under a key each, or the first of the errors. -/
def join (main other : Answer) : Answer := do
  let main ← main
  let other ← other
  return .ofList [("main", .object main), ("other", .object other)]

/-- What the two sides come to. -/
def outcome (pairing : Pairing ι) : Poll :=
  match pairing.main.held, pairing.other.held with
  | some first, some second => .answer (join first second)
  | _, _ => if pairing.main.ended || pairing.other.ended then .ended else .pending

/-- Whether the sides stay as they are after an outcome. -/
def keeps (pairing : Pairing ι) : Poll → Bool
  | .answer _ => false
  | .ended => pairing.mode == .async
  | .pending => true

/-- Gives the outcome. A pair takes what was held of both sides. -/
def settle (pairing : Pairing ι) : Poll × Pairing ι :=
  let poll := pairing.outcome
  if pairing.keeps poll then (poll, pairing)
  else (poll, { pairing with main := pairing.main.fresh, other := pairing.other.fresh })

/-- Asks for the next pair. -/
def poll {m : Type → Type} [Monad m] (ask : ι → m (Poll × ι)) (pairing : Pairing ι) :
    m (Poll × Pairing ι) := do
  let main ← pairing.main.fill ask
  if pairing.mode = .async ∨ main.held.isSome then
    let other ← pairing.other.fill ask
    return { pairing with main, other }.settle
  else return { pairing with main }.settle

end Pairing

end Pipework
