import Pipework.Answer

/-!
# Scripted stages

A script lists the answers of a stage and the pauses between them. A pause ends when the clock has
reached its time; it starts when the stage is asked for what comes after it.
-/

namespace Pipework

namespace Script

/-- One entry of a script. -/
inductive Entry where
  | answer (answer : Answer)
  /-- A pause of so many milliseconds. -/
  | delay (milliseconds : Nat)
  /-- A pause without end. -/
  | stall
  /-- Nothing the next time the stage is asked. -/
  | skip

namespace Entry

/-- The entry that an object describes; anything else is no entry. -/
def ofValue? (value : Value) : Option Entry :=
  match (value.field? "record").bind Value.asObject?, (value.field? "fail").bind Value.asText?,
      (value.field? "delay").bind Value.asInt64? with
  | some record, _, _ => some (.answer (.ok record))
  | none, some text, _ => some (.answer (.error (.module (.other text))))
  | none, none, some milliseconds => some (.delay milliseconds.toNat)
  | none, none, none =>
      if (value.field? "stall").isSome then some .stall
      else if (value.field? "pending").isSome then some .skip
      else none

/-- Whether the entry is an answer. -/
def isAnswer : Entry → Bool
  | answer _ => true
  | _ => false

end Entry

end Script

/-- The entries that are left, and the time at which the pause under way ends. -/
structure Script where
  entries : List Script.Entry
  until? : Option Nat
deriving Inhabited

namespace Script

/-- A script from its beginning. Without waiting there are no pauses. -/
def start (entries : List Entry) : Mode → Script
  | .sync => { entries := entries.filter Entry.isAnswer, until? := none }
  | .async => { entries, until? := none }

/-- The script that a list of objects describes. -/
def ofValues (values : List Value) (mode : Mode) : Script :=
  start (values.filterMap Entry.ofValue?) mode

/-- What came of asking, the time at which asking again makes sense, and what is left. -/
structure Outcome where
  poll : Poll
  alarm : Option Nat
  script : Script

/-- Goes through entries at a time of the clock. -/
def advance (clock : Nat) (until? : Option Nat) : List Entry → Outcome
  | [] => ⟨.ended, none, ⟨[], none⟩⟩
  | .answer answer :: rest => ⟨.answer answer, none, ⟨rest, none⟩⟩
  | .skip :: rest => ⟨.pending, none, ⟨rest, none⟩⟩
  | .stall :: rest => ⟨.pending, none, ⟨.stall :: rest, none⟩⟩
  | .delay milliseconds :: rest =>
      let time := until?.getD (clock + milliseconds)
      if time ≤ clock then advance clock none rest
      else ⟨.pending, some time, ⟨.delay milliseconds :: rest, some time⟩⟩

/-- Asks for the next answer. -/
def poll (script : Script) (clock : Nat) : Outcome :=
  advance clock script.until? script.entries

end Script

end Pipework
