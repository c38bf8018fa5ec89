import Mathlib
import Pipework.Fanout.Consumers
import Pipework.Proofs.Fanout.Branches

/-! # What the consumers of a split have been told

A ledger runs commands on a split over a sequence of polls and keeps two records beside it: what
each handle has been told, and on whose behalf the upstream was asked each time.
-/

namespace Pipework.Fanout

/-- A fan-out over a sequence of polls, with what has come of it so far. -/
structure Ledger where
  consumers : Consumers Nat
  /-- What each handle has been told, in order. -/
  given : Nat → List Poll
  /-- On whose behalf the upstream was asked, once for each time. -/
  askers : List Nat

namespace Consumers

/-- How many times the upstream has been asked. -/
def position (consumers : Consumers Nat) : Nat :=
  match consumers.source with
  | .fork fork => fork.upstream
  | .tap tap => tap.upstream

/-- What waits for a handle of a fork. -/
def buffer? {υ : Type} (consumers : Consumers υ) (handle : Nat) : Option (List Record) :=
  match consumers.source with
  | .fork fork => fork.buffer? handle
  | .tap _ => none

end Consumers

namespace Ledger

/-- A split of which nothing has come yet. -/
def start (id : ModuleId) (branches : Nat) : Ledger :=
  { consumers := .start (.fork (.start id 0 branches)), given := fun _ => [], askers := [] }

/-- Carries out a command and notes what a handle that asked was told. -/
def step (answers : Nat → Poll) (ledger : Ledger) (command : Command) : Ledger :=
  let result : Result Nat := ledger.consumers.step (Poll.ofSequence answers) command
  match command, result.reply with
  | .pull handle, .polled poll =>
      { consumers := result.consumers
        given := Function.update ledger.given handle (ledger.given handle ++ [poll])
        askers := ledger.askers
          ++ List.replicate (result.consumers.position - ledger.consumers.position) handle }
  | _, _ => { ledger with consumers := result.consumers }

/-- Carries out commands one after the other. -/
def run (answers : Nat → Poll) (ledger : Ledger) (commands : List Command) : Ledger :=
  commands.foldl (step answers) ledger

/-- The records that the upstream has given so far. -/
def taken (answers : Nat → Poll) (ledger : Ledger) : List Record :=
  ((List.range ledger.consumers.position).map answers).filterMap Poll.record?

/-- The records that a handle has been told. -/
def records (ledger : Ledger) (handle : Nat) : List Record :=
  (ledger.given handle).filterMap Poll.record?

/-- What came of asking the upstream on behalf of a handle. -/
def asked (answers : Nat → Poll) (ledger : Ledger) (handle : Nat) : List Poll :=
  ledger.askers.zipIdx.filterMap fun entry =>
    if entry.1 = handle then some (answers entry.2) else none

/-- The upstream has told its end, and nothing after it. -/
def Over (answers : Nat → Poll) (ledger : Ledger) : Prop :=
  ∃ last, ledger.consumers.position = last + 1 ∧ answers last = .ended

/-- What the upstream has given so far, without what is not a record and was asked for on behalf
of another handle. -/
def due (answers : Nat → Poll) (ledger : Ledger) (handle : Nat) : List Poll :=
  ledger.askers.zipIdx.filterMap fun entry =>
    if entry.1 = handle ∨ (answers entry.2).record?.isSome then some (answers entry.2) else none

section Records

variable {answers : Nat → Poll} {ledger next : Ledger}

theorem due_snoc {asker : Nat} (haskers : next.askers = ledger.askers ++ [asker])
    (handle : Nat) :
    next.due answers handle = ledger.due answers handle ++
      if asker = handle ∨ (answers ledger.askers.length).record?.isSome
      then [answers ledger.askers.length] else [] := by
  simp only [due, haskers, List.zipIdx_append, List.filterMap_append, List.zipIdx_singleton,
    List.filterMap_cons, List.filterMap_nil, Nat.zero_add]
  by_cases hdue : asker = handle ∨ (answers ledger.askers.length).record?.isSome
  · rw [if_pos hdue, if_pos hdue]
  · rw [if_neg hdue, if_neg hdue]

theorem asked_snoc {asker : Nat} (haskers : next.askers = ledger.askers ++ [asker])
    (handle : Nat) :
    next.asked answers handle = ledger.asked answers handle ++
      if asker = handle then [answers ledger.askers.length] else [] := by
  simp only [asked, haskers, List.zipIdx_append, List.filterMap_append, List.zipIdx_singleton,
    List.filterMap_cons, List.filterMap_nil, Nat.zero_add]
  by_cases hasker : asker = handle
  · rw [if_pos hasker, if_pos hasker]
  · rw [if_neg hasker, if_neg hasker]

theorem taken_succ (hposition : next.consumers.position = ledger.consumers.position + 1) :
    next.taken answers =
      ledger.taken answers ++ (answers ledger.consumers.position).record?.toList := by
  simp only [taken, hposition, List.range_succ, List.map_append, List.filterMap_append,
    List.map_singleton]
  cases hrecord : (answers ledger.consumers.position).record? <;> simp [hrecord]

/-- Whatever else is left out of what is due to a handle, no record is. -/
theorem filterMap_record?_due (haskers : ledger.askers.length = ledger.consumers.position)
    (handle : Nat) :
    (ledger.due answers handle).filterMap Poll.record? = ledger.taken answers := by
  have hpositions : List.range ledger.consumers.position = ledger.askers.zipIdx.map Prod.snd := by
    rw [List.zipIdx_map_snd, haskers, List.range_eq_range']
  rw [due, taken, hpositions, List.map_map, List.filterMap_filterMap, List.filterMap_map]
  apply List.filterMap_congr
  intro entry _
  by_cases hrecord : (answers entry.2).record?.isSome
  · simp [hrecord]
  · have hnone : (answers entry.2).record? = none := by simpa using hrecord
    by_cases hasker : entry.1 = handle <;> simp [hasker, hnone]

theorem filterMap_record?_replicate_ended (times : Nat) :
    (List.replicate times Poll.ended).filterMap Poll.record? = [] := by
  simp

end Records

end Ledger

end Pipework.Fanout
