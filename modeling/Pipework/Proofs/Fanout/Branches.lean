import Mathlib
import Pipework.Fanout.Fork

/-! # The buffers of a split

How each operation of a fork changes what waits for each branch. Asking a branch comes out in one
of three ways, and `Fork.poll_pulled` says which: the branch is served from its buffer, it learns
that the upstream has ended, or the upstream is asked on its behalf.
-/

namespace Pipework

namespace Poll

/-- The record that asking came to, if it did. -/
def record? : Poll → Option Record
  | answer (.ok record) => some record
  | _ => none

/-- The error that asking came to, if it did. -/
def error? : Poll → Option PipeError
  | answer (.error error) => some error
  | _ => none

/-- Asking came to a record. -/
def ofRecord (record : Record) : Poll := .answer (.ok record)

@[simp] theorem record?_ofRecord (record : Record) : (ofRecord record).record? = some record := rfl

@[simp] theorem error?_ofRecord (record : Record) : (ofRecord record).error? = none := rfl

@[simp] theorem record?_ended : ended.record? = none := rfl

@[simp] theorem error?_ended : ended.error? = none := rfl

theorem eq_ofRecord_of_record? {poll : Poll} {record : Record} (h : poll.record? = some record) :
    poll = ofRecord record := by
  cases poll with
  | pending => cases h
  | ended => cases h
  | answer answer =>
      cases answer with
      | error error => cases h
      | ok held =>
          cases h
          rfl

theorem map_ofRecord_record? (poll : Poll) :
    poll.record?.toList.map ofRecord = if poll.record?.isSome then [poll] else [] := by
  cases hrecord : poll.record? with
  | none => rfl
  | some record =>
      rw [eq_ofRecord_of_record? hrecord]
      rfl

theorem filterMap_record?_map_ofRecord (records : List Record) :
    (records.map ofRecord).filterMap record? = records := by
  induction records with
  | nil => rfl
  | cons record rest ih => simp [ih]

end Poll

namespace Fork

variable {υ : Type}

theorem buffer?_start (id : ModuleId) (upstream : υ) (branches branch : Nat) :
    (Fork.start id upstream branches).buffer? branch =
      if branch < branches then some [] else none := by
  simp only [buffer?, Fork.start, List.getElem?_replicate]
  split <;> rfl

theorem buffer?_set (fork : Fork υ) (branch other : Nat) (buffer : Option (List Record))
    (hbranch : branch < fork.branches) :
    { fork with buffers := fork.buffers.set branch buffer }.buffer? other =
      if other = branch then buffer else fork.buffer? other := by
  simp only [buffer?, List.getElem?_set]
  split
  next heq =>
    subst heq
    have hlt : branch < fork.buffers.length := hbranch
    rw [if_pos rfl, if_pos hlt]
    rfl
  next hne => rw [if_neg (Ne.symm hne)]

theorem lt_branches_of_buffer? {fork : Fork υ} {branch : Nat} {buffer : List Record}
    (h : fork.buffer? branch = some buffer) : branch < fork.branches := by
  by_contra hge
  rw [buffer?, List.getElem?_eq_none (Nat.le_of_not_lt hge)] at h
  cases h

theorem buffer?_spread (fork : Fork υ) (taker branch : Nat) (record : Record) :
    (fork.spread taker record).buffer? branch =
      if branch = taker then fork.buffer? branch
      else (fork.buffer? branch).map (· ++ [record]) := by
  simp only [buffer?, spread, List.getElem?_mapIdx]
  cases fork.buffers[branch]? with
  | none => simp
  | some buffer =>
      by_cases heq : branch = taker
      · simp [heq]
      · simp [heq]

@[simp]
theorem buffer?_rouse (fork : Fork υ) (waker branch : Nat) :
    (fork.rouse waker).buffer? branch = fork.buffer? branch := rfl

/-- A branch that is given up loses its buffer, and no other branch does. -/
theorem buffer?_drop (fork : Fork υ) (branch other : Nat) :
    (fork.drop branch).2.buffer? other =
      if other = branch then none else fork.buffer? other := by
  simp only [Fork.drop, buffer?_rouse]
  by_cases hbranch : branch < fork.branches
  · exact fork.buffer?_set branch other none hbranch
  · have hsame : fork.buffers.set branch none = fork.buffers :=
      List.set_eq_of_length_le (Nat.le_of_not_lt hbranch)
    simp only [buffer?, hsame]
    split
    next heq =>
      rw [heq, List.getElem?_eq_none (Nat.le_of_not_lt hbranch)]
      rfl
    next => rfl

theorem buffer?_close (fork : Fork υ) (branch : Nat) :
    fork.close.buffer? branch = if branch < fork.handedOut then fork.buffer? branch else none := by
  simp only [buffer?, close, List.getElem?_mapIdx]
  cases fork.buffers[branch]? with
  | none => simp
  | some buffer =>
      by_cases hlt : branch < fork.handedOut
      · simp [hlt]
      · simp [hlt]

/-- The places of the branches, handed out or not, stay the same. -/
structure SameBranches (before after : Fork υ) : Prop where
  branches : after.branches = before.branches
  handedOut : after.handedOut = before.handedOut

end Fork

/-- An upstream that gives the polls of a sequence one after the other. Its state is the number of
times that it has been asked. -/
def Poll.ofSequence (answers : Nat → Poll) (position : Nat) : Id (Poll × Nat) :=
  (answers position, position + 1)

namespace Fork

/-- How asking a branch comes out, with the poll and the fork afterwards. -/
inductive Pulled (answers : Nat → Poll) (fork : Fork Nat) (branch : Nat) :
    Poll → Fork Nat → Prop
  | served {next : Fork Nat} (record : Record) (rest : List Record)
      (hbuffer : fork.buffer? branch = some (record :: rest))
      (hsame : SameBranches fork next)
      (hupstream : next.upstream = fork.upstream) (hdry : next.dry = fork.dry)
      (hnext : ∀ other, next.buffer? other =
        if other = branch then some rest else fork.buffer? other) :
      Pulled answers fork branch (.ofRecord record) next
  | spent (hbuffer : (fork.buffer? branch).getD [] = []) (hdry : fork.dry = true) :
      Pulled answers fork branch .ended fork
  | drawn {poll : Poll} {next : Fork Nat} (hpoll : answers fork.upstream = poll)
      (hbuffer : (fork.buffer? branch).getD [] = []) (hdry : fork.dry = false)
      (hsame : SameBranches fork next)
      (hupstream : next.upstream = fork.upstream + 1)
      (hended : next.dry = true ↔ poll = .ended)
      (hnext : ∀ other, next.buffer? other = if other = branch then fork.buffer? other else
        (fork.buffer? other).map (· ++ poll.record?.toList)) :
      Pulled answers fork branch poll next

theorem settle_poll {υ : Type} (fork : Fork υ) (branch : Nat) (poll : Poll) :
    (fork.settle branch poll).poll = poll := by
  cases poll with
  | answer answer => cases answer <;> rfl
  | _ => rfl

/-- Asking the upstream changes the buffers only where it gives a record. -/
theorem pulled_settle (answers : Nat → Poll) (fork : Fork Nat) (branch : Nat) {poll : Poll}
    (hpoll : answers fork.upstream = poll)
    (hbuffer : (fork.buffer? branch).getD [] = []) (hdry : fork.dry = false) :
    Pulled answers fork branch poll
      ({ fork with upstream := fork.upstream + 1 }.settle branch poll).fork := by
  have hkeep (other : Nat) : fork.buffer? other = if other = branch then fork.buffer? other else
      (fork.buffer? other).map (· ++ []) := by
    split
    · rfl
    · cases fork.buffer? other <;> simp
  cases poll with
  | pending => exact .drawn hpoll hbuffer hdry ⟨rfl, rfl⟩ rfl (by simp [settle, hdry]) hkeep
  | ended => exact .drawn hpoll hbuffer hdry ⟨rfl, rfl⟩ rfl (by simp [settle]) hkeep
  | answer answer =>
      cases answer with
      | error error =>
          exact .drawn hpoll hbuffer hdry ⟨rfl, rfl⟩ rfl (by simp [settle, hdry]) hkeep
      | ok record =>
          refine .drawn hpoll hbuffer hdry ⟨?_, rfl⟩ rfl ?_ ?_
          · exact List.length_mapIdx
          · simp [settle, hdry, spread, rouse]
          · intro other
            exact buffer?_spread _ branch other record

/-- Asking a branch comes out in one of the three ways. -/
theorem poll_pulled (answers : Nat → Poll) (fork : Fork Nat) (branch : Nat) :
    Pulled answers fork branch (fork.poll (Poll.ofSequence answers) branch).poll
      (fork.poll (Poll.ofSequence answers) branch).fork := by
  have hdraw (hbuffer : (fork.buffer? branch).getD [] = [])
      (hpoll : fork.poll (Poll.ofSequence answers) branch =
        if fork.dry then ⟨.ended, [], fork⟩
        else { fork with upstream := fork.upstream + 1 }.settle branch (answers fork.upstream)) :
      Pulled answers fork branch (fork.poll (Poll.ofSequence answers) branch).poll
        (fork.poll (Poll.ofSequence answers) branch).fork := by
    rw [hpoll]
    cases hdry : fork.dry with
    | true => exact .spent hbuffer hdry
    | false =>
        simp only [Bool.false_eq_true, if_false, settle_poll]
        have hsettle := pulled_settle answers fork branch rfl hbuffer hdry
        rw [hdry] at hsettle
        exact hsettle
  cases hbuffer : fork.buffer? branch with
  | none =>
      apply hdraw (by rw [hbuffer]; rfl)
      simp only [poll, hbuffer]
      rfl
  | some buffer =>
      cases buffer with
      | nil =>
          apply hdraw (by rw [hbuffer]; rfl)
          simp only [poll, hbuffer]
          rfl
      | cons record rest =>
          have hpoll : fork.poll (Poll.ofSequence answers) branch =
              ⟨.ofRecord record, [],
                { fork with buffers := fork.buffers.set branch (some rest) }⟩ := by
            simp only [poll, hbuffer]
            rfl
          rw [hpoll]
          refine .served record rest hbuffer ⟨?_, rfl⟩ rfl rfl ?_
          · exact List.length_set
          · intro other
            exact fork.buffer?_set branch other (some rest) (lt_branches_of_buffer? hbuffer)

end Fork

end Pipework
