import Pipework.Answer

/-!
# Splits

A fork hands the records of one upstream to each of its branches. The branches ask at their own
pace: a record that one branch takes from the upstream waits in the buffers of all the others, so
no branch misses one. An error goes to the branch that met it and to no other. A branch that had to
wait for the upstream leaves a request to be woken, and whoever moves the upstream on wakes it.
-/

namespace Pipework

/-- One upstream and the buffers of its branches. -/
structure Fork (υ : Type) where
  id : ModuleId
  upstream : υ
  /-- The records that wait for each branch; a branch that is gone has no buffer. -/
  buffers : List (Option (List Record))
  /-- Whether each branch asks to be woken. -/
  waiting : List Bool
  /-- How many branches have been handed out. -/
  handedOut : Nat
  /-- Whether the upstream has ended. -/
  dry : Bool

namespace Fork

variable {υ : Type}

/-- A fork none of whose branches has been handed out. -/
def start (id : ModuleId) (upstream : υ) (branches : Nat) : Fork υ :=
  { id, upstream
    buffers := List.replicate branches (some [])
    waiting := List.replicate branches false
    handedOut := 0
    dry := false }

/-- The number of branches. -/
def branches (fork : Fork υ) : Nat :=
  fork.buffers.length

/-- Hands out the next branch. -/
def attach (fork : Fork υ) : Except PipeError (Nat × Fork υ) :=
  if fork.handedOut < fork.branches then
    .ok (fork.handedOut, { fork with handedOut := fork.handedOut + 1 })
  else .error (.noBranchLeft fork.id fork.branches)

/-- The buffer of a branch; nothing for a branch that is gone. -/
def buffer? (fork : Fork υ) (branch : Nat) : Option (List Record) :=
  fork.buffers[branch]?.join

/-- Puts a record into every buffer but that of one branch. -/
def spread (fork : Fork υ) (taker : Nat) (record : Record) : Fork υ :=
  { fork with
    buffers := fork.buffers.mapIdx fun branch buffer =>
      if branch = taker then buffer else buffer.map fun records => records ++ [record] }

/-- The branches other than one that ask to be woken. -/
def sleepers (fork : Fork υ) (waker : Nat) : List Nat :=
  (List.range fork.waiting.length).filter fun branch =>
    branch != waker && fork.waiting[branch]?.getD false

/-- Takes back the requests of all branches but one. -/
def rouse (fork : Fork υ) (waker : Nat) : Fork υ :=
  { fork with
    waiting := fork.waiting.mapIdx fun branch asks => branch == waker && asks }

/-- What came of asking a branch, and which other branches are woken by it. -/
structure Outcome (υ : Type) where
  poll : Poll
  woken : List Nat
  fork : Fork υ

/-- The state after the upstream has been asked on behalf of a branch. -/
def settle (fork : Fork υ) (branch : Nat) (poll : Poll) : Outcome υ :=
  match poll with
  | .answer (.ok record) =>
      ⟨poll, fork.sleepers branch, (fork.spread branch record).rouse branch⟩
  | .answer (.error _) => ⟨poll, [], fork⟩
  | .ended =>
      ⟨poll, fork.sleepers branch, { fork.rouse branch with dry := true }⟩
  | .pending => ⟨poll, [], { fork with waiting := fork.waiting.set branch true }⟩

/-- Asks a branch: its buffer comes first, then the upstream, which is not asked again after it has
ended. -/
def poll {m : Type → Type} [Monad m] (ask : υ → m (Poll × υ)) (fork : Fork υ)
    (branch : Nat) : m (Outcome υ) :=
  match fork.buffer? branch with
  | some (record :: rest) =>
      pure ⟨.answer (.ok record), [],
        { fork with buffers := fork.buffers.set branch (some rest) }⟩
  | _ =>
      if fork.dry then pure ⟨.ended, [], fork⟩
      else do
        let (poll, upstream) ← ask fork.upstream
        return { fork with upstream }.settle branch poll

/-- Gives up a branch. Its buffer is gone, and the other branches that wait are woken. -/
def drop (fork : Fork υ) (branch : Nat) : List Nat × Fork υ :=
  let gone : Fork υ := { fork with
    buffers := fork.buffers.set branch none
    waiting := fork.waiting.set branch false }
  (gone.sleepers branch, gone.rouse branch)

/-- The number of branches that have not been handed out. -/
def unused (fork : Fork υ) : Nat :=
  fork.branches - fork.handedOut

/-- Stops buffering for the branches that have not been handed out. -/
def close (fork : Fork υ) : Fork υ :=
  { fork with
    buffers := fork.buffers.mapIdx fun branch buffer =>
      if branch < fork.handedOut then buffer else none }

end Fork

end Pipework
