import Pipework.Fanout.Tap
import Pipework.Fanout.Fork

/-!
# Consumers of a fan-out

A fan-out together with the handles of its consumers, driven by commands: consumers are attached,
ask and go away in any order, and the source may go away before they do. The handles of a fork
are its branches.
-/

namespace Pipework.Fanout

/-- What the consumers of a fan-out share. -/
inductive Source (υ : Type) where
  | fork (fork : Fork υ)
  | tap (tap : Tap υ)

/-- A fan-out and its handles. -/
structure Consumers (υ : Type) where
  source : Source υ
  /-- For every handle so far, whether its consumer is still there. -/
  handles : List Bool
  /-- Whether further consumers may be attached. -/
  hasSource : Bool

/-- A step in the life of a fan-out. -/
inductive Command where
  | attach
  | pull (handle : Nat)
  | drop (handle : Nat)
  | close
  | dropSource
deriving DecidableEq, Inhabited

/-- What a command comes to. -/
inductive Reply where
  | handedOut (handle : Nat)
  | failed (error : PipeError)
  | polled (poll : Poll)
  | dropped (found : Bool)
  | closed (unused branches : Nat)
  /-- The command makes no sense now. -/
  | impossible

/-- What a command comes to, and the handles that it wakes. -/
structure Result (υ : Type) where
  reply : Reply
  woken : List Nat
  consumers : Consumers υ

namespace Consumers

variable {υ : Type}

/-- A fan-out without consumers. -/
def start (source : Source υ) : Consumers υ :=
  { source, handles := [], hasSource := true }

/-- Whether the consumer of a handle is there. -/
def isLive (consumers : Consumers υ) (handle : Nat) : Bool :=
  consumers.handles[handle]?.getD false

/-- Attaches a consumer. -/
def attach (consumers : Consumers υ) : Result υ :=
  let handle := consumers.handles.length
  if consumers.hasSource then
    let joined (source : Source υ) : Consumers υ :=
      { consumers with source, handles := consumers.handles ++ [true] }
    match consumers.source with
    | .fork fork =>
        match fork.attach with
        | .ok (_, fork) => ⟨.handedOut handle, [], joined (.fork fork)⟩
        | .error error => ⟨.failed error, [], consumers⟩
    | .tap tap => ⟨.handedOut handle, [], joined (.tap tap)⟩
  else ⟨.failed (.module .sourceDropped), [], consumers⟩

/-- Asks on behalf of a handle. -/
def pull {m : Type → Type} [Monad m] (ask : υ → m (Poll × υ)) (consumers : Consumers υ)
    (handle : Nat) : m (Result υ) :=
  if consumers.isLive handle then
    match consumers.source with
    | .fork fork => do
        let outcome ← fork.poll ask handle
        return ⟨.polled outcome.poll, outcome.woken,
          { consumers with source := .fork outcome.fork }⟩
    | .tap tap => do
        let outcome ← tap.poll ask handle
        return ⟨.polled outcome.poll, outcome.woken,
          { consumers with source := .tap outcome.tap }⟩
  else return ⟨.impossible, [], consumers⟩

/-- Takes a consumer away. -/
def drop (consumers : Consumers υ) (handle : Nat) : Result υ :=
  if consumers.isLive handle then
    let handles := consumers.handles.set handle false
    match consumers.source with
    | .fork fork =>
        let (woken, fork) := fork.drop handle
        ⟨.dropped true, woken, { consumers with source := .fork fork, handles }⟩
    | .tap _ => ⟨.dropped true, [], { consumers with handles }⟩
  else if handle < consumers.handles.length then ⟨.dropped false, [], consumers⟩
  else ⟨.impossible, [], consumers⟩

/-- Stops buffering for branches that nobody has. -/
def close (consumers : Consumers υ) : Result υ :=
  match consumers.source, consumers.hasSource with
  | .fork fork, true =>
      ⟨.closed fork.unused fork.branches, [],
        { consumers with source := .fork fork.close }⟩
  | _, _ => ⟨.impossible, [], consumers⟩

/-- Carries out a command. -/
def step {m : Type → Type} [Monad m] (ask : υ → m (Poll × υ)) (consumers : Consumers υ) :
    Command → m (Result υ)
  | .attach => pure consumers.attach
  | .pull handle => consumers.pull ask handle
  | .drop handle => pure (consumers.drop handle)
  | .close => pure consumers.close
  | .dropSource =>
      pure ⟨.dropped consumers.hasSource, [], { consumers with hasSource := false }⟩

/-- Carries out commands one after the other. -/
def run {m : Type → Type} [Monad m] (ask : υ → m (Poll × υ)) (consumers : Consumers υ) :
    List Command → m (List (Reply × List Nat))
  | [] => return []
  | command :: rest => do
      let result ← consumers.step ask command
      return (result.reply, result.woken) :: (← run ask result.consumers rest)

end Consumers

end Pipework.Fanout
