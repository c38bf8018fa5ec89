import Pipework.Answer

/-!
# Shared stages

Several consumers may ask one upstream. Each answer goes to the consumer that asked for it. The
upstream remembers nobody, so the consumers that had to wait are kept here and all of them are
woken as soon as it is ready.
-/

namespace Pipework

/-- One upstream and the consumers that wait for it. -/
structure Tap (υ : Type) where
  upstream : υ
  /-- The consumers that ask to be woken, each once. -/
  waiting : List Nat
  /-- Whether the upstream has ended. -/
  dry : Bool

namespace Tap

variable {υ : Type}

/-- An upstream that nobody waits for. -/
def start (upstream : υ) : Tap υ :=
  { upstream, waiting := [], dry := false }

/-- What came of asking, and which consumers are woken by it. -/
structure Outcome (υ : Type) where
  poll : Poll
  woken : List Nat
  tap : Tap υ

/-- The state after the upstream has been asked on behalf of a consumer. -/
def settle (tap : Tap υ) (consumer : Nat) (poll : Poll) : Outcome υ :=
  match poll with
  | .pending =>
      if tap.waiting.contains consumer then ⟨poll, [], tap⟩
      else ⟨poll, [], { tap with waiting := tap.waiting ++ [consumer] }⟩
  | .ended => ⟨poll, tap.waiting, { tap with waiting := [], dry := true }⟩
  | .answer _ => ⟨poll, tap.waiting, { tap with waiting := [] }⟩

/-- Asks on behalf of a consumer. The upstream is not asked again after it has ended. -/
def poll {m : Type → Type} [Monad m] (ask : υ → m (Poll × υ)) (tap : Tap υ)
    (consumer : Nat) : m (Outcome υ) :=
  if tap.dry then pure ⟨.ended, [], tap⟩
  else do
    let (poll, upstream) ← ask tap.upstream
    return { tap with upstream }.settle consumer poll

end Tap

end Pipework
