import Mathlib
import Pipework.Stage.Basic

/-! # Junctions by what their consumers can tell

To its consumers a junction is what waits in its buffers and whether it has ended. `outline` keeps
that and forgets the upstream and who asks to be woken; what asking a junction does to its outline
depends on the outline only.
-/

namespace Pipework

namespace Junction

variable {σ : Type}

def upstream : Junction σ → σ
  | .fork held => held.upstream
  | .tap held => held.upstream

/-- The upstream has ended. -/
def dry : Junction σ → Bool
  | .fork held => held.dry
  | .tap held => held.dry

/-- What waits for a consumer. -/
def waitingFor (index : Nat) : Junction σ → List Record
  | .fork held => (held.buffer? index).getD []
  | .tap _ => []

/-- The junction once a consumer has taken what waited for it, up to a rest. -/
def serve (index : Nat) (rest : List Record) : Junction σ → Junction σ
  | .fork held => .fork { held with buffers := held.buffers.set index (some rest) }
  | .tap held => .tap held

/-- The junction once its upstream has been asked on behalf of a consumer. -/
def settle (index : Nat) (asked : σ) (poll : Poll) : Junction σ → Junction σ
  | .fork held => .fork ({ held with upstream := asked }.settle index poll).fork
  | .tap held => .tap ({ held with upstream := asked }.settle index poll).tap

/-- The junction with another upstream. -/
def renew (upstream : σ) : Junction σ → Junction σ
  | .fork held => .fork { held with upstream }
  | .tap held => .tap { held with upstream }

/-- The junction without its upstream and without those who ask to be woken. -/
def outline : Junction σ → Junction Unit
  | .fork held => .fork { held with upstream := (), waiting := [] }
  | .tap held => .tap { held with upstream := (), waiting := [] }

@[simp]
theorem dry_outline (junction : Junction σ) : junction.outline.dry = junction.dry := by
  cases junction <;> rfl

@[simp]
theorem waitingFor_outline (junction : Junction σ) (index : Nat) :
    junction.outline.waitingFor index = junction.waitingFor index := by
  cases junction <;> rfl

@[simp]
theorem outline_serve (junction : Junction σ) (index : Nat) (rest : List Record) :
    (junction.serve index rest).outline = junction.outline.serve index rest := by
  cases junction <;> rfl

@[simp]
theorem upstream_serve (junction : Junction σ) (index : Nat) (rest : List Record) :
    (junction.serve index rest).upstream = junction.upstream := by
  cases junction <;> rfl

@[simp]
theorem upstream_settle (junction : Junction σ) (index : Nat) (asked : σ) (poll : Poll) :
    (junction.settle index asked poll).upstream = asked := by
  cases junction with
  | fork fork =>
      cases poll with
      | pending => rfl
      | ended => rfl
      | answer answer => cases answer <;> rfl
  | tap tap =>
      cases poll with
      | pending =>
          simp only [settle, Tap.settle]
          split <;> rfl
      | ended => rfl
      | answer answer => rfl

@[simp]
theorem upstream_renew (junction : Junction σ) (upstream : σ) :
    (junction.renew upstream).upstream = upstream := by
  cases junction <;> rfl

@[simp]
theorem outline_renew (junction : Junction σ) (upstream : σ) :
    (junction.renew upstream).outline = junction.outline := by
  cases junction <;> rfl

@[simp]
theorem settle_renew (junction : Junction σ) (upstream asked : σ) (index : Nat) (poll : Poll) :
    (junction.renew upstream).settle index asked poll = junction.settle index asked poll := by
  cases junction <;> rfl

theorem outline_settle (junction : Junction σ) (index : Nat) (asked : σ) (poll : Poll) :
    (junction.settle index asked poll).outline
      = (junction.outline.settle index () poll).outline := by
  cases junction with
  | fork fork =>
      cases poll with
      | pending => rfl
      | ended => rfl
      | answer answer => cases answer <;> rfl
  | tap tap =>
      cases poll with
      | pending =>
          simp only [settle, outline, Tap.settle]
          split <;> rfl
      | ended => rfl
      | answer answer => rfl

/-- Nothing but the upstream has changed for the consumers of a junction that have to wait. -/
@[simp]
theorem outline_settle_pending (junction : Junction σ) (index : Nat) (asked : σ) :
    (junction.settle index asked .pending).outline = junction.outline := by
  cases junction with
  | fork fork => rfl
  | tap tap =>
      simp only [settle, outline, Tap.settle]
      split <;> rfl

@[simp]
theorem dry_settle_ended (junction : Junction σ) (index : Nat) (asked : σ) :
    (junction.settle index asked .ended).dry = true := by
  cases junction <;> rfl

@[simp]
theorem waitingFor_settle_ended (junction : Junction σ) (index other : Nat) (asked : σ) :
    (junction.settle index asked .ended).waitingFor other = junction.waitingFor other := by
  cases junction <;> rfl

section Same

variable {first second : Junction σ}

theorem dry_eq (h : first.outline = second.outline) : first.dry = second.dry := by
  rw [← dry_outline first, h, dry_outline]

theorem waitingFor_eq (h : first.outline = second.outline) (index : Nat) :
    first.waitingFor index = second.waitingFor index := by
  rw [← waitingFor_outline first, h, waitingFor_outline]

theorem outline_serve_eq (h : first.outline = second.outline) (index : Nat)
    (rest : List Record) :
    (first.serve index rest).outline = (second.serve index rest).outline := by
  rw [outline_serve, outline_serve, h]

theorem outline_settle_eq (h : first.outline = second.outline) (index : Nat) (asked other : σ)
    (poll : Poll) :
    (first.settle index asked poll).outline = (second.settle index other poll).outline := by
  rw [outline_settle first, outline_settle second, h]

/-- A junction with the outline of a fork is one. -/
theorem eq_fork {fork : Fork σ} (h : (Junction.fork fork).outline = second.outline) :
    ∃ other : Fork σ, second = .fork other ∧ fork.id = other.id ∧ fork.buffers = other.buffers ∧
      fork.handedOut = other.handedOut ∧ fork.dry = other.dry := by
  cases second with
  | fork other =>
      injection h with h
      injection h with hid _ hbuffers _ hhandedOut hdry
      exact ⟨other, rfl, hid, hbuffers, hhandedOut, hdry⟩
  | tap tap => cases h

theorem eq_tap {tap : Tap σ} (h : (Junction.tap tap).outline = second.outline) :
    ∃ other : Tap σ, second = .tap other ∧ tap.dry = other.dry := by
  cases second with
  | fork fork => cases h
  | tap other =>
      injection h with h
      injection h with _ _ hdry
      exact ⟨other, rfl, hdry⟩

end Same

end Junction

end Pipework
