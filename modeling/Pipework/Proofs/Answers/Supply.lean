import Pipework.Proofs.Mode.Running

/-! # What stages supply

A stage, of whatever kind, is asked again whenever its alarm goes off, until it has an answer or has
ended. Asked like that over and over it supplies a row of answers and ends. It supplies one row only.
-/

namespace Pipework

variable {setting : Setting}

namespace Scene

/-- What asking a stage comes to if it is asked until it does not have to wait. -/
inductive Attains (setting : Setting) : Scene → Poll → Scene → Prop
  | ready {before after : Scene} {poll : Poll} (h : Settles setting before poll after)
      (hready : poll ≠ .pending) : Attains setting before poll after
  | again {before waiting after : Scene} {poll : Poll} {time : Nat}
      (h : Settles setting before .pending waiting) (halarm : waiting.world.alarm = some time)
      (hrest : Attains setting (waiting.wake time) poll after) : Attains setting before poll after

/-- The answers that a stage gives one after the other before it ends. -/
inductive Supplies (setting : Setting) : Scene → List Answer → Scene → Prop
  | ended {before after : Scene} (h : Attains setting before .ended after) :
      Supplies setting before [] after
  | answer {before middle after : Scene} {answer : Answer} {answers : List Answer}
      (h : Attains setting before (.answer answer) middle)
      (hrest : Supplies setting middle answers after) :
      Supplies setting before (answer :: answers) after

variable {before after last asked : Scene} {poll given out : Poll}
  {stage next : Stage} {junctions : List (Junction Stage)} {world later : World}

namespace Attains

theorem of_awaits (h : Awaits setting before poll after) : Attains setting before poll after := by
  induction h with
  | ready h hready => exact .ready h.settles hready
  | again h halarm _ ih => exact .again h.settles halarm ih

theorem deterministic (h : Attains setting before poll after)
    (hother : Attains setting before given last) : poll = given ∧ after = last := by
  induction h with
  | ready h hready =>
      cases hother with
      | ready hother _ => exact h.deterministic hother
      | again hother _ _ => exact absurd (h.deterministic hother).1 hready
  | again h halarm _ ih =>
      cases hother with
      | ready hother hready => exact absurd (h.deterministic hother).1.symm hready
      | again hother hset hrest =>
          obtain ⟨-, rfl⟩ := h.deterministic hother
          cases halarm.symm.trans hset
          exact ih hrest

/-- Whoever asks a stage that waits waits with it. -/
theorem stop (h : Attains setting before poll asked) (hole : Hole)
    (hreact : hole.react setting.now poll asked.stage = .stop out next) :
    Attains setting ⟨hole.fill before.stage, before.junctions, before.world⟩ out
      ⟨next, asked.junctions, asked.world⟩ := by
  induction h with
  | ready h hready =>
      refine .ready (h.stop hreact) ?_
      rintro rfl
      exact hready (Hole.react_ne_pending hreact)
  | again h halarm _ ih => exact .again (h.stop (Hole.react_pending ..)) halarm (ih hreact)

theorem go (h : Attains setting before poll asked) (hole : Hole)
    (hreact : hole.react setting.now poll asked.stage = .go next)
    (hrest : Attains setting ⟨next, asked.junctions, asked.world⟩ out after) :
    Attains setting ⟨hole.fill before.stage, before.junctions, before.world⟩ out after := by
  induction h with
  | ready h _ =>
      cases hrest with
      | ready hlast hready => exact .ready (h.go hreact hlast) hready
      | again hnext halarm hrest => exact .again (h.go hreact hnext) halarm hrest
  | again h halarm _ ih => exact .again (h.stop (Hole.react_pending ..)) halarm (ih hreact hrest)

theorem move (hmoves : stage.Moves setting world next later)
    (h : Attains setting ⟨next, junctions, later⟩ poll after) :
    Attains setting ⟨stage, junctions, world⟩ poll after := by
  cases h with
  | ready h hready => exact .ready (h.move hmoves) hready
  | again h halarm hrest => exact .again (h.move hmoves) halarm hrest

end Attains

namespace Supplies

variable {answers others : List Answer}

theorem deterministic (h : Supplies setting before answers after)
    (hother : Supplies setting before others last) : answers = others ∧ after = last := by
  induction h generalizing others with
  | ended h =>
      cases hother with
      | ended hother => exact ⟨rfl, (h.deterministic hother).2⟩
      | answer hother _ => cases (h.deterministic hother).1
  | answer h _ ih =>
      cases hother with
      | ended hother => cases (h.deterministic hother).1
      | answer hother hrest =>
          obtain ⟨hanswer, rfl⟩ := h.deterministic hother
          cases hanswer
          obtain ⟨rfl, rfl⟩ := ih hrest
          exact ⟨rfl, rfl⟩

/-- The row that a stage supplies is the only one. -/
theorem iff_eq (h : Supplies setting before answers after) (others : List Answer) :
    (∃ last, Supplies setting before others last) ↔ others = answers := by
  constructor
  · rintro ⟨last, hother⟩
    exact (hother.deterministic h).1
  · rintro rfl
    exact ⟨after, h⟩

/-- A stage that comes to what another comes to supplies what the other supplies. -/
theorem of_attains {start : Scene} (h : Supplies setting before answers after)
    (hattains : ∀ poll after, Attains setting before poll after →
      Attains setting start poll after) : Supplies setting start answers after := by
  cases h with
  | ended h => exact .ended (hattains _ _ h)
  | answer h hrest => exact .answer (hattains _ _ h) hrest

/-- The attribution of errors changes nothing of records. -/
theorem tagged {records : List Record} (id : ModuleId) (index : Nat)
    (h : Supplies setting before (records.map .ok) after) :
    ∃ reached, Supplies setting ⟨.tagged id index before.stage, before.junctions, before.world⟩
      (records.map .ok) ⟨.tagged id reached after.stage, after.junctions, after.world⟩ := by
  generalize hanswers : records.map Except.ok = answers at h
  induction h generalizing records index with
  | ended h => exact ⟨index, .ended (h.stop (.tagged id index) rfl)⟩
  | @answer _ _ _ _ answers h _ ih =>
      obtain ⟨record, rest, rfl, rfl, rfl⟩ := List.map_eq_cons_iff.mp hanswers
      obtain ⟨reached, hrest⟩ := ih (index + 1) rfl
      exact ⟨reached, .answer (h.stop (.tagged id index) rfl) hrest⟩

end Supplies

end Scene

end Pipework
