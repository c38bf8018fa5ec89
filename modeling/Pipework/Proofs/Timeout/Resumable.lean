import Pipework.Proofs.Stage.Awaiting

/-! # Asking again too early

A stage that has to wait names the time at which asking it again makes sense. A stage is resumable if
asking it before that time comes to nothing once more and takes nothing from it. Then it does not
matter how often it is asked meanwhile: in the end it comes to what it would have come to anyway.
-/

namespace Pipework

variable {setting : Setting} {stage next : Stage} {world later : World} {poll : Poll}

namespace Stage

/-- Before its alarm a stage at rest may be asked: it has to wait, it stays as it is and it sets no
earlier alarm. -/
def Rests (setting : Setting) (stage : Stage) (world : World) : Prop :=
  ∀ time, world.clock ≤ time → (∀ alarm ∈ world.alarm, time < alarm) → ∃ alarm,
    (∀ wake ∈ alarm, ∃ first ∈ world.alarm, first ≤ wake) ∧
      stage.Asks setting (world.at time none) .pending stage (world.at time alarm)

/-- Whenever the stage has to wait it is at rest, now and after it has been asked any number of
times. -/
def Resumable (setting : Setting) (stage : Stage) : Prop :=
  ∃ lives : Stage → Prop, lives stage ∧ ∀ stage, lives stage → ∀ world poll next later,
    world.alarm = none → stage.Asks setting world poll next later →
      lives next ∧ (poll = .pending → next.Rests setting later)

theorem Resumable.keeps (h : stage.Resumable setting) (hfresh : world.alarm = none)
    (hasks : stage.Asks setting world poll next later) : next.Resumable setting := by
  obtain ⟨lives, hlives, hkeeps⟩ := h
  exact ⟨lives, (hkeeps stage hlives world poll next later hfresh hasks).1, hkeeps⟩

theorem Resumable.rests (h : stage.Resumable setting) (hfresh : world.alarm = none)
    (hasks : stage.Asks setting world .pending next later) : next.Rests setting later := by
  obtain ⟨lives, hlives, hkeeps⟩ := h
  exact (hkeeps stage hlives world .pending next later hfresh hasks).2 rfl

theorem Rests.asks {since time : Nat} {alarm : Option Nat}
    (h : stage.Rests setting (world.at since alarm)) (hsince : since ≤ time)
    (halarm : ∀ wake ∈ alarm, time < wake) : ∃ other,
      (∀ wake ∈ other, ∃ first ∈ alarm, first ≤ wake) ∧
        stage.Asks setting (world.at time none) .pending stage (world.at time other) :=
  h time hsince halarm

private theorem late_of_ne {alarm : Option Nat} {time : Nat}
    (hlate : ∀ wake ∈ alarm, ∃ first ∈ some time, first ≤ wake) (hne : alarm ≠ some time) :
    ∀ wake ∈ alarm, time < wake := by
  intro wake hmem
  obtain ⟨_, ⟨⟩, hle⟩ := hlate wake hmem
  refine lt_of_le_of_ne hle ?_
  rintro rfl
  exact hne hmem

namespace Awaits

variable {awaited : Awaited}

/-- A stage that has to wait goes on at the time of its alarm. -/
theorem of_asks {waiting : Stage} {middle : World} {time : Nat}
    (hasks : stage.Asks setting world.fresh .pending waiting middle)
    (halarm : middle.alarm = some time) (hclock : middle.clock ≤ time)
    (h : waiting.Awaits setting (middle.at time none) awaited next later) :
    stage.Awaits setting world awaited next later := by
  refine .again hasks halarm ?_
  rw [max_eq_right hclock]
  exact h

/-- A stage that has to wait sets an alarm, and goes on at its time. -/
theorem of_pending {waiting : Stage} {middle : World}
    (hasks : stage.Asks setting world.fresh .pending waiting middle)
    (h : stage.Awaits setting world awaited next later) : ∃ time, middle.alarm = some time ∧
      waiting.Awaits setting (middle.at (max middle.clock time) none) awaited next later := by
  cases h with
  | ready h hready =>
      obtain ⟨rfl, -, -⟩ := h.deterministic hasks
      exact absurd rfl hready
  | again h halarm hrest =>
      obtain ⟨-, rfl, rfl⟩ := h.deterministic hasks
      exact ⟨_, halarm, hrest⟩

/-- A stage at rest may be asked before its alarm and comes to the same. The induction is on how
often the stage has to be asked from the alarm on. -/
theorem rewind (h : stage.Awaits setting world awaited next later)
    (hstage : stage.Resumable setting) {since time : Nat}
    (hrests : stage.Rests setting (world.at since (some world.clock))) (hsince : since ≤ time)
    (htime : time ≤ world.clock) : stage.Awaits setting (world.at time none) awaited next later := by
  induction h generalizing since time with
  | @ready stage next world later poll h hready =>
      rcases htime.eq_or_lt with rfl | hbefore
      · exact .ready h hready
      obtain ⟨alarm, hlate, hasks⟩ := hrests.asks hsince (by simpa using hbefore)
      refine of_asks hasks ?_ htime (.ready h hready)
      -- With another alarm, which could only be later, it would not be ready in time.
      by_contra halarm
      obtain ⟨_, -, hpending⟩ := (hstage.rests rfl hasks).asks htime (late_of_ne hlate halarm)
      exact hready (h.deterministic hpending).1
  | @again stage waiting next world middle later awaited wake h hset hrest ih =>
      rcases htime.eq_or_lt with rfl | hbefore
      · exact .again h hset hrest
      obtain ⟨alarm, hlate, hasks⟩ := hrests.asks hsince (by simpa using hbefore)
      by_cases halarm : alarm = some world.clock
      · exact of_asks hasks halarm htime (.again h hset hrest)
      -- Its alarm is later, so that it is at rest at the old one as well and has not moved since.
      have hwakes := late_of_ne hlate halarm
      obtain ⟨other, hother, hpending⟩ := (hstage.rests rfl hasks).asks htime hwakes
      obtain ⟨-, rfl, rfl⟩ := h.deterministic hpending
      obtain ⟨first, hfirst, hle⟩ := hother wake hset
      have hclock : world.clock < first := hwakes first hfirst
      cases hset
      have hmax : max world.clock wake = wake := max_eq_right (hclock.le.trans hle)
      have hwaiting : waiting.Rests setting
          (world.at world.clock (some (max world.clock wake))) := by
        rw [hmax]
        exact hstage.rests rfl h
      exact of_asks hasks hfirst (htime.trans hclock.le)
        (ih hstage hwaiting hclock.le (hle.trans hmax.ge))

/-- A stage that has been asked again before its alarm has lost nothing. -/
theorem resume (hstage : stage.Resumable setting) {waiting : Stage} {middle : World} {time : Nat}
    (hasks : stage.Asks setting world.fresh .pending waiting middle) (hclock : middle.clock ≤ time)
    (halarm : ∀ wake ∈ middle.alarm, time ≤ max middle.clock wake)
    (h : waiting.Awaits setting (middle.at time none) awaited next later) :
    stage.Awaits setting world awaited next later := by
  have hwaiting := hstage.keeps rfl hasks
  have hrests := hstage.rests rfl hasks
  cases hset : middle.alarm with
  | none =>
      -- Nobody would ever wake the stage, so it would have to wait for good.
      obtain ⟨other, hnone, hpending⟩ := hrests time hclock (by simp [hset])
      obtain ⟨wake, hwake, -⟩ := of_pending hpending h
      obtain ⟨first, hfirst, -⟩ := hnone wake hwake
      rw [hset] at hfirst
      cases hfirst
  | some wake =>
      rcases (halarm wake hset).eq_or_lt with rfl | hbefore
      · exact .again hasks hset h
      have hwake : time < wake := by omega
      obtain ⟨other, hlate, hpending⟩ := hrests time hclock (by simpa [hset] using hwake)
      obtain ⟨after, hafter, hrest⟩ := of_pending hpending h
      obtain ⟨first, hfirst, hle⟩ := hlate after hafter
      cases hset.symm.trans hfirst
      cases hafter
      have hmax : max time after = after := max_eq_right (hwake.le.trans hle)
      refine of_asks hasks hset (hclock.trans hwake.le) ?_
      have hagain : waiting.Rests setting (middle.at time (some (max time after))) := by
        rw [hmax]
        exact hwaiting.rests rfl hpending
      exact rewind hrest hwaiting hagain hwake.le (hle.trans hmax.ge)

end Awaits

end Stage

end Pipework
