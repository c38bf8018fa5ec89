import Pipework.Proofs.Mode.Running
import Pipework.Proofs.Timeout.Resumable

/-! # Stages that lose nothing

A script is resumable unless it has to wait without naming a time, and so are the stages of pipes
whose modules are built in: those wait only to let others go first, and want to be woken at once.
-/

namespace Pipework

variable {setting : Setting} {stage next : Stage} {world later : World} {poll : Poll}

namespace Script

/-- Wherever the script waits it names a time or waits for good. -/
def Steady (script : Script) : Prop :=
  .skip ∉ script.entries

theorem advance_steady {entries : List Entry} (h : .skip ∉ entries) (clock : Nat)
    (until? : Option Nat) : (advance clock until? entries).script.Steady := by
  induction entries generalizing until? with
  | nil => exact List.not_mem_nil
  | cons entry rest ih =>
      obtain ⟨hentry, hrest⟩ := List.ne_and_not_mem_of_not_mem_cons h
      cases entry with
      | answer answer => exact hrest
      | skip => exact absurd rfl hentry
      | stall => exact h
      | delay milliseconds =>
          unfold advance
          dsimp only
          split
          · exact ih hrest none
          · exact h

/-- A pause under way goes on until its time, however often the script is asked meanwhile. -/
theorem advance_rests {entries : List Entry} (h : .skip ∉ entries) {clock : Nat}
    {until? : Option Nat} (hpending : (advance clock until? entries).poll = .pending) {time : Nat}
    (htime : ∀ wake ∈ (advance clock until? entries).alarm, time < wake) :
    (advance clock until? entries).script.poll time = advance clock until? entries := by
  induction entries generalizing until? with
  | nil => cases hpending
  | cons entry rest ih =>
      obtain ⟨hentry, hrest⟩ := List.ne_and_not_mem_of_not_mem_cons h
      cases entry with
      | answer answer => cases hpending
      | skip => exact absurd rfl hentry
      | stall => rfl
      | delay milliseconds =>
          unfold advance at hpending htime ⊢
          dsimp only at hpending htime ⊢
          split at hpending
          next hover =>
            rw [if_pos hover] at htime ⊢
            exact ih hrest hpending htime
          next hover =>
            -- The script remembers until when it pauses, so that asking early does not start anew.
            rw [if_neg hover] at htime ⊢
            rw [poll, advance]
            dsimp only [Option.getD_some]
            rw [if_neg (Nat.not_le.mpr (htime _ rfl))]

end Script

namespace Stage

/-- Asking a script on its own is going through it at the time of the clock. -/
theorem asks_scripted {script : Script} {time : Nat} :
    (Stage.scripted script).Asks setting (world.at time none) poll next later ↔
      poll = (script.poll time).poll ∧ next = .scripted (script.poll time).script ∧
        later = world.at time (script.poll time).alarm := by
  have hscript : (pollScript script).run (world.at time none) =
      some (((script.poll time).poll, (script.poll time).script),
        world.at time (script.poll time).alarm) := by
    refine run_bind_eq_some_iff.mpr ⟨_, _, rfl, ?_⟩
    have hclock : (world.at time none).clock = time := rfl
    rw [hclock]
    generalize script.poll time = outcome
    obtain ⟨poll, alarm, left⟩ := outcome
    cases alarm <;> rfl
  have hrun (budget : Nat) :
      (PipeRun.askOutput setting (budget + 1) (.scripted script)).run (world.at time none) =
        some (((script.poll time).poll, .scripted (script.poll time).script),
          world.at time (script.poll time).alarm) := by
    have hlift : Flow.Comes (liftM (pollScript script)) [] (world.at time none)
        ((script.poll time).poll, (script.poll time).script) []
        (world.at time (script.poll time).alarm) := Flow.comes_lift.mpr ⟨rfl, hscript⟩
    refine PipeRun.run_askOutput.mpr ⟨[], Flow.comes_bind.mpr ⟨_, _, _, hlift, ?_⟩⟩
    exact Flow.comes_pure.mpr ⟨rfl, rfl, rfl⟩
  constructor
  · rintro ⟨budget, h⟩
    cases budget with
    | zero => cases h
    | succ budget =>
        cases h.symm.trans (hrun budget)
        exact ⟨rfl, rfl, rfl⟩
  · rintro ⟨rfl, rfl, rfl⟩
    exact ⟨1, hrun 0⟩

theorem resumable_scripted {script : Script} (h : script.Steady) :
    (Stage.scripted script).Resumable setting := by
  refine ⟨fun stage => ∃ script : Script, stage = .scripted script ∧ script.Steady,
    ⟨script, rfl, h⟩, ?_⟩
  rintro _ ⟨script, rfl, h⟩ world poll next later hfresh hasks
  rw [World.eq_at hfresh] at hasks
  obtain ⟨rfl, rfl, rfl⟩ := asks_scripted.mp hasks
  refine ⟨⟨_, rfl, Script.advance_steady h _ _⟩, fun hpending time _ htime => ?_⟩
  have hrests : (script.poll world.clock).script.poll time = script.poll world.clock :=
    Script.advance_rests h hpending htime
  refine ⟨(script.poll world.clock).alarm, fun wake hwake => ⟨wake, hwake, le_rfl⟩, ?_⟩
  rw [World.at_at, World.at_at, asks_scripted, hrests, hpending]
  exact ⟨rfl, rfl, rfl⟩

end Stage

/-- The stages of pipes want to be woken at once when they have to wait. -/
theorem Scene.Gives.wakes {before after : Scene} (h : Gives setting before .pending after) :
    ∃ time, after.world.alarm = some time ∧ time ≤ after.world.clock := by
  generalize hpoll : Poll.pending = poll at h
  induction h with
  | ready => cases hpoll
  | dry => cases hpoll
  | wait hwait hwake =>
      cases hwake
      refine ⟨_, rfl, ?_⟩
      dsimp only
      split
      · exact min_le_right _ _
      · exact le_rfl
  | move _ _ ih => exact ih hpoll
  | stop _ hreact ih =>
      subst hpoll
      exact ih (Hole.react_ne_pending hreact).symm
  | go _ _ _ _ ih => exact ih hpoll
  | closed _ ih => exact ih hpoll
  | buffered => cases hpoll
  | shared _ _ _ _ _ ih => exact ih hpoll

/-- The output of a pipe whose modules are built in, or pipes of the same kind, is resumable. -/
theorem Stage.resumable_of_alone {known : Pipe → Prop} {mode : Mode}
    (hcloses : setting.registry.Closes known)
    (halone : stage.Alone known mode) : stage.Resumable setting := by
  refine ⟨Stage.Alone known mode, halone, ?_⟩
  rintro stage halone world poll next later - ⟨budget, hask⟩
  obtain ⟨hgives, hnext⟩ := PipeRun.gives_of_askOutput hcloses halone hask
  refine ⟨hnext, ?_⟩
  rintro rfl time hclock htime
  obtain ⟨wake, halarm, hwake⟩ := hgives.wakes
  -- The alarm is due at once: there is no time before it at which anybody could ask.
  have hbefore := htime wake halarm
  exact absurd (hwake.trans hclock) (Nat.not_le.mpr hbefore)

end Pipework
