import Pipework.Proofs.Isolation.Asking
import Pipework.Proofs.Loop.Working
import Pipework.Proofs.Subpipe.Isolation

/-! # Invocations that repeat

A stage that asks the user nothing and refers to no junctions but its own gives the same wherever it
stands. So does an embedded module that is built of itself alone: every invocation for a record
comes to the same, and nothing of it remains but what has been read, reported and counted.
-/

namespace Pipework

variable {setting : Setting} {known : Pipe → Prop} {mode : Mode}

open Scene (Attains Collects Gives)

/-- A computation that mirrors itself leaves the desk as it is. -/
theorem Run.Mirrors.self {α : Type} {related : α → α → Prop} {computation : Run α}
    {world later : World} {result : α} (h : computation.Mirrors World.desk related computation)
    (hrun : computation.run world = some (result, later)) :
    related result result ∧ later.desk = world.desk := by
  have hboth := @h world world rfl
  rw [hrun] at hboth
  cases hboth with
  | some hreached => exact ⟨hreached.related, hreached.left⟩

/-- Where the desk is as before, nobody has been asked. -/
theorem World.Went.eq_nil_of_desk {before after : World} {asked : List String}
    (h : before.Went asked after) (hdesk : after.desk = before.desk) : asked = [] :=
  h.eq_nil_iff.mpr (congrArg (fun desk => desk.2.2) hdesk)

/-- Whatever junctions stand around a stage that refers to none of them. -/
theorem Scene.Gives.beside (hcloses : setting.registry.Closes known) {before after : Scene}
    {poll : Poll} (h : Gives setting before poll after) (hplain : before.Plain known mode 0)
    (junctions : List (Junction Stage)) :
    Gives setting { before with junctions } poll { after with junctions } := by
  induction h with
  | ready hready => exact .ready hready
  | dry hdry =>
      refine .dry ?_
      cases hdry with
      | once => exact .once
      | tally => exact .tally _ _
      | batches => exact .batches _ _
      | consumer hrefers =>
          obtain ⟨-, hplace⟩ := hplain.stage.refers hrefers
          exact absurd hplace (Nat.not_lt_zero _)
  | wait hwait hwake => exact .wait hwait hwake
  | move hmove _ ih => exact .move hmove (ih (hplain.moved hcloses hmove))
  | @stop hole _ _ _ _ _ _ _ _ hreact ih =>
      have hinner := hplain.inner
      rw [Nat.le_zero.mp (hole.scope_le 0)] at hinner
      exact .stop (ih hinner) hreact
  | @go hole _ _ _ _ _ _ _ _ hask hreact _ ih ihrest =>
      obtain ⟨hasked, hkeeps⟩ := hask.keeps hcloses hplain.inner
      have hnext := hplain.reacted hasked hkeeps (congrArg Reaction.stage hreact)
      have hinner := hplain.inner
      rw [Nat.le_zero.mp (hole.scope_le 0)] at hinner
      exact .go (ih hinner) hreact (ihrest hnext)
  | closed hask => exact .closed hask
  | buffered hrefers =>
      obtain ⟨-, hplace⟩ := hplain.stage.refers hrefers
      exact absurd hplace (Nat.not_lt_zero _)
  | shared hrefers =>
      obtain ⟨-, hplace⟩ := hplain.stage.refers hrefers
      exact absurd hplace (Nat.not_lt_zero _)

/-- The stage of a pipe that refers to no junctions but its own and never asks the user. -/
structure Stage.Quiet (known : Pipe → Prop) (mode : Mode) (stage : Stage) : Prop where
  alone : stage.Alone known mode
  akin : stage.Akin stage

namespace Stage.Quiet

variable (hcloses : setting.registry.Closes known)

include hcloses

theorem gives {stage : Stage} {world : World} {poll : Poll} {after : Scene}
    (hquiet : stage.Quiet known mode) (h : Gives setting ⟨stage, [], world⟩ poll after) :
    after.junctions = [] ∧ after.stage.Quiet known mode ∧ after.world.desk = world.desk := by
  obtain ⟨hafter, hkeeps⟩ := h.keeps hcloses (hquiet.alone world)
  have hjunctions := List.length_eq_zero_iff.mp hkeeps.length
  obtain ⟨least, hcomes⟩ := h.settles.poll
  have hmirrors := Stage.poll_mirrors setting least hquiet.akin List.Forall₂.nil
  obtain ⟨⟨hasked, -⟩, hdesk⟩ := hmirrors.self (hcomes least (Nat.le_refl least))
  obtain ⟨next, junctions, later⟩ := after
  cases hjunctions
  exact ⟨rfl, ⟨fun other => hafter.elsewhere other, hasked.rest⟩, hdesk⟩

/-- What a quiet stage gives it gives everywhere. -/
theorem repeats {stage : Stage} {world : World} {poll : Poll} {after : Scene}
    (hquiet : stage.Quiet known mode) (h : Gives setting ⟨stage, [], world⟩ poll after)
    (junctions : List (Junction Stage)) (other : World) :
    ∃ later, later.desk = other.desk ∧
      Gives setting ⟨stage, junctions, other⟩ poll ⟨after.stage, junctions, later⟩ := by
  obtain ⟨-, -, hdesk⟩ := hquiet.gives hcloses h
  obtain ⟨asked, hasked, hrepeats⟩ := h.repeats
  obtain ⟨later, -, hother⟩ := hrepeats (hasked.eq_nil_of_desk hdesk) other
  obtain ⟨-, -, hlater⟩ := hquiet.gives hcloses hother
  exact ⟨later, hlater, hother.beside hcloses (hquiet.alone other) junctions⟩

theorem awaits {before after : Scene} {poll : Poll} (h : Scene.Awaits setting before poll after)
    (hquiet : before.stage.Quiet known mode) (hjunctions : before.junctions = []) :
    after.junctions = [] ∧ after.stage.Quiet known mode ∧ ∀ junctions other, ∃ later,
      later.desk = other.desk ∧
        Attains setting ⟨before.stage, junctions, other⟩ poll ⟨after.stage, junctions, later⟩ := by
  induction h with
  | @ready before after poll h hready =>
      obtain ⟨stage, _, world⟩ := before
      cases hjunctions
      obtain ⟨hnone, hnext, -⟩ := hquiet.gives hcloses h
      refine ⟨hnone, hnext, fun junctions other => ?_⟩
      obtain ⟨later, hlater, hgives⟩ := hquiet.repeats hcloses h junctions other
      exact ⟨later, hlater, .ready hgives.settles hready⟩
  | @again before waiting after poll _ h _ _ ih =>
      obtain ⟨stage, _, world⟩ := before
      cases hjunctions
      obtain ⟨hnone, hnext, -⟩ := hquiet.gives hcloses h
      obtain ⟨hafter, hlast, hrest⟩ := ih hnext hnone
      refine ⟨hafter, hlast, fun junctions other => ?_⟩
      obtain ⟨middle, hmiddle, hgives⟩ := hquiet.repeats hcloses h junctions other
      -- There it may be woken at another time, but at once, so that its clock stands still as well.
      obtain ⟨time, halarm, hdue⟩ := hgives.wakes
      obtain ⟨later, hlater, hattains⟩ := hrest junctions
        (Scene.wake ⟨waiting.stage, junctions, middle⟩ time).world
      refine ⟨later, hlater.trans (Eq.trans ?_ hmiddle), .again hgives.settles halarm hattains⟩
      simp only [Scene.wake, World.desk, Nat.max_eq_left hdue]

theorem attains {before after : Scene} {poll : Poll} (h : Attains setting before poll after)
    (hquiet : before.stage.Quiet known mode) (hjunctions : before.junctions = []) :
    after.junctions = [] ∧ after.stage.Quiet known mode ∧ ∀ junctions other, ∃ later,
      later.desk = other.desk ∧
        Attains setting ⟨before.stage, junctions, other⟩ poll ⟨after.stage, junctions, later⟩ := by
  obtain ⟨stage, _, world⟩ := before
  cases hjunctions
  exact awaits hcloses (h.awaits hcloses (hquiet.alone world)) hquiet rfl

/-- What a quiet stage is collected to it is collected to everywhere. -/
theorem collects {before after : Scene} {outcome : Except PipeError (List Record)}
    (h : Collects setting before outcome after) (hquiet : before.stage.Quiet known mode)
    (hjunctions : before.junctions = []) (junctions : List (Junction Stage)) (other : World) :
    ∃ stage later, later.desk = other.desk ∧
      Collects setting ⟨before.stage, junctions, other⟩ outcome ⟨stage, junctions, later⟩ := by
  induction h generalizing other with
  | ended h =>
      obtain ⟨-, -, hevery⟩ := attains hcloses h hquiet hjunctions
      obtain ⟨later, hlater, hthere⟩ := hevery junctions other
      exact ⟨_, later, hlater, .ended hthere⟩
  | failed h =>
      obtain ⟨-, -, hevery⟩ := attains hcloses h hquiet hjunctions
      obtain ⟨later, hlater, hthere⟩ := hevery junctions other
      exact ⟨_, later, hlater, .failed hthere⟩
  | found h _ ih =>
      obtain ⟨hnone, hnext, hevery⟩ := attains hcloses h hquiet hjunctions
      obtain ⟨middle, hmiddle, hthere⟩ := hevery junctions other
      obtain ⟨stage, later, hlater, hrest⟩ := ih hnext hnone middle
      exact ⟨stage, later, hlater.trans hmiddle, .found hthere hrest⟩

end Stage.Quiet

/-- Wherever the module is invoked for the record it comes to the outcome, and the desk and all that
is around the module are as before. -/
def Embed.Always (setting : Setting) (mode : Mode) (embed : Embed Factory) (item : Record)
    (outcome : Except PipeError (List Record)) : Prop :=
  ∀ before : Scene, ∃ later, later.desk = before.world.desk ∧
    embed.Invokes setting mode item before outcome { before with world := later }

end Pipework
