import Pipework.Proofs.Mode.Resuming
import Pipework.Proofs.Mode.Soundness
import Pipework.Proofs.Stage.Awaiting
import Pipework.Proofs.Stage.Ending

/-! # Runs without their budgets

What pulling at a run comes to, said by `Scene.Awaits`: `PipeRun.Gives` is one pull and
`PipeRun.Pulls` any number of them. Within a budget a run comes to nothing else, and within every
budget from some budget on it comes to that.
-/

namespace Pipework

variable {known : Pipe → Prop} {mode other : Mode} {setting : Setting}

namespace Scene.Awaits

variable {before after : Scene} {poll : Poll}

theorem ne_pending (h : Awaits setting before poll after) : poll ≠ .pending := by
  induction h with
  | ready _ hready => exact hready
  | again _ _ _ ih => exact ih

theorem keeps (hcloses : setting.registry.Closes known) {bound : Nat}
    (h : Awaits setting before poll after) (hplain : before.Plain known mode bound) :
    after.Plain known mode bound ∧ before.Keeps bound after := by
  induction h with
  | ready h _ => exact h.keeps hcloses hplain
  | again h _ _ ih =>
      obtain ⟨hwaiting, hkeeps⟩ := h.keeps hcloses hplain
      obtain ⟨hafter, hrest⟩ := ih ⟨hwaiting.within, hwaiting.stage, hwaiting.junctions, .rfl⟩
      exact ⟨hafter, hrest.length.trans hkeeps.length,
        fun place hplace => (hrest.beyond place hplace).trans (hkeeps.beyond place hplace)⟩

end Scene.Awaits

/-- A stage of a pipe with nothing around it: it refers to no junctions but its own. -/
def Stage.Alone (known : Pipe → Prop) (mode : Mode) (stage : Stage) : Prop :=
  ∀ world, Scene.Plain known mode 0 ⟨stage, [], world⟩

namespace PipeRun

variable {budget : Nat} {stage next : Stage} {world later : World}

theorem run_askOutput {poll : Poll} :
    (askOutput setting budget stage).run world = some ((poll, next), later) ↔
      ∃ junctions, Scene.Comes (Stage.poll setting budget) ⟨stage, [], world⟩ poll
        ⟨next, junctions, later⟩ := by
  unfold askOutput
  rw [run_bind_eq_some_iff]
  constructor
  · rintro ⟨⟨⟨poll, stage⟩, junctions⟩, middle, hpoll, hpure⟩
    cases hpure
    exact ⟨junctions, hpoll⟩
  · rintro ⟨junctions, h⟩
    exact ⟨((poll, next), junctions), later, h, rfl⟩

/-- What a stage comes to on its own within a budget it gives, and what it leaves is again on its
own. -/
theorem gives_of_askOutput (hcloses : setting.registry.Closes known) (halone : stage.Alone known mode)
    {poll : Poll} (h : (askOutput setting budget stage).run world = some ((poll, next), later)) :
    Scene.Gives setting ⟨stage, [], world⟩ poll ⟨next, [], later⟩ ∧ next.Alone known mode := by
  obtain ⟨junctions, hcomes⟩ := run_askOutput.mp h
  have hgives := Scene.Sound.poll hcloses budget (halone world) hcomes
  obtain ⟨hnext, hkeeps⟩ := hgives.keeps hcloses (halone world)
  cases List.length_eq_zero_iff.mp hkeeps.length
  exact ⟨hgives, fun elsewhere => hnext.elsewhere elsewhere⟩

/-- The induction is on how often the stage may be asked. -/
theorem awaits_of_await (hcloses : setting.registry.Closes known) (asks : Nat) {awaited : Awaited}
    (hplain : Scene.Plain known mode 0 ⟨stage, [], world⟩)
    (h : (Awaited.await (askOutput setting budget) none asks stage).run world =
      some ((awaited, next), later)) :
    ∃ poll : Poll, awaited = poll.awaited ∧
      Scene.Awaits setting ⟨stage, [], world.fresh⟩ poll ⟨next, [], later⟩ := by
  induction asks generalizing stage world with
  | zero => cases h
  | succ asks ih =>
      obtain ⟨poll, reached, middle, hask, hsettled⟩ := run_await_succ.mp h
      obtain ⟨hgives, hreached⟩ :=
        gives_of_askOutput hcloses (fun elsewhere => hplain.elsewhere elsewhere) hask
      cases poll with
      | ended =>
          obtain ⟨rfl, rfl, rfl⟩ := hsettled
          exact ⟨.ended, rfl, .ready hgives (by simp)⟩
      | answer answer =>
          obtain ⟨rfl, rfl, rfl⟩ := hsettled
          exact ⟨.answer answer, rfl, .ready hgives (by simp)⟩
      | pending =>
          rw [Settled, Option.any_none, if_neg Bool.false_ne_true] at hsettled
          obtain ⟨woken, hwait, hrest⟩ := hsettled
          obtain ⟨time, halarm, rfl⟩ := run_waitFor.mp hwait
          rw [Awaited.earlier?_none] at halarm
          obtain ⟨poll, hawaited, hrest⟩ :=
            ih (hreached { middle with clock := max middle.clock time }) hrest
          exact ⟨poll, hawaited, .again hgives halarm hrest⟩

theorem asks_of_gives {before after : Scene} {poll : Poll} (h : Scene.Gives setting before poll after)
    (hjunctions : before.junctions = []) (hfresh : before.world.alarm = none) :
    before.stage.Asks setting before.world.fresh poll after.stage after.world := by
  obtain ⟨least, hcomes⟩ := h.settles.poll
  refine ⟨least, run_askOutput.mpr ⟨after.junctions, ?_⟩⟩
  obtain ⟨stage, junctions, world⟩ := before
  cases hjunctions
  rw [World.fresh_eq hfresh]
  exact hcomes least (Nat.le_refl least)

/-- What a stage gives in the end it comes to on its own. -/
theorem awaits_of_scene {before after : Scene} {poll : Poll}
    (h : Scene.Awaits setting before poll after) (hjunctions : before.junctions = [])
    (hfresh : before.world.alarm = none) :
    before.stage.Awaits setting before.world poll.awaited after.stage after.world := by
  induction h with
  | @ready before after poll h hready =>
      exact .ready (asks_of_gives h hjunctions hfresh) hready
  | @again before waiting after poll time h halarm _ ih =>
      have hempty : waiting.junctions.length = 0 := by rw [h.length_eq, hjunctions, List.length_nil]
      exact .again (asks_of_gives h hjunctions hfresh) halarm
        (ih (List.length_eq_zero_iff.mp hempty) rfl)

/-- What one pull comes to, and the run and the world that it leaves. -/
inductive Gives (setting : Setting) : PipeRun → World → Option Answer → PipeRun → World → Prop
  | finished {run : PipeRun} {world : World} (hfinished : run.finished = true) :
      Gives setting run world none run world
  | ended {run : PipeRun} {world : World} {after : Scene} (hopen : run.finished = false)
      (h : Scene.Awaits setting ⟨run.stage, [], world.fresh⟩ .ended after) :
      Gives setting run world none { run with stage := after.stage, finished := run.fused }
        after.world
  | answer {run : PipeRun} {world : World} {after : Scene} {answer : Answer}
      (hopen : run.finished = false)
      (h : Scene.Awaits setting ⟨run.stage, [], world.fresh⟩ (.answer answer) after) :
      Gives setting run world (some answer)
        { run with stage := after.stage, produced := run.produced + 1 } after.world

/-- What pulls in a row come to. -/
inductive Pulls (setting : Setting) : PipeRun → World → List (Option Answer) → PipeRun → World → Prop
  | nil (run : PipeRun) (world : World) : Pulls setting run world [] run world
  | cons {run next last : PipeRun} {world middle later : World} {answer : Option Answer}
      {answers : List (Option Answer)} (h : Gives setting run world answer next middle)
      (hrest : Pulls setting next middle answers last later) :
      Pulls setting run world (answer :: answers) last later

/-- Pulls as often as asked to, also after the end. -/
def pullMany (setting : Setting) (budget : Nat) :
    Nat → PipeRun → Run (List (Option Answer) × PipeRun)
  | 0, run => return ([], run)
  | count + 1, run => do
      let (answer, run) ← run.next setting budget
      let (answers, run) ← pullMany setting budget count run
      return (answer :: answers, run)

/-- A run of a pipe in a mode without a limit for the time of one record. -/
structure Plain (known : Pipe → Prop) (mode : Mode) (run : PipeRun) : Prop where
  limit : run.limit = none
  stage : ∀ world, Scene.Plain known mode 0 ⟨run.stage, [], world⟩

section Closed

variable {run last : PipeRun} {answer : Option Answer} {answers : List (Option Answer)}

theorem gives_of_next (hcloses : setting.registry.Closes known) (hrun : run.Plain known mode)
    (h : (run.next setting budget).run world = some ((answer, last), later)) :
    Gives setting run world answer last later := by
  cases hfinished : run.finished with
  | true =>
      rw [run_next_finished hfinished] at h
      cases h
      exact .finished hfinished
  | false =>
      obtain ⟨awaited, next, hawait, hresult⟩ := (run_next hfinished).mp h
      rw [hrun.limit] at hawait
      obtain ⟨poll, rfl, hawaits⟩ := awaits_of_await hcloses budget (hrun.stage world) hawait
      cases poll with
      | pending => exact absurd rfl hawaits.ne_pending
      | ended =>
          cases hresult
          exact .ended hfinished hawaits
      | answer answer =>
          cases hresult
          exact .answer hfinished hawaits

theorem next_of_gives (hrun : run.limit = none) (h : Gives setting run world answer last later) :
    ∃ least, ∀ budget, least ≤ budget →
      (run.next setting budget).run world = some ((answer, last), later) := by
  cases h with
  | finished hfinished => exact ⟨0, fun _ _ => run_next_finished hfinished⟩
  | ended hopen h =>
      have hawaits := (awaits_of_scene h rfl rfl).congr (World.fresh_fresh world)
      exact next_of_awaits hopen hrun hawaits
  | answer hopen h =>
      have hawaits := (awaits_of_scene h rfl rfl).congr (World.fresh_fresh world)
      exact next_of_awaits hopen hrun hawaits

/-- The junctions of a run are all inside of its stage. -/
theorem Plain.of_awaits (hcloses : setting.registry.Closes known) (hrun : run.Plain known mode)
    {poll : Poll} {after : Scene} (h : Scene.Awaits setting ⟨run.stage, [], world⟩ poll after) :
    after.junctions = [] ∧ ∀ later, Scene.Plain known mode 0 ⟨after.stage, [], later⟩ := by
  obtain ⟨hafter, hkeeps⟩ := h.keeps hcloses (hrun.stage world)
  obtain ⟨stage, junctions, behind⟩ := after
  cases List.length_eq_zero_iff.mp hkeeps.length
  exact ⟨rfl, fun later => hafter.elsewhere later⟩

theorem Gives.plain (hcloses : setting.registry.Closes known) (hrun : run.Plain known mode)
    (h : Gives setting run world answer last later) : last.Plain known mode := by
  cases h with
  | finished => exact hrun
  | ended _ h => exact ⟨hrun.limit, (hrun.of_awaits hcloses h).2⟩
  | answer _ h => exact ⟨hrun.limit, (hrun.of_awaits hcloses h).2⟩

/-- Within a budget a run comes to nothing but what it gives. -/
theorem pulls_of_pullMany (hcloses : setting.registry.Closes known) (hrun : run.Plain known mode)
    (count : Nat) (h : (pullMany setting budget count run).run world = some ((answers, last), later)) :
    answers.length = count ∧ Pulls setting run world answers last later := by
  induction count generalizing run world answers with
  | zero =>
      cases h
      exact ⟨rfl, .nil _ _⟩
  | succ count ih =>
      obtain ⟨⟨answer, next⟩, middle, hnext, h⟩ := run_bind_eq_some_iff.mp h
      obtain ⟨⟨rest, reached⟩, behind, hrest, hpure⟩ := run_bind_eq_some_iff.mp h
      cases hpure
      have hgives := gives_of_next hcloses hrun hnext
      obtain ⟨hlength, hpulls⟩ := ih (hgives.plain hcloses hrun) hrest
      exact ⟨congrArg (· + 1) hlength, .cons hgives hpulls⟩

/-- What a run gives it comes to within every budget from some budget on. -/
theorem pullMany_of_pulls (hcloses : setting.registry.Closes known) (hrun : run.Plain known mode)
    (h : Pulls setting run world answers last later) :
    ∃ least, ∀ budget, least ≤ budget →
      (pullMany setting budget answers.length run).run world = some ((answers, last), later) := by
  induction h with
  | nil run world => exact ⟨0, fun _ _ => rfl⟩
  | cons h _ ih =>
      obtain ⟨first, hnext⟩ := next_of_gives hrun.limit h
      obtain ⟨others, hrest⟩ := ih (h.plain hcloses hrun)
      refine ⟨max first others, fun budget hbudget => ?_⟩
      refine run_bind_eq_some_iff.mpr ⟨_, _, hnext budget (le_of_max_le_left hbudget), ?_⟩
      exact run_bind_eq_some_iff.mpr ⟨_, _, hrest budget (le_of_max_le_right hbudget), rfl⟩

end Closed

end PipeRun

end Pipework
