import Pipework.Proofs.Answers.Documents
import Pipework.Proofs.Assembly.Congruence
import Pipework.Proofs.Demand.Chain
import Pipework.Proofs.Subpipe.Building

/-! # Nothing happens before it is asked for

Assembling a pipe asks none of its stages: no file is read, no time passes, no probe passes anything
on, and what has been assembled is fresh. Once the pipe runs, every pull at it is one pull at each
stage on the chain of default inputs that leads to the output, whatever else the pipe consists of.
-/

namespace Pipework

/-- Between the worlds nothing has been read, no time has passed and no probe has passed anything
on. -/
structure World.Spares (before after : World) : Prop where
  clock_eq : after.clock = before.clock
  alarm_eq : after.alarm = before.alarm
  reads_eq : after.reads = before.reads
  pulls_eq : after.still.pulls = before.still.pulls

/-- Whatever it comes to, the computation reads nothing, and asks nothing that passes anything
on. -/
def Run.Spares {α : Type} (computation : Run α) : Prop :=
  ∀ world result later, computation.run world = some (result, later) → world.Spares later

namespace Run.Spares

variable {α β : Type}

theorem pure (value : α) : Spares (Pure.pure value) := by
  intro world result later h
  cases h
  exact ⟨rfl, rfl, rfl, rfl⟩

theorem bind {first : Run α} {next : α → Run β} (h : Spares first)
    (hnext : ∀ value, Spares (next value)) : Spares (first >>= next) := by
  intro world result later hrun
  obtain ⟨value, middle, hfirst, hrest⟩ := run_bind_eq_some_iff.mp hrun
  have hbefore := h _ _ _ hfirst
  have hafter := hnext value _ _ _ hrest
  exact ⟨hafter.clock_eq.trans hbefore.clock_eq, hafter.alarm_eq.trans hbefore.alarm_eq,
    hafter.reads_eq.trans hbefore.reads_eq, hafter.pulls_eq.trans hbefore.pulls_eq⟩

theorem congruence : Congruence fun first _ => Spares first where
  pure := .pure
  bind := .bind
  report := by
    intro event world result later h
    cases h
    exact ⟨rfl, rfl, rfl, rfl⟩

theorem ask (question : String) : Spares (Run.ask question) := by
  intro world result later h
  cases h
  exact ⟨rfl, rfl, rfl, rfl⟩

theorem count (id : ModuleId) :
    Spares (Run.count id fun count => { count with builds := count.builds + 1 }) := by
  intro world result later h
  obtain ⟨_, hrun, -, -, hstill⟩ := Fixture.count_passes id world
  cases hrun.symm.trans h
  exact ⟨congrArg World.Still.clock hstill, congrArg World.Still.alarm hstill,
    congrArg World.Still.reads hstill, congrArg World.Still.pulls hstill⟩

end Run.Spares

namespace PipeRun

variable {setting : Setting} {run : PipeRun} {passages : List Passage} {source : Stage}

/-- Pulls at a run are as many pulls at a source, each answer being what becomes of the source's
answer at the same position, and nothing else is done to the world. Whatever pulls at the source
come to, pulls at the run come to with every budget from some budget on. -/
structure Relays (setting : Setting) (run : PipeRun) (passages : List Passage) (source : Stage) :
    Prop where
  inward : ∀ budget count world answers next later,
    (run.pull setting budget count).run world = some ((answers, next), later) →
      ∃ given rest, source.Pulls setting count world given rest later ∧
        given.length = answers.length ∧ answers = Passage.alterFrom setting.now passages 0 given ∧
        (none ∉ given → given.length = count ∧ next.stage.DrawsOn count passages rest)
  outward : ∀ count world given rest later, source.Pulls setting count world given rest later →
    ∃ next least, ∀ budget, least ≤ budget → (run.pull setting budget count).run world =
      some ((Passage.alterFrom setting.now passages 0 given, next), later)

theorem relays_of_drawsOn (hrun : run.IsPrompt) (hdraws : run.stage.DrawsOn 0 passages source) :
    run.Relays setting passages source where
  inward := by
    intro budget count world answers next later hpull
    obtain ⟨given, rest, hpulls, rfl, hlater⟩ := hdraws.pulls_inward (pull_inward hrun hpull)
    refine ⟨given, rest, hpulls, List.length_mapIdx.symm, rfl, fun hnone => ?_⟩
    have hlength := hpulls.length_eq hnone
    have hnext := hlater hnone
    rw [hlength, Nat.zero_add] at hnext
    exact ⟨hlength, hnext⟩
  outward := by
    intro count world given rest later hpulls
    obtain ⟨stage, hstage⟩ := hdraws.pulls_outward hpulls
    obtain ⟨next, least, -, hpull⟩ := pull_outward hrun hstage
    exact ⟨next, least, hpull⟩

/-- Evaluation is driven by demand. Where stages do not have to wait, assembling a pipe and taking
its output reads nothing and asks nothing, and what it gives is fresh. For every chain of default
inputs from the output back to a module, with nothing but modules on the way that make one answer of
each answer and splits, pulls at the run are as many pulls at the stage of that module. How the
stages on the chain are shared and what else there is in the pipe makes no difference. -/
theorem relays_chains {description : Value} {name : String} {pipe : Pipe}
    (hcompile : Pipe.compile description name = .ok pipe) {setting : Setting} {limit : Option Nat}
    {context : RunContext} {world later : World} {outcome : Except PipeError PipeRun}
    (hstart : (ofPipe setting .sync limit context pipe).run.run world = some (outcome, later)) :
    world.Spares later ∧ ∀ run, outcome = .ok run → run.stage.Prompt true 0 ∧
      ∀ last target passages, pipe.plan.last? = some last →
        Plan.Draws setting.registry pipe.plan.steps target last passages →
        ∃ below own, (setting.workshop .sync context).Made target below own ∧
          run.stage.DrawsOn 0 passages (.closed below own) ∧
            run.Relays setting passages (.closed below own) := by
  refine ⟨?spares, ?relays⟩
  case spares =>
    exact Run.Spares.congruence.ofPipe .ask .count nofun setting limit context pipe _ _ _ hstart
  case relays =>
    rintro run rfl
    obtain ⟨diagram, hparse, hcompiled⟩ := bind_eq_ok_iff.mp hcompile
    have hgrounded := Diagram.grounded_of_compile (Diagram.coherent_of_parse hparse) hcompiled
    rcases run_run_bind_eq_some_iff.mp hstart with ⟨_, -, ⟨⟩⟩ | ⟨stage, middle, houtput, hpure⟩
    cases hpure
    have hprompt := ((setting.buildsPrompt context).output pipe).outcome houtput
    refine ⟨hprompt, fun last target passages hlast hdraws => ?_⟩
    obtain ⟨below, own, hmade, hstage⟩ := (Setting.output_chains hgrounded.nodup target).outcome
      houtput last passages hlast hdraws
    exact ⟨below, own, hmade, hstage, relays_of_drawsOn ⟨rfl, rfl, rfl, hprompt.aged⟩ hstage⟩

/-- The description of a pipe that prices what is in a file. A branch of a split leads to the
output, and another one to a module that nobody asks. -/
def newsPriced : Value :=
  .object ⟨[
    ("modules", .list [
      .object ⟨[("conf", Pipe.newsConf), ("id", .text "source"), ("type", .text "fetch")]⟩,
      Diagram.plainModule "both" "split", Diagram.plainModule "stray" "count",
      Diagram.plainModule "price" "exchangerate", Diagram.plainModule "out" "output"]),
    ("wires", .list [Diagram.plainWire "first" "source" "both",
      Diagram.plainWire "second" "both" "stray", Diagram.plainWire "third" "both" "price",
      Diagram.plainWire "fourth" "price" "out"])]⟩

/-- The step that reads the file. -/
def newsSource : Plan.Step :=
  ⟨⟨"source"⟩, "fetch", false, .sentinel, [], none, none, .ofValue Pipe.newsConf, 1⟩

/-- The steps of that pipe. -/
def newsSteps : List Plan.Step := [newsSource,
  ⟨⟨"both"⟩, "split", false, .module ⟨"source"⟩, [], none, some 2, .empty, 2⟩,
  ⟨⟨"stray"⟩, "count", false, .module ⟨"both"⟩, [], none, none, .empty, 0⟩,
  ⟨⟨"price"⟩, "exchangerate", false, .module ⟨"both"⟩, [], none, none, .empty, 1⟩,
  ⟨⟨"out"⟩, "output", false, .module ⟨"price"⟩, [], none, none, .empty, 1⟩]

/-- What becomes of an answer of that step on its way to the output. -/
def newsWay : List Passage :=
  [.tag ⟨"out"⟩, .tag ⟨"price"⟩, .map (.exchange .empty)]

theorem draws_newsSource : ∃ last, newsSteps.getLast? = some last ∧
    Plan.Draws .standard newsSteps newsSource last newsWay := by
  have hsource : Plan.Draws .standard newsSteps newsSource newsSource [] :=
    .here (List.mem_cons_self ..)
  have hboth : Plan.Draws .standard newsSteps newsSource newsSteps[1] _ :=
    .through (List.getElem_mem _) (@Registry.get_standard_name .split) rfl rfl hsource
  have hprice : Plan.Draws .standard newsSteps newsSource newsSteps[3] _ :=
    .through (List.getElem_mem _) (@Registry.get_standard_name .exchangeRate) rfl rfl hboth
  have hout : Plan.Draws .standard newsSteps newsSource newsSteps[4] _ :=
    .through (List.getElem_mem _) (@Registry.get_standard_name .output) rfl rfl hprice
  exact ⟨newsSteps[4], rfl, hout⟩

theorem relays_chains_of_newsPriced : ∃ pipe run later below own,
    Pipe.compile newsPriced "pipe" = .ok pipe ∧
    (ofPipe (Pipe.holding Pipe.newsText) .sync none .testing pipe).run.run {} =
      some (.ok run, later) ∧
    World.Spares {} later ∧ run.stage.Prompt true 0 ∧
    ((Pipe.holding Pipe.newsText).workshop .sync .testing).Made newsSource below own ∧
    run.Relays (Pipe.holding Pipe.newsText) newsWay (.closed below own) := by
  have hok : (Pipe.compile newsPriced "pipe").map (fun pipe => pipe.plan.steps) =
      .ok newsSteps := by
    cbv
  obtain ⟨⟨diagram, dependents, order, steps, counts⟩, hpipe, rfl⟩ := map_eq_ok_iff.mp hok
  have hstart : ∃ run later, (ofPipe (Pipe.holding Pipe.newsText) .sync none .testing
      ⟨diagram, dependents, order, newsSteps, counts⟩).run.run {} = some (.ok run, later) :=
    ⟨_, _, rfl⟩
  obtain ⟨run, later, hstart⟩ := hstart
  obtain ⟨last, hlast, hdraws⟩ := draws_newsSource
  obtain ⟨hspares, hrun⟩ := relays_chains hpipe hstart
  obtain ⟨hprompt, hchains⟩ := hrun run rfl
  obtain ⟨below, own, hmade, -, hrelays⟩ := hchains last newsSource newsWay hlast hdraws
  exact ⟨_, run, later, below, own, hpipe, hstart, hspares, hprompt, hmade, hrelays⟩

end PipeRun

end Pipework
