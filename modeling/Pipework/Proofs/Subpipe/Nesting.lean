import Pipework.Proofs.Assembly.Calls
import Pipework.Proofs.Isolation.Building
import Pipework.Proofs.Order.Execution
import Pipework.Proofs.Subpipe.Circles
import Pipework.Proofs.Subpipe.Isolation

/-! # How deep pipes are nested

A pipe from which one does not come to a circle is assembled, or fails to be, with pipes nested no
deeper than there are registered pipes. Where pipes run one another in a circle, nothing but an
error keeps them from being assembled into one another without end. It does so within one more
level or not at all: on the way round every pipe is configured by the step that runs it, so the
second time round nothing is new.
-/

namespace Pipework

section Descending

variable {setting : Setting} {mode : Mode} {inner : Pipe}

/-- Assembling a pipe comes to nothing if adding its steps does, and only then. -/
theorem Setting.run_assemble_eq_none_iff {depth : Nat} {context : RunContext} {pipe : Pipe}
    {world : World} :
    ((setting.workshopAt mode depth context).assemble pipe).run.run world = none ↔
      ∃ last, pipe.plan.last? = some last ∧
        ((setting.workshopAt mode depth context).addSteps (.start last.id)
          pipe.plan.steps).run.run world = none := by
  unfold Workshop.assemble
  cases pipe.plan.last? with
  | none =>
      refine ⟨nofun, ?_⟩
      rintro ⟨_, ⟨⟩, -⟩
  | some last =>
      refine (Run.run_run_bind_eq_none_iff_of_settles fun assembly => ?_).trans
        ⟨fun h => ⟨last, rfl, h⟩, ?_⟩
      · exact .run_bind (fun world => ⟨_, rfl⟩) fun _ => .run_except (.ok assembly)
      · rintro ⟨_, ⟨⟩, h⟩
        exact h

/-- A pipe that runs as a module is not built if it is not assembled, and only then. -/
theorem Factory.run_build_pipe_eq_none_iff {depth : Nat} {args : Arguments Factory}
    {world : World} :
    ((Factory.pipe inner).build setting mode (depth + 1) args).run world = none ↔
      ((setting.workshopAt mode depth (args.context.asSubpipe
        (suppliedInputs args.conf))).assemble inner).run.run world = none := by
  have houtput (context : RunContext) :
      ((setting.workshopAt mode depth context).output inner).run.run world = none ↔
        ((setting.workshopAt mode depth context).assemble inner).run.run world = none := by
    refine Run.run_run_bind_eq_none_iff_of_settles fun assembly => ?_
    refine .run_bind (.run_except _) fun taken => .run_bind (fun world => ?_) fun _ =>
      .run_except (.ok taken.1)
    exact ⟨_, Workshop.Twin.run_reportAll taken.2 world⟩
  rw [build_pipe, ← houtput, StateT.run_bind]
  show Option.bind _ _ = none ↔ _
  cases ((setting.workshopAt mode depth (args.context.asSubpipe
    (suppliedInputs args.conf))).output inner).run.run world with
  | none => exact ⟨fun _ => rfl, fun _ => rfl⟩
  | some reached => exact ⟨nofun, nofun⟩

/-- Whether a pipe that runs as a module is built depends on nothing but its configuration. -/
theorem Factory.run_build_pipe_eq_none_of_conf {depth : Nat} {args twin : Arguments Factory}
    {here there : World}
    (hnone : ((Factory.pipe inner).build setting mode depth args).run here = none)
    (hconf : args.conf = twin.conf) (hclock : here.clock = there.clock) :
    ((Factory.pipe inner).build setting mode depth twin).run there = none := by
  have hrel := build_subpipe_mirrors setting mode depth inner hconf hclock
  rw [hnone] at hrel
  generalize ((Factory.pipe inner).build setting mode depth twin).run there = reached at hrel
  cases hrel
  rfl

/-- Where the steps of a pipe are added at one depth and cannot be at a smaller one, it is for the
first of them that runs a pipe from which one comes to a circle: those before it are added at both
depths alike, and those behind it are never come to. -/
theorem Setting.descends {pipe : Pipe} {step : Plan.Step}
    (hturns : setting.registry.Turns pipe step inner) {depth deeper : Nat}
    (hdepth : setting.registry.straight.card ≤ depth) (hdeeper : depth ≤ deeper)
    {context : RunContext} {start : Assembly Factory} {world : World}
    (hnone : ((setting.workshopAt mode depth context).addSteps start
      pipe.plan.steps).run.run world = none)
    (hsome : ((setting.workshopAt mode deeper context).addSteps start
      pipe.plan.steps).run.run world ≠ none) :
    ∃ args here, args.conf = step.conf ∧ here.clock = world.clock ∧
      ((Factory.pipe inner).build setting mode depth args).run here = none ∧
      ((Factory.pipe inner).build setting mode deeper args).run here ≠ none := by
  obtain ⟨before, behind, hsplit, hbefore⟩ := hturns.first
  rw [hsplit, Workshop.addSteps_append] at hnone hsome
  have hsettles : ((setting.workshopAt mode depth context).addSteps start before).run.Settles := by
    refine Run.Settles.congruence.addSteps depth depth context ?_ start
    intro earlier hearlier hembedded factory hget args
    refine Factory.build_settles setting mode ?_
    rintro other rfl
    exact Factory.settles_of_not_circular (Registry.mem_pipes_of_get hget)
      (hbefore earlier hearlier hembedded other hget) hdepth args
  have hbelow : ((setting.workshopAt mode depth context).addSteps start before).run.Below
      ((setting.workshopAt mode deeper context).addSteps start before).run :=
    Run.Below.congruence.addSteps depth deeper context (fun _ _ _ factory _ args =>
      Factory.build_below setting mode hdeeper factory args) start
  have hhermetic : ((setting.workshopAt mode depth context).addSteps start before).run.Hermetic :=
    Run.Hermetic.congruence.addSteps depth depth context (fun _ _ _ factory _ args =>
      Factory.build_hermetic setting mode depth factory args) start
  rcases Run.run_run_bind_eq_none_iff.mp hnone with hfirst | ⟨next, middle, hfirst, hrest⟩
  · obtain ⟨_, hsome⟩ := hsettles world
    cases hfirst.symm.trans hsome
  have hclock : middle.clock = world.clock :=
    (hhermetic.repeats hfirst).clock
  have hreached : ((setting.workshopAt mode deeper context).addStep next step).run.run middle ≠
      none := fun h => hsome (Run.run_run_bind_eq_none_iff.mpr (.inr ⟨next, middle,
        hbelow _ _ hfirst, Run.run_run_bind_eq_none_iff.mpr (.inl h)⟩))
  rcases Run.run_run_bind_eq_none_iff.mp hrest with hstep | ⟨added, after, hadded, -⟩
  · rw [run_addStep hturns.registered hturns.embedded] at hstep hreached
    split at hstep
    · cases hstep
    next args rest hargs =>
      refine ⟨args, context.logged step middle, (Assembly.arguments_eq_ok hargs).2.2.2,
        (context.logged_clock step middle).trans hclock, Option.map_eq_none_iff.mp hstep, ?_⟩
      simp only [hargs] at hreached
      exact fun h => hreached (Option.map_eq_none_iff.mpr h)
  · obtain ⟨_, _, _, _, hbuilt⟩ := exists_built_of_addStep hadded hturns.embedded hturns.registered
    exact absurd hturns.circular (Factory.not_circular_of_built hbuilt)

/-- Pipes from which one comes to a circle are nested no deeper than there are such pipes ahead. Of
each of them the first step that runs such a pipe leads on, and this one is configured there once
and for all: from a pipe that is not ahead any more one does not get this far again. -/
theorem Factory.depth_le_of_exact {time depth : Nat} (ahead : Finset Pipe)
    (hinner : inner ∈ setting.registry.turning) {args : Arguments Factory} {world : World}
    (hclock : world.clock = time)
    (hnone : ((Factory.pipe inner).build setting mode depth args).run world = none)
    (hsome : ((Factory.pipe inner).build setting mode (depth + 1) args).run world ≠ none)
    (hpassed : ∀ other ∈ setting.registry.turning, other ∉ ahead → ∃ step next,
      setting.registry.Turns other step next ∧ ∀ (args : Arguments Factory) (here : World),
        args.conf = step.conf → here.clock = time →
          ((Factory.pipe next).build setting mode depth args).run here = none) :
    depth ≤ ahead.card + setting.registry.straight.card := by
  classical
  induction depth generalizing ahead inner args world with
  | zero => exact Nat.zero_le _
  | succ depth ih =>
      by_cases hdeep : setting.registry.straight.card ≤ depth
      case neg => omega
      obtain ⟨last, hlast, hadds⟩ := Setting.run_assemble_eq_none_iff.mp
        (run_build_pipe_eq_none_iff.mp hnone)
      have hadded := fun h => hsome (run_build_pipe_eq_none_iff.mpr
        (Setting.run_assemble_eq_none_iff.mpr ⟨last, hlast, h⟩))
      have hahead : inner ∈ ahead := by
        by_contra hpast
        obtain ⟨step, next, hturns, hcomes⟩ := hpassed inner hinner hpast
        obtain ⟨args, here, hconf, hhere, -, hreached⟩ :=
          Setting.descends hturns hdeep depth.le_succ hadds hadded
        exact hreached (hcomes args here hconf (hhere.trans hclock))
      obtain ⟨step, next, hturns⟩ := (Registry.mem_turning.mp hinner).2.exists_turns
      obtain ⟨args, here, hconf, hhere, hstuck, hreached⟩ :=
        Setting.descends hturns hdeep depth.le_succ hadds hadded
      have hnext : next ∈ setting.registry.turning := Registry.mem_turning.mpr
        ⟨Registry.mem_pipes_of_get hturns.registered, hturns.circular⟩
      have hrest := ih (ahead.erase inner) hnext (hhere.trans hclock) hstuck hreached ?_
      · rw [Finset.card_erase_of_mem hahead] at hrest
        have hpos := Finset.card_pos.mpr ⟨inner, hahead⟩
        omega
      · intro other hother hpast
        by_cases hsame : other = inner
        · subst hsame
          refine ⟨step, next, hturns, fun twin there htwin hthere => ?_⟩
          exact run_build_pipe_eq_none_of_conf hstuck (hconf.trans htwin.symm)
            ((hhere.trans hclock).trans hthere.symm)
        · obtain ⟨step, next, hturns, hcomes⟩ := hpassed other hother
            fun hmem => hpast (Finset.mem_erase.mpr ⟨hsame, hmem⟩)
          refine ⟨step, next, hturns, fun args here hconf hhere => ?_⟩
          by_contra hreached
          obtain ⟨result, hreached⟩ := Option.ne_none_iff_exists'.mp hreached
          have hdeeper := build_below setting mode depth.le_succ _ args here result hreached
          cases (hcomes args here hconf hhere).symm.trans hdeeper

/-- The least depth at which building a pipe comes to something. -/
theorem Factory.exists_least_depth {args : Arguments Factory} {world : World}
    (h : ∃ depth, ((Factory.pipe inner).build setting mode depth args).run world ≠ none) :
    ∃ least, ((Factory.pipe inner).build setting mode least args).run world ≠ none ∧
      ∀ fewer < least, ((Factory.pipe inner).build setting mode fewer args).run world = none := by
  classical
  exact ⟨Nat.find h, Nat.find_spec h, fun fewer hfewer => not_not.mp (Nat.find_min h hfewer)⟩

/-- Whatever building a registered pipe comes to, it comes to at one level more than there are
registered pipes. -/
theorem Factory.build_shallow {depth deeper : Nat} (hinner : inner ∈ setting.registry.pipes)
    (hdeeper : setting.registry.pipes.length < deeper) (args : Arguments Factory) :
    ((Factory.pipe inner).build setting mode depth args).Below
      ((Factory.pipe inner).build setting mode deeper args) := by
  have hcount := setting.registry.card_turning_add_straight
  intro world result hrun
  have hreached : ((Factory.pipe inner).build setting mode deeper args).run world ≠ none := by
    by_cases hcircular : setting.registry.Circular inner
    case neg =>
      have hsettles : ((Factory.pipe inner).build setting mode deeper args).Settles :=
        settles_of_not_circular hinner hcircular (by omega) args
      obtain ⟨reached, hreached⟩ := hsettles world
      rw [hreached]
      exact Option.some_ne_none reached
    -- Below the least depth at which it comes to something there is no room for it.
    intro hnone
    obtain ⟨least, hleast, hmin⟩ := exists_least_depth ⟨depth, by
      rw [hrun]
      exact Option.some_ne_none result⟩
    have hbeyond : deeper < least := by
      by_contra hwithin
      obtain ⟨reached, hreached⟩ := Option.ne_none_iff_exists'.mp hleast
      cases hnone.symm.trans
        (build_below setting mode (Nat.le_of_not_lt hwithin) _ args world reached hreached)
    obtain ⟨least, rfl⟩ := Nat.exists_eq_add_one_of_ne_zero (Nat.ne_zero_of_lt hbeyond)
    have hexact := depth_le_of_exact setting.registry.turning
      (Registry.mem_turning.mpr ⟨hinner, hcircular⟩) rfl (hmin least least.lt_succ_self) hleast
      fun other hother hpast => absurd hother hpast
    omega
  obtain ⟨reached, hreached⟩ := Option.ne_none_iff_exists'.mp hreached
  have hresult := build_below setting mode (le_max_left depth deeper) _ args world result hrun
  have hother := build_below setting mode (le_max_right depth deeper) _ args world reached hreached
  rw [hreached, Option.some.inj (hother.symm.trans hresult)]

end Descending

namespace Pipe

variable (setting : Setting) (mode : Mode) (context : RunContext) (pipe : Pipe)

/-- What assembling a pipe comes to at any depth it comes to at one level more than there are
registered pipes. -/
theorem assemble_below {depth deeper : Nat} (h : setting.registry.pipes.length < deeper) :
    ((setting.workshopAt mode depth context).assemble pipe).run.Below
      ((setting.workshopAt mode deeper context).assemble pipe).run := by
  refine Run.Below.congruence.assemble depth deeper context
    (fun step _ _ factory hget args => ?_) rfl
  refine Factory.build_cases setting mode depth deeper (fun _ => .refl _) (fun _ => .refl _) ?_
  rintro inner rfl
  exact Factory.build_shallow (Registry.mem_pipes_of_get hget) h args

/-- Running a pipe assembles it within the depth of its setting if it is assembled at any depth. -/
theorem assemble_below_workshop (depth : Nat) :
    ((setting.workshopAt mode depth context).assemble pipe).run.Below
      ((setting.workshop mode context).assemble pipe).run := by
  rw [setting.workshop_eq mode context]
  exact assemble_below setting mode context pipe (Nat.lt_succ_of_le (List.length_filterMap_le ..))

/-- A pipe is assembled, or assembling it ends with an error, unless one comes from it to pipes that
run one another in a circle. Pipes are nested then no deeper than there are registered pipes. In a
circle, too, assembling ends at most one level deeper, if it ends at all. A run nests pipes deep
enough for whatever assembling ends with. -/
theorem nesting_bounded :
    (¬ setting.registry.Circular pipe → ∀ world, ∃ reached, ∀ depth,
      setting.registry.pipes.length ≤ depth →
        ((setting.workshopAt mode depth context).assemble pipe).run.run world = some reached) ∧
    (∀ depth world reached,
      ((setting.workshopAt mode depth context).assemble pipe).run.run world = some reached →
        ∀ deeper, setting.registry.pipes.length < deeper →
          ((setting.workshopAt mode deeper context).assemble pipe).run.run world =
            some reached) ∧
    ∀ depth world reached,
      ((setting.workshopAt mode depth context).assemble pipe).run.run world = some reached →
        ((setting.workshop mode context).assemble pipe).run.run world = some reached := by
  refine ⟨fun hcircular world => ?_, fun depth world reached hrun deeper hdeeper =>
    assemble_below setting mode context pipe hdeeper world reached hrun,
    fun depth => assemble_below_workshop setting mode context pipe depth⟩
  have hcount := setting.registry.card_turning_add_straight
  have hsettles : ((setting.workshopAt mode setting.registry.pipes.length context).assemble
      pipe).run.Settles := by
    refine Run.Settles.congruence.assemble _ 0 context ?_ rfl
    intro step hstep hembedded factory hget args
    refine Factory.build_settles setting mode ?_
    rintro inner rfl
    exact Factory.settles_of_not_circular (Registry.mem_pipes_of_get hget)
      (fun h => hcircular (h.of_reaches (.single ⟨step, hstep, hembedded, hget⟩))) (by omega) args
  obtain ⟨reached, hreached⟩ := hsettles world
  refine ⟨reached, fun depth hdepth => ?_⟩
  exact Run.Below.congruence.assemble _ depth context (fun _ _ _ factory _ args =>
    Factory.build_below setting mode hdepth factory args) rfl world reached hreached

end Pipe

namespace Knot

/-- A configuration that gives one field a value. -/
def oneGiven (name : String) (value : Value) : Value :=
  .object ⟨[(name, .object ⟨[("value", value)]⟩)]⟩

/-- The pipe `knot` asks for a limit and runs the pipe `knot`, which it gives a limit. -/
def description (limit : Value) : Value :=
  .object ⟨[
    ("modules", .list [
      .object ⟨[("conf", oneGiven "name" (.text "limit")), ("id", .text "limit"),
        ("type", .text "numberinput")]⟩,
      .object ⟨[("conf", oneGiven "limit" limit), ("id", .text "again"),
        ("type", .text "pipe:knot")]⟩]),
    ("wires", .list [Diagram.plainWire "feed" "limit" "again"])]⟩

/-- A pipe that runs the pipe `knot` and gives it nothing. -/
def caller : Value :=
  .object ⟨[
    ("modules", .list [Diagram.plainModule "first" "pipe:knot",
      Diagram.plainModule "sink" "output"]),
    ("wires", .list [Diagram.plainWire "feed" "first" "sink"])]⟩

/-- The first step of the pipe `knot`. -/
def limitStep : Plan.Step :=
  { id := ⟨"limit"⟩, type := "numberinput", embedded := false, input := .sentinel, inputs := []
    embed := none, branches := none, conf := .ofValue (oneGiven "name" (.text "limit"))
    consumers := 1 }

/-- Its last step. -/
def againStep (limit : Value) : Plan.Step :=
  { id := ⟨"again"⟩, type := "pipe:knot", embedded := false, input := .module ⟨"limit"⟩
    inputs := [], embed := none, branches := none, conf := .ofValue (oneGiven "limit" limit)
    consumers := 1 }

def firstStep : Plan.Step :=
  { id := ⟨"first"⟩, type := "pipe:knot", embedded := false, input := .sentinel
    inputs := [], embed := none, branches := none, conf := .empty
    consumers := 1 }

theorem compile_description (limit : Value) :
    (Pipe.compile (description limit) "knot").map (fun pipe => pipe.plan.steps) =
      .ok [limitStep, againStep limit] := by cbv

theorem compile_caller : (Pipe.compile caller "outer").map (fun pipe => pipe.plan.steps.head?) =
    .ok (some firstStep) := by cbv

/-- A pipe is registered as `knot` and compiled of that description. -/
structure Registered (setting : Setting) (limit : Value) (knot : Pipe) : Prop where
  steps : knot.plan.steps = [limitStep, againStep limit]
  input : setting.registry.get limitStep.type = .ok (.builtin .numberInput)
  itself : setting.registry.get (againStep limit).type = .ok (.pipe knot)

/-- The pipe `knot` is not built if it is given a limit and does not build itself, and only then. -/
theorem Registered.run_build_eq_none_iff {setting : Setting} {limit : Value} {knot : Pipe}
    (h : Registered setting limit knot) {mode : Mode} {depth : Nat} {args : Arguments Factory}
    {world : World} :
    ((Factory.pipe knot).build setting mode (depth + 1) args).run world = none ↔
      (∃ record, UserInput.supplied .number limitStep.conf args.conf = .ok record) ∧
        ∀ (twin : Arguments Factory) (here : World), twin.conf = (againStep limit).conf →
          here.clock = world.clock →
            ((Factory.pipe knot).build setting mode depth twin).run here = none := by
  have hlast : knot.plan.last? = some (againStep limit) := by
    rw [Plan.last?, h.steps]
    rfl
  rw [Factory.run_build_pipe_eq_none_iff, Setting.run_assemble_eq_none_iff, hlast]
  simp only [h.steps, Option.some.injEq, exists_eq_left', Workshop.addSteps, bind_pure]
  generalize hcontext : args.context.asSubpipe (Factory.suppliedInputs args.conf) = context
  have hadd : ((setting.workshopAt mode depth context).addStep
      (.start (againStep limit).id) limitStep).run.run world =
        some ((Assembly.start (againStep limit).id).addOutcome limitStep
          ((UserInput.supplied .number limitStep.conf args.conf).map fun record =>
            .single (.constant record)), context.logged limitStep world) :=
    Setting.addStep_userInput h.input (by decide) rfl (hcontext ▸ rfl) (hcontext ▸ rfl) rfl mode
      depth world
  rw [Run.run_run_bind_eq_none_iff, hadd]
  cases UserInput.supplied .number limitStep.conf args.conf with
  | error error =>
      constructor
      · rintro (hnone | ⟨_, _, hok, -⟩)
        · cases hnone
        · cases hok
      · rintro ⟨⟨_, hok⟩, -⟩
        cases hok
  | ok record =>
      have hagain := Setting.run_addStep h.itself rfl mode depth context
        ((Assembly.start (againStep limit).id).addBuilt limitStep (.single (.constant record)))
        (context.logged limitStep world)
      constructor
      · rintro (hnone | ⟨_, _, hok, hrest⟩)
        · cases hnone
        cases hok
        refine ⟨⟨record, rfl⟩, fun twin here hconf hclock => ?_⟩
        refine Factory.run_build_pipe_eq_none_of_conf
          (Option.map_eq_none_iff.mp (hagain.symm.trans hrest)) hconf.symm ?_
        rw [hclock, RunContext.logged_clock, RunContext.logged_clock]
      · rintro ⟨-, hnever⟩
        refine .inr ⟨_, _, rfl, hagain.trans (Option.map_eq_none_iff.mpr (hnever _ _ rfl ?_))⟩
        rw [RunContext.logged_clock, RunContext.logged_clock]

theorem Registered.circular {setting : Setting} {limit : Value} {knot : Pipe}
    (h : Registered setting limit knot) : setting.registry.Circular knot :=
  ⟨knot, .refl, .single ⟨againStep limit, h.steps ▸ List.mem_cons_of_mem _ List.mem_cons_self,
    rfl, h.itself⟩⟩

/-- A pipe that runs the pipe `knot` first is not assembled if that is not built, and only then. -/
theorem Registered.run_assemble_eq_none_iff {setting : Setting} {limit : Value} {knot outer : Pipe}
    (h : Registered setting limit knot) {rest : List Plan.Step}
    (houter : outer.plan.steps = firstStep :: rest) {mode : Mode} {depth : Nat}
    {context : RunContext} {world : World} :
    ((setting.workshopAt mode depth context).assemble outer).run.run world = none ↔
      ∀ (twin : Arguments Factory) (here : World), twin.conf = firstStep.conf →
        here.clock = world.clock →
          ((Factory.pipe knot).build setting mode depth twin).run here = none := by
  have hcalled : setting.registry.get firstStep.type = .ok (.pipe knot) := h.itself
  have hfirst (start : Assembly Factory) :=
    Setting.run_addStep hcalled rfl mode depth context start world
  rw [Setting.run_assemble_eq_none_iff]
  constructor
  · rintro ⟨last, -, hnone⟩ twin here hconf hclock
    rw [houter] at hnone
    rcases Run.run_run_bind_eq_none_iff.mp hnone with hnone | ⟨added, after, hadded, -⟩
    · refine Factory.run_build_pipe_eq_none_of_conf
        (Option.map_eq_none_iff.mp ((hfirst _).symm.trans hnone)) hconf.symm ?_
      rw [hclock, RunContext.logged_clock]
    · obtain ⟨_, _, _, _, hbuilt⟩ := Setting.exists_built_of_addStep hadded rfl hcalled
      exact absurd h.circular (Factory.not_circular_of_built hbuilt)
  · intro hnever
    have hlast := List.getLast?_eq_some_getLast (List.cons_ne_nil firstStep rest)
    refine ⟨_, (congrArg List.getLast? houter).trans hlast, ?_⟩
    rw [houter]
    refine Run.run_run_bind_eq_none_iff.mpr (.inl ((hfirst _).trans ?_))
    exact Option.map_eq_none_iff.mpr (hnever _ _ rfl (RunContext.logged_clock ..))

theorem ofConf_limitStep : UserInput.ofConf limitStep.conf = .ok ⟨"limit", "", ""⟩ := by cbv

/-- The pipe `knot` has its limit by default if it is given none. -/
theorem limit_by_default :
    ∃ record, UserInput.supplied .number limitStep.conf firstStep.conf = .ok record := by
  rw [UserInput.supplied, ofConf_limitStep]
  exact ⟨_, rfl⟩

/-- If the pipe `knot` can read the limit that it gives itself, it never comes to an end. The
induction is on how deep it may be nested. -/
theorem Registered.run_build_eq_none {setting : Setting} {limit : Value} {knot : Pipe}
    (h : Registered setting limit knot)
    (hgiven : ∃ record,
      UserInput.supplied .number limitStep.conf (againStep limit).conf = .ok record)
    (mode : Mode) (depth : Nat) (args : Arguments Factory) (world : World)
    (hconf : args.conf = (againStep limit).conf) :
    ((Factory.pipe knot).build setting mode depth args).run world = none := by
  induction depth generalizing args world with
  | zero => rfl
  | succ depth ih =>
      exact h.run_build_eq_none_iff.mpr
        ⟨hconf ▸ hgiven, fun other there hother _ => ih other there hother⟩

/-- There is a registry with no pipe but `knot`, and a pipe that runs it first. -/
theorem exists_registered (limit : Value) : ∃ knot outer registry rest,
    Pipe.compile (description limit) "knot" = .ok knot ∧ Pipe.compile caller "outer" = .ok outer ∧
    Registry.standard.addPipe "knot" knot = .ok registry ∧ registry.pipes = [knot] ∧
    outer.plan.steps = firstStep :: rest ∧
    ∀ setting : Setting, setting.registry = registry → Registered setting limit knot := by
  obtain ⟨knot, hknot, hsteps⟩ := map_eq_ok_iff.mp (compile_description limit)
  obtain ⟨outer, houter, hfirst⟩ := map_eq_ok_iff.mp compile_caller
  obtain ⟨rest, hrest⟩ := List.head?_eq_some_iff.mp hfirst
  have hadd : Registry.standard.addPipe "knot" knot =
      .ok ⟨Registry.standard.factories.insert (TypeName.ofPipe "knot") (.pipe knot)⟩ := by rfl
  refine ⟨knot, outer, _, rest, hknot, houter, hadd, ?_, hrest, ?_⟩
  · have hperm := Registry.pipes_addPipe hadd
    rw [Registry.pipes_standard] at hperm
    exact List.perm_singleton.mp hperm
  · intro setting hsetting
    refine ⟨hsteps, ?_, ?_⟩
    · rw [hsetting, Registry.get_addPipe hadd, if_neg (by decide)]
      exact (Registry.get_standard_name :
        Registry.standard.get Builtin.numberInput.name = .ok (.builtin .numberInput))
    · rw [hsetting, Registry.get_addPipe hadd]
      exact if_pos rfl

end Knot

/-- A pipe that runs itself is assembled one level deeper than there are registered pipes before an
error breaks that off, or it is assembled into itself without end. -/
theorem Pipe.knot_unbounded :
    (∃ knot outer registry, compile (Knot.description (.list [])) "knot" = .ok knot ∧
      compile Knot.caller "outer" = .ok outer ∧
      Registry.standard.addPipe "knot" knot = .ok registry ∧ registry.pipes = [knot] ∧
      ∀ setting : Setting, setting.registry = registry → ∀ mode context world,
        ((setting.workshopAt mode 1 context).assemble outer).run.run world = none ∧
        ∃ reached,
          ((setting.workshopAt mode 2 context).assemble outer).run.run world = some reached) ∧
    ∃ knot outer registry, compile (Knot.description (.text "")) "knot" = .ok knot ∧
      compile Knot.caller "outer" = .ok outer ∧
      Registry.standard.addPipe "knot" knot = .ok registry ∧ registry.pipes = [knot] ∧
      ∀ setting : Setting, setting.registry = registry → ∀ mode depth context world,
        ((setting.workshopAt mode depth context).assemble outer).run.run world = none := by
  refine ⟨?broken, ?endless⟩
  case broken =>
    obtain ⟨knot, outer, registry, rest, hknot, houter, hadd, hpipes, hsteps, hregistered⟩ :=
      Knot.exists_registered (.list [])
    refine ⟨knot, outer, registry, hknot, houter, hadd, hpipes, fun setting hsetting mode context
      world => ?_⟩
    have h := hregistered setting hsetting
    have hrefused : ¬ ∃ record, UserInput.supplied .number Knot.limitStep.conf
        (Knot.againStep (.list [])).conf = .ok record := by
      rw [UserInput.supplied, Knot.ofConf_limitStep]
      rintro ⟨_, ⟨⟩⟩
    refine ⟨?_, Option.ne_none_iff_exists'.mp ?_⟩
    · rw [h.run_assemble_eq_none_iff hsteps]
      intro twin here hconf _
      exact h.run_build_eq_none_iff.mpr ⟨hconf ▸ Knot.limit_by_default, fun _ _ _ _ => rfl⟩
    · rw [Ne, h.run_assemble_eq_none_iff hsteps]
      intro hnever
      have hargs (conf : Conf) : ∃ args : Arguments Factory, args.conf = conf :=
        ⟨⟨⟨"first"⟩, context, .sentinel, conf, [], none, none⟩, rfl⟩
      obtain ⟨outerArgs, houterArgs⟩ := hargs Knot.firstStep.conf
      obtain ⟨innerArgs, hinnerArgs⟩ := hargs (Knot.againStep (.list [])).conf
      have hinner := h.run_build_eq_none_iff.mp (hnever outerArgs world houterArgs rfl)
      have hagain := h.run_build_eq_none_iff.mp (hinner.2 innerArgs world hinnerArgs rfl)
      exact hrefused (hinnerArgs ▸ hagain.1)
  case endless =>
    obtain ⟨knot, outer, registry, rest, hknot, houter, hadd, hpipes, hsteps, hregistered⟩ :=
      Knot.exists_registered (.text "")
    refine ⟨knot, outer, registry, hknot, houter, hadd, hpipes, fun setting hsetting mode depth
      context world => ?_⟩
    have h := hregistered setting hsetting
    have hgiven : ∃ record, UserInput.supplied .number Knot.limitStep.conf
        (Knot.againStep (.text "")).conf = .ok record := by
      rw [UserInput.supplied, Knot.ofConf_limitStep]
      exact ⟨_, rfl⟩
    rw [h.run_assemble_eq_none_iff hsteps]
    intro twin here hconf _
    cases depth with
    | zero => rfl
    | succ depth =>
        exact h.run_build_eq_none_iff.mpr ⟨hconf ▸ Knot.limit_by_default,
          fun other there hother _ => h.run_build_eq_none hgiven mode depth other there hother⟩

end Pipework
