import Pipework.Proofs.Assembly.Calls
import Pipework.Proofs.Order.Execution
import Pipework.Proofs.Subpipe.Asking
import Pipework.Proofs.Subpipe.Circles
import Pipework.PipeRun

/-! # Pipes that run as modules are isolated

What is around a pipe that runs as a module does not show in it. Built in any two contexts and over
any two inputs from the same configuration, it fails with the same error or gives stages that nobody
can tell apart. Of what is around it building touches nothing but the log. The values of its user
inputs are those of the configuration, or their defaults.
-/

namespace Pipework

namespace Stage

/-- What asking two stages comes to: the same poll, and stages that are related. The junctions in
scope stay as they are. -/
structure Parallel (related : Stage → Stage → Prop) (here there : List (Junction Stage))
    (result other : (Poll × Stage) × List (Junction Stage)) : Prop where
  poll : result.1.1 = other.1.1
  rest : related result.1.2 other.1.2
  left : result.2 = here
  right : other.2 = there

/-- Nobody can tell two stages apart by asking them at the same times within the same budgets:
whatever is in scope and whatever else happens in between, both give the same, ask to go on at the
same time and ask the user nothing. -/
def Interchangeable (setting : Setting) (first second : Stage) : Prop :=
  ∃ related : Stage → Stage → Prop, related first second ∧
    ∀ stage other, related stage other → ∀ budget here there,
      Run.Mirrors World.desk (Parallel related here there)
        ((stage.poll setting budget).run here) ((other.poll setting budget).run there)

/-- A stage with junctions of its own does not look at those in scope. -/
theorem run_poll_closed (setting : Setting) (budget : Nat) (junctions here : List (Junction Stage))
    (out : Stage) : ((Stage.closed junctions out).poll setting (budget + 1)).run here =
      (out.poll setting budget).run junctions >>= fun asked =>
        pure ((asked.1.1, .closed asked.2 asked.1.2), here) := by
  simp [Stage.poll]

theorem SealedAkin.interchangeable {setting : Setting} {first second : Stage}
    (h : first.SealedAkin second) : first.Interchangeable setting second := by
  refine ⟨SealedAkin, h, ?_⟩
  rintro _ _ ⟨hjunctions, hout⟩ budget here there
  cases budget with
  | zero => exact .failure
  | succ budget =>
      rw [run_poll_closed, run_poll_closed]
      refine (poll_mirrors setting budget hout hjunctions).bind ?_
      rintro ⟨⟨poll, rest⟩, scope⟩ ⟨⟨_, twin⟩, other⟩ ⟨⟨rfl, hrest⟩, hscope⟩
      exact .pure ⟨rfl, .intro hscope hrest, rfl, rfl⟩

end Stage

namespace UserInput

/-- The types whose modules are user inputs. -/
def types : List Builtin :=
  [.textInput, .numberInput, .urlInput, .privateInput]

/-- A user input that is configured in one way gives this record in a pipe that runs as a module
and is configured in another: the value that the pipe is given under the name of the input, or the
default of the input. -/
def supplied (kind : FieldType) (own given : Conf) : Except PipeError Record := do
  let input ← ofConf own
  input.record kind ((given.given? input.name).getD (.text input.default))

end UserInput

theorem Dict.get?_ofList_filterMap {α : Type} (value? : String → Option α) (names : List String)
    (name : String) :
    (Dict.ofList (names.filterMap fun key =>
      (value? key).map fun value => (key, value))).get? name =
      if name ∈ names then value? name else none := by
  -- The pairs are filed one after the other, so the last of them is taken off first.
  induction names using List.reverseRecOn with
  | nil => rfl
  | append_singleton earlier last ih =>
      rw [Dict.ofList] at ih ⊢
      rw [List.filterMap_append, List.foldl_append]
      by_cases hlast : name = last
      · subst hlast
        cases hvalue : value? name with
        | none => simpa [hvalue] using ih
        | some value => simp [hvalue]
      · cases hvalue : value? last with
        | none => simpa [hvalue, hlast] using ih
        | some value => simpa [hvalue, hlast, Dict.get?_insert] using ih

/-- A pipe that runs as a module is supplied with what its configuration has, and nothing else. -/
theorem Factory.get?_suppliedInputs (conf : Conf) (name : String) :
    (suppliedInputs conf).get? name = conf.given? name := by
  rw [suppliedInputs, Dict.get?_ofList_filterMap]
  split
  · rfl
  next hname =>
    have hnone : conf.descriptor? name = none := by
      by_contra hsome
      obtain ⟨held, hheld⟩ := Option.ne_none_iff_exists'.mp hsome
      exact hname (List.mem_map.mpr ⟨(name, held), Dict.mem_entries_of_get? hheld, rfl⟩)
    rw [Conf.given?, hnone]
    rfl

/-- A user input of a pipe that runs as a module. -/
theorem Builtin.buildInput_of_supplied (kind : FieldType) (args : Arguments Factory) (conf : Conf)
    (hinner : args.context.submodule = true)
    (hinputs : args.context.inputs = Factory.suppliedInputs conf) :
    buildInput kind args =
      pure ((UserInput.supplied kind args.conf conf).map fun record =>
        .single (.constant record)) := by
  unfold buildInput UserInput.supplied
  cases UserInput.ofConf args.conf with
  | error error => rfl
  | ok input =>
      have hpreset : input.preset? args.context =
          some ((conf.given? input.name).getD (.text input.default)) := by
        rw [UserInput.preset?, RunContext.takesSupplied, hinner, hinputs,
          Factory.get?_suppliedInputs]
        rfl
      simp only [inputValue, hpreset, pure_bind]
      rfl

theorem Builtin.build_userInput {type : Builtin} (htype : type ∈ UserInput.types) (mode : Mode)
    (args : Arguments Factory) :
    type.build mode args = buildInput (UserInput.kindOf type) args := by
  rw [UserInput.types] at htype
  cases type with
  | textInput | numberInput | urlInput | privateInput => rfl
  | _ => simp at htype

theorem RunContext.logged_still (context : RunContext) (step : Plan.Step) (world : World) :
    (context.logged step world).still = world.still := by
  unfold logged
  split <;> rfl

/-- A user input of a pipe that runs as a module is added as the record with the value that the
pipe is supplied with, without end. -/
theorem Setting.addStep_userInput {setting : Setting} {step : Plan.Step} {type : Builtin}
    {conf : Conf} {context : RunContext} {assembly rest : Assembly Factory}
    {args : Arguments Factory} (hregistered : setting.registry.get step.type = .ok (.builtin type))
    (htype : type ∈ UserInput.types) (hembedded : step.embedded = false)
    (hinner : context.submodule = true) (hinputs : context.inputs = Factory.suppliedInputs conf)
    (hargs : assembly.arguments context step = .ok (args, rest)) (mode : Mode) (depth : Nat)
    (world : World) :
    ((setting.workshopAt mode depth context).addStep assembly step).run.run world =
      some (rest.addOutcome step ((UserInput.supplied (UserInput.kindOf type) step.conf conf).map
        fun record => .single (.constant record)), context.logged step world) := by
  obtain ⟨-, -, hcontext, hconf⟩ := Assembly.arguments_eq_ok hargs
  have hbuild : (Factory.builtin type).build setting mode depth args =
      pure ((UserInput.supplied (UserInput.kindOf type) step.conf conf).map fun record =>
        .single (.constant record)) := by
    rw [Factory.build, Builtin.build_userInput htype, ← hconf]
    exact Builtin.buildInput_of_supplied _ args conf (hcontext ▸ hinner) (hcontext ▸ hinputs)
  simp only [Setting.run_addStep hregistered hembedded, hargs, hbuild]
  rfl

namespace Workshop

/-- Adds a user input as the record with the value that a configuration gives it, without end. -/
def addSupplied (workshop : Workshop Run Factory) (assembly : Assembly Factory) (step : Plan.Step)
    (kind : FieldType) (conf : Conf) : ExceptT PipeError Run (Assembly Factory) := do
  let (_, rest) ← ExceptT.mk (pure (assembly.arguments workshop.context step))
  if workshop.context.verbose then
    ExceptT.lift (workshop.report (.building step.callForm))
  ExceptT.mk (pure (rest.addOutcome step
    ((UserInput.supplied kind step.conf conf).map fun record => .single (.constant record))))

/-- Adds the steps that are left of a pipe and takes its output. -/
def finish (workshop : Workshop Run Factory) (pipe : Pipe) (assembly : Assembly Factory)
    (steps : List Plan.Step) : ExceptT PipeError Run Stage := do
  let assembly ← workshop.addSteps assembly steps
  ExceptT.lift (workshop.report (.assembled workshop.mode assembly.size pipe.diagram.name))
  let (stage, warnings) ← ExceptT.mk (pure assembly.takeOutput)
  warnings.forM fun warning => ExceptT.lift (workshop.report warning)
  return stage

/-- However far a pipe is assembled, what is left is to finish it. -/
theorem output_eq (workshop : Workshop Run Factory) {pipe : Pipe} {before behind : List Plan.Step}
    {last : Plan.Step} (hsteps : pipe.plan.steps = before ++ behind)
    (hlast : pipe.plan.last? = some last) :
    workshop.output pipe = workshop.addSteps (.start last.id) before >>= fun reached =>
      workshop.finish pipe reached behind := by
  unfold output assemble finish
  rw [hlast, hsteps]
  simp only [addSteps_append, bind_assoc, pure_bind]

end Workshop

namespace Setting

variable {setting : Setting} {step : Plan.Step} {context : RunContext} {mode : Mode} {depth : Nat}
  {assembly : Assembly Factory} {conf : Conf} {world : World}

theorem run_addSupplied (kind : FieldType) :
    ((setting.workshopAt mode depth context).addSupplied assembly step kind conf).run.run world =
      match assembly.arguments context step with
      | .error error => some (.error error, world)
      | .ok (_, rest) => some (rest.addOutcome step ((UserInput.supplied kind step.conf conf).map
          fun record => .single (.constant record)), context.logged step world) := by
  unfold Workshop.addSupplied RunContext.logged
  rw [show (setting.workshopAt mode depth context).context = context from rfl]
  cases assembly.arguments context step with
  | error error => rfl
  | ok taken => cases context.verbose <;> rfl

/-- A pipe that runs as a module has its user inputs from its configuration. -/
theorem addStep_eq_addSupplied {type : Builtin}
    (hregistered : setting.registry.get step.type = .ok (.builtin type))
    (htype : type ∈ UserInput.types) (hembedded : step.embedded = false)
    (hinner : context.submodule = true) (hinputs : context.inputs = Factory.suppliedInputs conf) :
    (setting.workshopAt mode depth context).addStep assembly step =
      (setting.workshopAt mode depth context).addSupplied assembly step
        (UserInput.kindOf type) conf := by
  refine ExceptT.ext (StateT.ext fun world => ?_)
  rw [run_addSupplied]
  cases hargs : assembly.arguments context step with
  | error error => rw [run_addStep hregistered hembedded, hargs]
  | ok taken =>
      obtain ⟨args, rest⟩ := taken
      exact addStep_userInput hregistered htype hembedded hinner hinputs hargs mode depth world

end Setting

/-- How a pipe is built that runs as a module with a configuration. -/
structure Pipe.Isolated (setting : Setting) (mode : Mode) (inner : Pipe) (conf : Conf) : Prop where
  /-- In any two contexts and over any two inputs, and however deep pipes may still be nested,
  building fails with the same error or gives stages that nobody can tell apart. It leaves alone
  what is around it but for the events and the builds of probes: it reads no line, asks the user
  nothing, opens no file and asks no module for an answer. -/
  alike : ∀ (depth : Nat) (first second : Arguments Factory), first.conf = conf →
    second.conf = conf →
    ((Factory.pipe inner).build setting mode depth first).Mirrors World.still
      (Agree fun built other => ∃ stage twin, built = .single stage ∧ other = .single twin ∧
        stage.Interchangeable setting twin)
      ((Factory.pipe inner).build setting mode depth second)
  /-- The pipe is assembled, and not described, whatever the run around it asks for. -/
  assembled : ∀ (depth : Nat) (args : Arguments Factory), args.conf = conf →
    let context := args.context.asSubpipe (Factory.suppliedInputs conf)
    PipeDescription.ofRun? context inner = none ∧
    (Factory.pipe inner).build setting mode (depth + 1) args = do
      return (← ((setting.workshopAt mode depth context).output inner).run).map .single
  /-- Each user input among the steps of the pipe gives the value that the configuration has under
  its name, or else its default, as its kind has it. -/
  inputs : ∀ step ∈ inner.plan.steps, ∀ type ∈ UserInput.types, step.embedded = false →
    setting.registry.get step.type = .ok (.builtin type) → ∀ (depth : Nat) (caller : RunContext)
      (assembly rest : Assembly Factory) (args : Arguments Factory) (world : World),
      let context := caller.asSubpipe (Factory.suppliedInputs conf)
      assembly.arguments context step = .ok (args, rest) → ∃ later,
        ((setting.workshopAt mode depth context).addStep assembly step).run.run world =
          some (rest.addOutcome step ((UserInput.supplied (UserInput.kindOf type) step.conf
            conf).map fun record => .single (.constant record)), later) ∧
        later.still = world.still
  /-- That is what happens when the pipe is built: whatever the steps before a user input have come
  to, it is added with this value, and the steps behind it are built from there. -/
  supplies : ∀ before step behind, inner.plan.steps = before ++ step :: behind →
    ∀ type ∈ UserInput.types, step.embedded = false →
    setting.registry.get step.type = .ok (.builtin type) →
    ∀ (depth : Nat) (args : Arguments Factory), args.conf = conf →
      let workshop := setting.workshopAt mode depth
        (args.context.asSubpipe (Factory.suppliedInputs conf))
      ∃ last, inner.plan.last? = some last ∧
        (Factory.pipe inner).build setting mode (depth + 1) args = do
          let stage ← (do
            let reached ← workshop.addSteps (.start last.id) before
            let added ← workshop.addSupplied reached step (UserInput.kindOf type) conf
            workshop.finish inner added behind : ExceptT PipeError Run Stage).run
          return stage.map .single

namespace Pipe

/-- Whatever building a pipe comes to, what is around it is left alone. -/
theorem Isolated.left {setting : Setting} {mode : Mode} {inner : Pipe} {conf : Conf}
    (h : inner.Isolated setting mode conf) {depth : Nat} {args : Arguments Factory}
    (hconf : args.conf = conf) {world later : World} {outcome : Except PipeError Built}
    (hrun : ((Factory.pipe inner).build setting mode depth args).run world =
      some (outcome, later)) : later.still = world.still := by
  have halike := h.alike depth args args hconf hconf (rfl : world.clock = world.clock)
  rw [hrun] at halike
  cases halike with
  | some hreached => exact hreached.left

/-- Whatever pipe runs as a module, nothing around it shows in it. -/
theorem subpipe_isolated (setting : Setting) (mode : Mode) (inner : Pipe) (conf : Conf) :
    inner.Isolated setting mode conf where
  alike := by
    intro depth first second hfirst hsecond
    refine (Factory.build_subpipe_mirrors setting mode depth inner
      (hfirst.trans hsecond.symm)).imp fun _ _ hagree => hagree.imp fun _ _ hbuilt => ?_
    obtain ⟨hstage⟩ := hbuilt
    exact ⟨_, _, rfl, rfl, hstage.interchangeable⟩
  assembled := by
    rintro depth args rfl
    exact ⟨rfl, Factory.build_pipe setting mode depth inner args⟩
  inputs := fun step _ _ htype hembedded hregistered depth _ _ _ _ world hargs =>
    ⟨_, Setting.addStep_userInput hregistered htype hembedded rfl rfl hargs mode depth world,
      RunContext.logged_still _ step world⟩
  supplies := by
    rintro before step behind hsteps type htype hembedded hregistered depth args rfl
    have hlast : inner.plan.last? ≠ none := by
      rw [Plan.last?, hsteps]
      exact mt List.getLast?_eq_none_iff.mp
        (List.append_ne_nil_of_right_ne_nil _ (List.cons_ne_nil step behind))
    obtain ⟨last, hlast⟩ := Option.ne_none_iff_exists'.mp hlast
    refine ⟨last, hlast, (Factory.build_pipe ..).trans ?_⟩
    refine congrArg (fun output : ExceptT PipeError Run Stage =>
      output.run >>= fun stage => pure (stage.map Built.single)) ?_
    rw [Workshop.output_eq _ hsteps hlast]
    -- What comes before the user input is the same on both sides, whatever it comes to.
    refine congrArg _ (funext fun reached => ?_)
    rw [← Setting.addStep_eq_addSupplied hregistered htype hembedded rfl rfl]
    exact bind_assoc ..

end Pipe

namespace Greeting

/-- The configuration of a user input with a name and a default. -/
def inputConf (name default : String) : Value :=
  .object ⟨[("default", .object ⟨[("value", .text default)]⟩),
    ("name", .object ⟨[("value", .text name)]⟩)]⟩

/-- The configuration of a module that gives a name to the pipe that it runs. -/
def naming (name : String) : Value :=
  .object ⟨[("who", .object ⟨[("value", .text name)]⟩)]⟩

/-- A pipe that passes the name on for which it asks. -/
def greeting : Value :=
  .object ⟨[
    ("modules", .list [
      .object ⟨[("conf", inputConf "who" "world"), ("id", .text "who"),
        ("type", .text "textinput")]⟩,
      Diagram.plainModule "out" "output"]),
    ("wires", .list [Diagram.plainWire "feed" "who" "out"])]⟩

/-- A pipe that asks for a name as well and passes it to the pipe `greeting`, which it gives a name
of its own. -/
def salute : Value :=
  .object ⟨[
    ("modules", .list [
      .object ⟨[("conf", inputConf "who" "nobody"), ("id", .text "own"),
        ("type", .text "textinput")]⟩,
      .object ⟨[("conf", naming "inner"), ("id", .text "greet"),
        ("type", .text "pipe:greeting")]⟩]),
    ("wires", .list [Diagram.plainWire "feed" "own" "greet"])]⟩

/-- A step with one consumer and nothing but a default input. -/
def plainStep (id type : String) (input : Feed) (conf : Conf) : Plan.Step :=
  { id := ⟨id⟩, type, embedded := false, input, inputs := [], embed := none, branches := none, conf
    consumers := 1 }

/-- The step of a text input. -/
def inputStep (id : String) (conf : Conf) : Plan.Step :=
  plainStep id "textinput" .sentinel conf

/-- The step of a module that another one feeds. -/
def fedStep (id type source : String) (conf : Conf) : Plan.Step :=
  plainStep id type (.module ⟨source⟩) conf

def whoStep : Plan.Step :=
  inputStep "who" (.ofValue (inputConf "who" "world"))

def outStep : Plan.Step :=
  fedStep "out" "output" "who" .empty

def ownStep : Plan.Step :=
  inputStep "own" (.ofValue (inputConf "who" "nobody"))

def greetStep : Plan.Step :=
  fedStep "greet" "pipe:greeting" "own" (.ofValue (naming "inner"))

theorem compile_greeting : (Pipe.compile greeting "greeting").map (fun pipe => pipe.plan.steps) =
    .ok [whoStep, outStep] := by cbv

theorem compile_salute : (Pipe.compile salute "salute").map (fun pipe => pipe.plan.steps) =
    .ok [ownStep, greetStep] := by cbv

/-- Both pipes are registered. -/
structure Registered (setting : Setting) (inner outer : Pipe) : Prop where
  inner_steps : inner.plan.steps = [whoStep, outStep]
  outer_steps : outer.plan.steps = [ownStep, greetStep]
  input : setting.registry.get "textinput" = .ok (.builtin .textInput)
  output : setting.registry.get "output" = .ok (.builtin .output)
  registered : setting.registry.get "pipe:greeting" = .ok (.pipe inner)

/-- The record with a name. -/
def named (name : String) : Record :=
  .single UserInput.valueKey (.text name)

/-- The stage of the pipe `greeting` with a name. -/
def greeted (name : String) : Stage :=
  .closed [] (.tagged ⟨"out"⟩ 0 (.tagged ⟨"who"⟩ 0 (.constant (named name))))

/-- Wherever a pipe is built with a configuration, it comes to one stage. What is around it is left
alone. -/
def ComesTo (setting : Setting) (mode : Mode) (depth : Nat) (pipe : Pipe) (conf : Conf)
    (stage : Stage) : Prop :=
  ∀ (args : Arguments Factory) (world : World), args.conf = conf → ∃ later,
    ((Factory.pipe pipe).build setting mode depth args).run world =
      some (.ok (.single stage), later) ∧ later.still = world.still

section Building

variable {setting : Setting} {mode : Mode} {depth : Nat} {conf : Conf}

/-- Modules that have been built and nothing else, of which one is the output. -/
def holding (last : String) (slots : List (ModuleId × Slot)) : Assembly Factory :=
  { output := ⟨last⟩, slots, embeds := [], junctions := [] }

theorem arguments_holding (own last type : String) (conf : Conf) (context : RunContext)
    (stage : Stage) :
    (holding last [(⟨own⟩, .owned (some stage))]).arguments context (fedStep last type own conf) =
      .ok (⟨⟨last⟩, context, stage, conf, [], none, none⟩,
        holding last [(⟨own⟩, .owned none)]) := by
  have htaken : (holding last [(⟨own⟩, .owned (some stage))]).take ⟨own⟩ =
      .ok (stage, holding last [(⟨own⟩, .owned none)]) := by
    simp [holding, Assembly.take, Assembly.setSlot]
  unfold Assembly.arguments Assembly.takeInput
  rw [show (fedStep last type own conf).input = .module ⟨own⟩ from rfl]
  simp only [htaken]
  rfl

theorem takeOutput_holding {own last : String} (hdistinct : own ≠ last) (stage : Stage) :
    (holding last [(⟨own⟩, .owned none), (⟨last⟩, .owned (some stage))]).takeOutput =
      .ok (.closed [] stage, []) := by
  have htaken : (holding last [(⟨own⟩, .owned none), (⟨last⟩, .owned (some stage))]).take ⟨last⟩ =
      .ok (stage, holding last [(⟨own⟩, .owned none), (⟨last⟩, .owned none)]) := by
    have hother : ((⟨last⟩ : ModuleId) == ⟨own⟩) = false := by simpa using hdistinct.symm
    simp [holding, Assembly.take, Assembly.setSlot, List.lookup_cons, hother, hdistinct]
  unfold Assembly.takeOutput
  rw [show (holding last _).output = ⟨last⟩ from rfl, htaken]
  rfl

/-- With the last step of a pipe its stage is there. -/
theorem run_finish_last (pipe : Pipe) {context : RunContext} {step : Plan.Step}
    {assembly next : Assembly Factory} {stage : Stage} {world later : World}
    (hnext : ((setting.workshopAt mode depth context).addStep assembly step).run.run world =
      some (.ok next, later)) (htaken : next.takeOutput = .ok (stage, [])) :
    ∃ final, ((setting.workshopAt mode depth context).finish pipe assembly [step]).run.run world =
      some (.ok stage, final) := by
  refine ⟨{ later with events := later.events ++ [.assembled mode next.size pipe.diagram.name] },
    run_run_bind_eq_some_iff.mpr (.inr ⟨next, later, ?_, ?_⟩)⟩
  · exact run_run_bind_eq_some_iff.mpr (.inr ⟨next, later, hnext, rfl⟩)
  · rw [htaken]
    rfl

/-- A pipe of a text input and a module that it feeds comes to what the module comes to over the
record that the input gives. -/
theorem comesTo_of_fed {pipe : Pipe} (h : pipe.Isolated setting mode conf) {own last type : String}
    (hdistinct : own ≠ last) {ownConf lastConf : Conf}
    (hsteps : pipe.plan.steps = [inputStep own ownConf, fedStep last type own lastConf])
    (hinput : setting.registry.get "textinput" = .ok (.builtin .textInput)) {record : Record}
    (hrecord : UserInput.supplied .text ownConf conf = .ok record) {factory : Factory}
    (hlast : setting.registry.get type = .ok factory) {stage : Stage}
    (hbuilt : ∀ (args : Arguments Factory) (world : World), args.conf = lastConf →
      args.input = .tagged ⟨own⟩ 0 (.constant record) → ∃ later,
        (factory.build setting mode depth args).run world = some (.ok (.single stage), later)) :
    ComesTo setting mode (depth + 1) pipe conf (.closed [] (.tagged ⟨last⟩ 0 stage)) := by
  intro args world hconf
  obtain ⟨_, hfound, hbuild⟩ := h.supplies [] _ _ hsteps .textInput (by decide) rfl hinput depth
    args hconf
  rw [Plan.last?, hsteps] at hfound
  cases hfound
  -- From here on it does not matter who runs the pipe.
  generalize args.context.asSubpipe (Factory.suppliedInputs conf) = context at hbuild
  have hadded : ((setting.workshopAt mode depth context).addSupplied (holding last [])
      (inputStep own ownConf) .text conf).run.run world =
        some ((holding last []).addOutcome (inputStep own ownConf)
          ((UserInput.supplied .text ownConf conf).map fun record => .single (.constant record)),
          context.logged (inputStep own ownConf) world) :=
    Setting.run_addSupplied .text
  rw [hrecord] at hadded
  have hnext := Setting.run_addStep (show setting.registry.get (fedStep last type own lastConf).type =
      .ok factory from hlast) rfl mode depth context
    (holding last [(⟨own⟩, .owned (some (.tagged ⟨own⟩ 0 (.constant record))))])
    (context.logged (inputStep own ownConf) world)
  obtain ⟨later, hlater⟩ := hbuilt ⟨⟨last⟩, context, _, lastConf, [], none, none⟩
    (context.logged (fedStep last type own lastConf) (context.logged (inputStep own ownConf) world))
    rfl rfl
  simp only [arguments_holding, hlater] at hnext
  obtain ⟨final, hfinished⟩ := run_finish_last pipe hnext
    (takeOutput_holding hdistinct (.tagged ⟨last⟩ 0 stage))
  have hrun : ((Factory.pipe pipe).build setting mode (depth + 1) args).run world =
      some (.ok (.single (.closed [] (.tagged ⟨last⟩ 0 stage))), final) := by
    rw [hbuild]
    refine run_bind_eq_some_iff.mpr ⟨.ok (.closed [] (.tagged ⟨last⟩ 0 stage)), final, ?_, rfl⟩
    refine run_run_bind_eq_some_iff.mpr (.inr ⟨holding last [], world, rfl, ?_⟩)
    exact run_run_bind_eq_some_iff.mpr (.inr ⟨_, _, hadded, hfinished⟩)
  exact ⟨final, hrun, h.left hconf hrun⟩

/-- Wherever the pipe `greeting` runs, it has the name that it is given. -/
theorem Registered.comesTo_inner {inner outer : Pipe} (h : Registered setting inner outer)
    (hisolated : inner.Isolated setting mode conf) {name : String}
    (hname : UserInput.supplied .text whoStep.conf conf = .ok (named name)) :
    ComesTo setting mode (depth + 1) inner conf (greeted name) := by
  refine comesTo_of_fed hisolated (by decide) h.inner_steps h.input hname h.output ?_
  rintro args world - hinput
  rw [Factory.build, ← hinput]
  exact ⟨world, rfl⟩

/-- Wherever the pipe `salute` runs, the pipe `greeting` in it has the name that it gives. -/
theorem Registered.comesTo_outer {inner outer : Pipe} (h : Registered setting inner outer)
    (hisolated : outer.Isolated setting mode conf) {name : String}
    (hname : UserInput.supplied .text ownStep.conf conf = .ok (named name))
    (hinner : inner.Isolated setting mode greetStep.conf)
    (hgiven : UserInput.supplied .text whoStep.conf greetStep.conf = .ok (named "inner")) :
    ComesTo setting mode (depth + 2) outer conf
      (.closed [] (.tagged ⟨"greet"⟩ 0 (greeted "inner"))) := by
  refine comesTo_of_fed hisolated (by decide) h.outer_steps h.input hname h.registered ?_
  intro args world hconf _
  have hcomes : ComesTo setting mode (depth + 1) inner greetStep.conf (greeted "inner") :=
    h.comesTo_inner hinner hgiven
  obtain ⟨later, hrun, -⟩ := hcomes args world hconf
  exact ⟨later, hrun⟩

end Building

/-- The two pipes compile and can be registered. -/
theorem exists_registered : ∃ inner outer between registry,
    Pipe.compile greeting "greeting" = .ok inner ∧ Pipe.compile salute "salute" = .ok outer ∧
    Registry.standard.addPipe "greeting" inner = .ok between ∧
    between.addPipe "salute" outer = .ok registry ∧
    ∀ setting : Setting, setting.registry = registry → Registered setting inner outer := by
  obtain ⟨inner, hinner, hinnerSteps⟩ := map_eq_ok_iff.mp compile_greeting
  obtain ⟨outer, houter, houterSteps⟩ := map_eq_ok_iff.mp compile_salute
  have hfirst : Registry.standard.addPipe "greeting" inner =
      .ok ⟨Registry.standard.factories.insert (TypeName.ofPipe "greeting") (.pipe inner)⟩ := by rfl
  have hsecond : Registry.addPipe
      ⟨Registry.standard.factories.insert (TypeName.ofPipe "greeting") (.pipe inner)⟩
      "salute" outer = .ok ⟨(Registry.standard.factories.insert (TypeName.ofPipe "greeting")
        (.pipe inner)).insert (TypeName.ofPipe "salute") (.pipe outer)⟩ := by rfl
  refine ⟨inner, outer, _, _, hinner, houter, hfirst, hsecond, fun setting hsetting => ?_⟩
  have hget (type : String) (hother : type ≠ TypeName.ofPipe "salute") :
      setting.registry.get type = if type = TypeName.ofPipe "greeting" then .ok (.pipe inner)
        else Registry.standard.get type := by
    rw [hsetting, Registry.get_addPipe hsecond, if_neg hother, Registry.get_addPipe hfirst]
  refine ⟨hinnerSteps, houterSteps, ?_, ?_, ?_⟩
  · exact (hget _ (by decide)).trans (@Registry.get_standard_name .textInput)
  · exact (hget _ (by decide)).trans (@Registry.get_standard_name .output)
  · exact hget _ (by decide)

end Greeting

/-- Whatever runs the pipe `salute` and whatever name it gives it, the pipe `greeting` in it has the
name that `salute` gives. By itself `greeting` has the name that it is given, or else the name that
it has by default. -/
theorem Pipe.subpipe_isolated_of_greeting : ∃ inner outer between registry,
    compile Greeting.greeting "greeting" = .ok inner ∧ compile Greeting.salute "salute" = .ok outer ∧
    Registry.standard.addPipe "greeting" inner = .ok between ∧
    between.addPipe "salute" outer = .ok registry ∧
    ∀ setting : Setting, setting.registry = registry → ∀ mode depth,
      Greeting.ComesTo setting mode (depth + 2) outer (.ofValue (Greeting.naming "outer"))
        (.closed [] (.tagged ⟨"greet"⟩ 0 (Greeting.greeted "inner"))) ∧
      Greeting.ComesTo setting mode (depth + 1) inner (.ofValue (Greeting.naming "outer"))
        (Greeting.greeted "outer") ∧
      Greeting.ComesTo setting mode (depth + 1) inner .empty (Greeting.greeted "world") := by
  obtain ⟨inner, outer, between, registry, hinner, houter, hbetween, hregistry, hregistered⟩ :=
    Greeting.exists_registered
  refine ⟨inner, outer, between, registry, hinner, houter, hbetween, hregistry, ?_⟩
  intro setting hsetting mode depth
  have h := hregistered setting hsetting
  refine ⟨?nested, ?given, ?default⟩
  case nested =>
    exact h.comesTo_outer (subpipe_isolated setting mode outer _) (by rfl)
      (subpipe_isolated setting mode inner _) (by rfl)
  case given => exact h.comesTo_inner (subpipe_isolated setting mode inner _) (by rfl)
  case default => exact h.comesTo_inner (subpipe_isolated setting mode inner _) (by rfl)

end Pipework
