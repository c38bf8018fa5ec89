import Pipework.PipeRun
import Pipework.Proofs.Outcome

/-! # Computations put together alike

Assembling puts computations together in one way, whatever they do. So what holds of those that
building consists of, and is kept when computations are put together, holds of building modules and
of assembling pipes; the same goes for what relates two ways of building.
-/

namespace Pipework

/-- Assembles pipes while pipes may be nested to some depth. -/
def Setting.workshopAt (setting : Setting) (mode : Mode) (depth : Nat) (context : RunContext) :
    Workshop Run Factory :=
  { registry := setting.registry
    build := Factory.build setting mode depth
    report := Run.report
    mode
    context }

/-- Pipes that are run are nested up to the depth of their setting. -/
theorem Setting.workshop_eq (setting : Setting) (mode : Mode) (context : RunContext) :
    setting.workshop mode context = setting.workshopAt mode setting.depth context := rfl

/-- A pipe that runs as a module is assembled one level deeper, in a context of its own. -/
theorem Factory.build_pipe (setting : Setting) (mode : Mode) (depth : Nat) (inner : Pipe)
    (args : Arguments Factory) :
    (Factory.pipe inner).build setting mode (depth + 1) args = do
      let workshop := setting.workshopAt mode depth
        (args.context.asSubpipe (suppliedInputs args.conf))
      return (← (workshop.output inner).run).map .single := by
  rw [Factory.build]
  rfl

namespace Factory

variable (setting : Setting) (mode : Mode)

/-- However deep pipes may be nested, modules are built alike unless they are pipes. -/
theorem build_cases {motive : Run (Except PipeError Built) → Run (Except PipeError Built) → Prop}
    (depth deeper : Nat) {factory : Factory} {args : Arguments Factory}
    (hbuiltin : ∀ type : Builtin, motive (type.build mode args) (type.build mode args))
    (hfixture : ∀ fixture : Fixture, motive (fixture.build mode args) (fixture.build mode args))
    (hpipe : ∀ inner, factory = .pipe inner →
      motive (factory.build setting mode depth args) (factory.build setting mode deeper args)) :
    motive (factory.build setting mode depth args) (factory.build setting mode deeper args) := by
  cases factory with
  | builtin type =>
      rw [build, build]
      exact hbuiltin type
  | fixture fixture =>
      rw [build, build]
      exact hfixture fixture
  | pipe inner => exact hpipe inner rfl

end Factory

namespace Run

variable {α β : Type}

/-- A relation between computations that are put together in the same way, which holds if it holds
between their parts. -/
structure Congruence (related : ∀ {α : Type}, Run α → Run α → Prop) : Prop where
  pure : ∀ {α : Type} (value : α), related (Pure.pure value) (Pure.pure value)
  bind : ∀ {α β : Type} {first second : Run α} {next other : α → Run β}, related first second →
    (∀ value, related (next value) (other value)) → related (first >>= next) (second >>= other)
  report : ∀ event, related (Run.report event) (Run.report event)

namespace Congruence

variable {related : ∀ {α : Type}, Run α → Run α → Prop} (h : Congruence related)

include h

theorem run_bind {first second : ExceptT PipeError Run α}
    {next other : α → ExceptT PipeError Run β} (hfirst : related first.run second.run)
    (hnext : ∀ value, related (next value).run (other value).run) :
    related (first >>= next).run (second >>= other).run := by
  rw [ExceptT.run_bind, ExceptT.run_bind]
  refine h.bind hfirst fun outcome => ?_
  cases outcome with
  | error error => exact h.pure _
  | ok value => exact hnext value

theorem run_lift {first second : Run α} (hrelated : related first second) :
    related (ExceptT.lift first : ExceptT PipeError Run α).run
      (ExceptT.lift second : ExceptT PipeError Run α).run := by
  rw [ExceptT.run_lift, ExceptT.run_lift, map_eq_pure_bind, map_eq_pure_bind]
  exact h.bind hrelated fun _ => h.pure _

theorem run_except (outcome : Except PipeError α) :
    related (ExceptT.mk (Pure.pure outcome) : ExceptT PipeError Run α).run
      (ExceptT.mk (Pure.pure outcome) : ExceptT PipeError Run α).run :=
  h.pure outcome

/-- What is known of an outcome is known of what comes after it. -/
theorem run_except_bind {outcome : Except PipeError α} {next other : α → ExceptT PipeError Run β}
    (hnext : ∀ value, outcome = .ok value → related (next value).run (other value).run) :
    related (ExceptT.mk (Pure.pure outcome) >>= next).run
      (ExceptT.mk (Pure.pure outcome) >>= other).run := by
  cases outcome with
  | error error => exact h.run_except (.error error)
  | ok value =>
      have htaken (rest : α → ExceptT PipeError Run β) :
          (ExceptT.mk (Pure.pure (.ok value)) >>= rest) = rest value := pure_bind value rest
      rw [htaken, htaken]
      exact hnext value rfl

/-- Where steps are logged one event comes first. -/
theorem reported (verbose : Bool) (event : Event) {first second : ExceptT PipeError Run α}
    (hrelated : related first.run second.run) :
    related (do if verbose then ExceptT.lift (Run.report event)
                first : ExceptT PipeError Run α).run
      (do if verbose then ExceptT.lift (Run.report event)
          second : ExceptT PipeError Run α).run := by
  cases verbose with
  | false => exact hrelated
  | true => exact h.run_bind (h.run_lift (h.report event)) fun _ => hrelated

theorem reportAll (warnings : List Event) :
    related (warnings.forM fun warning => ExceptT.lift (Run.report warning) :
      ExceptT PipeError Run Unit).run
      (warnings.forM fun warning => ExceptT.lift (Run.report warning) :
        ExceptT PipeError Run Unit).run := by
  induction warnings with
  | nil => exact h.run_except (.ok ())
  | cons warning rest ih => exact h.run_bind (h.run_lift (h.report warning)) fun _ => ih

section Workshops

variable {setting : Setting} {mode : Mode} (depth deeper : Nat) (context : RunContext)

theorem addStep (assembly : Assembly Factory) {step : Plan.Step}
    (hbuild : step.embedded = false → ∀ factory, setting.registry.get step.type = .ok factory →
      ∀ args, related (factory.build setting mode depth args)
        (factory.build setting mode deeper args)) :
    related ((setting.workshopAt mode depth context).addStep assembly step).run
      ((setting.workshopAt mode deeper context).addStep assembly step).run := by
  unfold Workshop.addStep
  refine h.run_except_bind fun factory hfactory => ?_
  split
  · exact h.run_except _
  next hembedded =>
    have hbuilt := hbuild (Bool.eq_false_of_not_eq_true hembedded) factory hfactory
    unfold Workshop.buildStep
    refine h.run_except_bind fun taken _ => ?_
    refine h.reported context.verbose _ (h.run_bind (h.run_lift (hbuilt _)) fun outcome => ?_)
    cases outcome with
    | error error => exact h.run_except (.error _)
    | ok built => exact h.run_except (.ok _)

variable {steps : List Plan.Step}
  (hbuild : ∀ step ∈ steps, step.embedded = false → ∀ factory,
    setting.registry.get step.type = .ok factory → ∀ args,
      related (factory.build setting mode depth args) (factory.build setting mode deeper args))

include hbuild

theorem addSteps (assembly : Assembly Factory) :
    related ((setting.workshopAt mode depth context).addSteps assembly steps).run
      ((setting.workshopAt mode deeper context).addSteps assembly steps).run := by
  induction steps generalizing assembly with
  | nil => exact h.run_except (.ok assembly)
  | cons step rest ih =>
      obtain ⟨hstep, hrest⟩ := List.forall_mem_cons.mp hbuild
      exact h.run_bind (h.addStep depth deeper context assembly hstep) fun next => ih hrest next

theorem assemble {pipe : Pipe} (hpipe : pipe.plan.steps = steps) :
    related ((setting.workshopAt mode depth context).assemble pipe).run
      ((setting.workshopAt mode deeper context).assemble pipe).run := by
  unfold Workshop.assemble
  rw [hpipe]
  split
  · exact h.run_except (.error .emptyPipe)
  · refine h.run_bind (h.addSteps depth deeper context hbuild _) fun assembly => ?_
    exact h.run_bind (h.run_lift (h.report _)) fun _ => h.run_except (.ok assembly)

theorem output {pipe : Pipe} (hpipe : pipe.plan.steps = steps) :
    related ((setting.workshopAt mode depth context).output pipe).run
      ((setting.workshopAt mode deeper context).output pipe).run := by
  unfold Workshop.output
  refine h.run_bind (h.assemble depth deeper context hbuild hpipe) fun assembly => ?_
  refine h.run_bind (h.run_except _) fun taken => ?_
  exact h.run_bind (h.reportAll taken.2) fun _ => h.run_except (.ok taken.1)

end Workshops

section Modules

variable {mode : Mode}
  (hask : ∀ question, related (Run.ask question) (Run.ask question))
  (hcount : ∀ id, related (Run.count id fun count => { count with builds := count.builds + 1 })
    (Run.count id fun count => { count with builds := count.builds + 1 }))

include hask in
theorem builtin (type : Builtin) (args : Arguments Factory) :
    related (type.build mode args) (type.build mode args) := by
  have hinput (kind : FieldType) :
      related (Builtin.buildInput kind args) (Builtin.buildInput kind args) := by
    unfold Builtin.buildInput
    split
    · exact h.pure _
    · refine h.bind ?_ fun value => h.pure _
      unfold Builtin.inputValue
      split
      · exact h.pure _
      · exact h.bind (hask _) fun line => h.pure _
  cases type with
  | textInput | numberInput | urlInput | privateInput => exact hinput _
  | _ => exact h.pure _

include hcount in
theorem fixture (fixture : Fixture) (args : Arguments Factory) :
    related (fixture.build mode args) (fixture.build mode args) := by
  cases fixture with
  | probe => exact h.bind (hcount _) fun _ => h.pure _
  | _ => exact h.pure _

variable (hfailure : ∀ {α : Type}, related (failure : Run α) (failure : Run α))

include hask hcount hfailure

/-- The induction is on how deep pipes may be nested. -/
theorem factory (setting : Setting) (depth : Nat) (factory : Factory)
    (args : Arguments Factory) :
    related (factory.build setting mode depth args) (factory.build setting mode depth args) := by
  induction depth generalizing factory args with
  | zero =>
      refine Factory.build_cases (motive := related) setting mode 0 0
        (fun type => h.builtin hask type args) (fun kind => h.fixture hcount kind args) ?_
      rintro inner rfl
      exact hfailure
  | succ depth ih =>
      refine Factory.build_cases (motive := related) setting mode (depth + 1) (depth + 1)
        (fun type => h.builtin hask type args) (fun kind => h.fixture hcount kind args) ?_
      rintro inner rfl
      rw [Factory.build_pipe]
      exact h.bind (h.output depth depth _ (fun _ _ _ inner _ args => ih inner args) rfl)
        fun _ => h.pure _

theorem ofPipe (setting : Setting) (limit : Option Nat) (context : RunContext) (pipe : Pipe) :
    related (PipeRun.ofPipe setting mode limit context pipe).run
      (PipeRun.ofPipe setting mode limit context pipe).run := by
  unfold PipeRun.ofPipe
  refine h.run_bind (h.output setting.depth setting.depth context (fun _ _ _ factory _ args => ?_)
    rfl) fun stage => h.run_except (.ok _)
  exact h.factory hask hcount hfailure setting setting.depth factory args

end Modules

end Congruence

end Run

end Pipework
