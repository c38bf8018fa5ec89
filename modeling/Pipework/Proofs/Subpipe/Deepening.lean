import Pipework.Proofs.Assembly.Congruence
import Pipework.Proofs.Mode.Building
import Pipework.Proofs.Outcome

/-! # How deep pipes may be nested

What assembling a pipe comes to while pipes may be nested to some depth it comes to as well where
they may be nested deeper. Nothing but a pipe that runs as a module can keep building from coming to
anything: if all modules of a pipe are built one way or another, the pipe is assembled one way or
another.
-/

namespace Pipework

/-- What becomes of an assembly with what building a step comes to. -/
def Assembly.addOutcome (assembly : Assembly Factory) (step : Plan.Step) :
    Except PipeError Built → Except PipeError (Assembly Factory)
  | .error error => .error (error.whileBuilding step.id)
  | .ok built => .ok (assembly.addBuilt step built)

/-- The world in which a step is built: where steps are logged one event has been reported. -/
def RunContext.logged (context : RunContext) (step : Plan.Step) (world : World) : World :=
  if context.verbose then { world with events := world.events ++ [.building step.callForm] }
  else world

theorem RunContext.logged_clock (context : RunContext) (step : Plan.Step) (world : World) :
    (context.logged step world).clock = world.clock := by
  unfold logged
  split <;> rfl

/-- What adding a step comes to that is not embedded. -/
theorem Setting.run_addStep {setting : Setting} {step : Plan.Step} {factory : Factory}
    (hget : setting.registry.get step.type = .ok factory) (hembedded : step.embedded = false)
    (mode : Mode) (depth : Nat) (context : RunContext) (assembly : Assembly Factory)
    (world : World) :
    ((setting.workshopAt mode depth context).addStep assembly step).run.run world =
      match assembly.arguments context step with
      | .error error => some (.error error, world)
      | .ok (args, rest) =>
          ((factory.build setting mode depth args).run (context.logged step world)).map
            fun reached => (rest.addOutcome step reached.1, reached.2) := by
  have htaken {α β : Type} (value : α) (next : α → ExceptT PipeError Run β) :
      (ExceptT.mk (pure (.ok value)) >>= next) = next value := pure_bind value next
  have hlogged (verbose : Bool) (rest : ExceptT PipeError Run (Assembly Factory)) :
      ((do if verbose then ExceptT.lift (Run.report (.building step.callForm))
           rest : ExceptT PipeError Run _).run).run world =
        rest.run.run (if verbose then
          { world with events := world.events ++ [.building step.callForm] } else world) := by
    cases verbose <;> rfl
  unfold Workshop.addStep Workshop.buildStep
  rw [show (setting.workshopAt mode depth context).registry = setting.registry from rfl, hget,
    htaken, hembedded, if_neg Bool.false_ne_true]
  show ((ExceptT.mk (pure (assembly.arguments context step)) >>= _ :
    ExceptT PipeError Run _).run).run world = _
  cases assembly.arguments context step with
  | error error => rfl
  | ok taken =>
      obtain ⟨args, rest⟩ := taken
      rw [htaken]
      refine (hlogged context.verbose _).trans ?_
      show _ = ((factory.build setting mode depth args).run (context.logged step world)).map _
      rw [RunContext.logged, ExceptT.run_bind, ExceptT.run_lift, map_eq_pure_bind, bind_assoc,
        StateT.run_bind]
      show Option.bind ((factory.build setting mode depth args).run _) _ = _
      cases (factory.build setting mode depth args).run _ with
      | none => rfl
      | some reached =>
          obtain ⟨outcome, later⟩ := reached
          cases outcome <;> rfl

namespace Run

variable {α β : Type}

/-- Whatever the first computation comes to the second one comes to as well. -/
def Below (first second : Run α) : Prop :=
  ∀ world result, first.run world = some result → second.run world = some result

theorem Below.refl (computation : Run α) : Below computation computation :=
  fun _ _ => id

theorem Below.bind {first second : Run α} {next other : α → Run β} (h : Below first second)
    (hnext : ∀ value, Below (next value) (other value)) :
    Below (first >>= next) (second >>= other) := by
  rintro world ⟨result, later⟩ hrun
  obtain ⟨value, middle, hfirst, hrest⟩ := run_bind_eq_some_iff.mp hrun
  exact run_bind_eq_some_iff.mpr ⟨value, middle, h _ _ hfirst, hnext value _ _ hrest⟩

theorem Below.congruence : Congruence Below :=
  ⟨fun _ => .refl _, .bind, fun _ => .refl _⟩

/-- The computation comes to something in every world. -/
def Settles (computation : Run α) : Prop :=
  ∀ world, ∃ result, computation.run world = some result

theorem Settles.pure (value : α) : Settles (Pure.pure value) :=
  fun world => ⟨(value, world), rfl⟩

theorem Settles.bind {first : Run α} {next : α → Run β} (h : Settles first)
    (hnext : ∀ value, Settles (next value)) : Settles (first >>= next) := by
  intro world
  obtain ⟨⟨value, middle⟩, hfirst⟩ := h world
  obtain ⟨⟨result, later⟩, hrest⟩ := hnext value middle
  exact ⟨(result, later), run_bind_eq_some_iff.mpr ⟨value, middle, hfirst, hrest⟩⟩

/-- A row of computations comes to nothing if its first one does, or if what comes after it does. -/
theorem run_run_bind_eq_none_iff {first : ExceptT PipeError Run α}
    {next : α → ExceptT PipeError Run β} {world : World} :
    (first >>= next).run.run world = none ↔ first.run.run world = none ∨
      ∃ value middle, first.run.run world = some (.ok value, middle) ∧
        (next value).run.run middle = none := by
  rw [ExceptT.run_bind, StateT.run_bind]
  cases first.run.run world with
  | none => exact ⟨fun _ => .inl rfl, fun _ => rfl⟩
  | some reached =>
      obtain ⟨outcome, middle⟩ := reached
      cases outcome with
      | error error =>
          refine ⟨nofun, fun h => ?_⟩
          rcases h with h | ⟨_, _, h, -⟩ <;> cases h
      | ok value =>
          refine ⟨fun h => .inr ⟨value, middle, rfl, h⟩, fun h => ?_⟩
          rcases h with h | ⟨_, _, h, hnext⟩
          · cases h
          · cases h
            exact hnext

theorem Settles.congruence : Congruence fun first _ => Settles first :=
  ⟨.pure, .bind, fun _ _ => ⟨_, rfl⟩⟩

theorem Settles.run_bind {first : ExceptT PipeError Run α} {next : α → ExceptT PipeError Run β}
    (h : Settles first.run) (hnext : ∀ value, Settles (next value).run) :
    Settles (first >>= next).run := by
  rw [ExceptT.run_bind]
  refine h.bind fun outcome => ?_
  cases outcome with
  | error error => exact pure _
  | ok value => exact hnext value

theorem Settles.run_except (outcome : Except PipeError α) :
    Settles (ExceptT.mk (Pure.pure outcome) : ExceptT PipeError Run α).run :=
  .pure outcome

/-- What comes to something in any case does not matter. -/
theorem run_run_bind_eq_none_iff_of_settles {first : ExceptT PipeError Run α}
    {next : α → ExceptT PipeError Run β} (hnext : ∀ value, Settles (next value).run)
    {world : World} :
    (first >>= next).run.run world = none ↔ first.run.run world = none := by
  refine run_run_bind_eq_none_iff.trans (or_iff_left ?_)
  rintro ⟨value, middle, -, hnone⟩
  obtain ⟨_, hsome⟩ := hnext value middle
  cases hnone.symm.trans hsome

end Run

/-- Steps are added one part after the other. -/
theorem Workshop.addSteps_append (workshop : Workshop Run Factory) (assembly : Assembly Factory)
    (before behind : List Plan.Step) :
    workshop.addSteps assembly (before ++ behind) =
      workshop.addSteps assembly before >>= fun next => workshop.addSteps next behind := by
  induction before generalizing assembly with
  | nil => rw [List.nil_append, addSteps, pure_bind]
  | cons step rest ih =>
      rw [List.cons_append, addSteps, addSteps, bind_assoc]
      exact congrArg _ (funext fun next => ih next)

namespace Factory

variable (setting : Setting) (mode : Mode)

/-- The induction is on how deep pipes may be nested. -/
theorem build_below {depth deeper : Nat} (h : depth ≤ deeper) (factory : Factory)
    (args : Arguments Factory) :
    (factory.build setting mode depth args).Below (factory.build setting mode deeper args) := by
  induction depth generalizing deeper factory args with
  | zero =>
      refine build_cases setting mode 0 deeper (fun _ => .refl _) (fun _ => .refl _) ?_
      rintro inner rfl
      exact nofun
  | succ depth ih =>
      refine build_cases setting mode (depth + 1) deeper (fun _ => .refl _) (fun _ => .refl _) ?_
      rintro inner rfl
      obtain ⟨deeper, rfl⟩ := Nat.exists_eq_add_one_of_ne_zero (Nat.ne_zero_of_lt h)
      rw [build_pipe, build_pipe]
      refine Run.Below.bind ?_ fun _ => .refl _
      exact Run.Below.congruence.output depth deeper _
        (fun _ _ _ factory _ args => ih (Nat.le_of_succ_le_succ h) factory args) rfl

/-- Only a pipe may keep a module from being built one way or another. -/
theorem build_settles {depth : Nat} {factory : Factory} {args : Arguments Factory}
    (hpipe : ∀ inner, factory = .pipe inner → (factory.build setting mode depth args).Settles) :
    (factory.build setting mode depth args).Settles :=
  build_cases (motive := fun first _ => first.Settles) setting mode depth depth
    (fun type => Run.Settles.congruence.builtin (fun _ _ => ⟨_, rfl⟩) type args)
    (fun fixture => Run.Settles.congruence.fixture (fun _ _ => ⟨_, rfl⟩) fixture args) hpipe

end Factory

end Pipework
