import Pipework.Proofs.Assembly.Upstream

/-! # Which factories are called while a pipe is assembled

A workshop that writes down every call of a factory assembles as one that does not. While it
assembles, the factory of each step that is not embedded is called once, in the order of the plan,
and that of an embedded step is not called at all. Where a step fails, no later step is come to.
A factory that assembles a pipe of its own does so in a workshop of its own.
-/

namespace Pipework

namespace Assembly

variable {φ : Type} {assembly next : Assembly φ}

/-- The modules that have been built and bound are the same. -/
structure SameModules (before after : Assembly φ) : Prop where
  slots : after.slots.map Prod.fst = before.slots.map Prod.fst
  embeds : after.embeds = before.embeds

theorem SameModules.refl (assembly : Assembly φ) : assembly.SameModules assembly := ⟨rfl, rfl⟩

theorem SameModules.trans {first second third : Assembly φ} (h : first.SameModules second)
    (hnext : second.SameModules third) : first.SameModules third :=
  ⟨hnext.slots.trans h.slots, hnext.embeds.trans h.embeds⟩

theorem sameModules_setSlot (assembly : Assembly φ) (id : ModuleId) (slot : Slot) :
    assembly.SameModules (assembly.setSlot id slot) := by
  refine ⟨?_, rfl⟩
  rw [setSlot, List.map_map]
  apply List.map_congr_left
  intro entry _
  rw [Function.comp_apply]
  split
  next heq => exact heq.symm
  · rfl

theorem sameModules_take {id : ModuleId} {stage : Stage}
    (h : assembly.take id = .ok (stage, next)) : assembly.SameModules next := by
  unfold take at h
  split at h
  · cases h
  · cases h
  · cases h
    exact sameModules_setSlot assembly id _
  · cases h
    exact .refl assembly
  · unfold takeBranch at h
    split at h
    · obtain ⟨⟨index, fork⟩, -, hpure⟩ := bind_eq_ok_iff.mp h
      cases hpure
      exact ⟨rfl, rfl⟩
    · cases h

theorem sameModules_takeInput {step : Plan.Step} {stage : Stage}
    (h : assembly.takeInput step = .ok (stage, next)) : assembly.SameModules next := by
  unfold takeInput at h
  split at h
  · cases h
    exact .refl assembly
  · exact sameModules_take h
  · cases h

theorem sameModules_takeInputs {inputs : List (String × ModuleId)}
    {stages : List (String × Stage)} (h : assembly.takeInputs inputs = .ok (stages, next)) :
    assembly.SameModules next := by
  induction inputs generalizing assembly stages with
  | nil =>
      cases h
      exact .refl _
  | cons input rest ih =>
      obtain ⟨⟨stage, taken⟩, hstage, h⟩ := bind_eq_ok_iff.mp h
      obtain ⟨⟨others, last⟩, hothers, hpure⟩ := bind_eq_ok_iff.mp h
      cases hpure
      exact (sameModules_take hstage).trans (ih hothers)

/-- Gathering what a step is built from neither adds a module nor takes one away. -/
theorem arguments_eq_ok {context : RunContext} {step : Plan.Step} {args : Arguments φ}
    (h : assembly.arguments context step = .ok (args, next)) :
    assembly.SameModules next ∧ args.id = step.id ∧ args.context = context ∧
      args.conf = step.conf := by
  obtain ⟨⟨input, fed⟩, hinput, h⟩ := bind_eq_ok_iff.mp h
  obtain ⟨⟨inputs, taken⟩, hinputs, h⟩ := bind_eq_ok_iff.mp h
  obtain ⟨embed, -, hpure⟩ := bind_eq_ok_iff.mp h
  cases hpure
  exact ⟨(sameModules_takeInput hinput).trans (sameModules_takeInputs hinputs), rfl, rfl, rfl⟩

theorem addBuilt_slots (assembly : Assembly φ) (step : Plan.Step) (built : Built) :
    (assembly.addBuilt step built).slots.map Prod.fst =
        assembly.slots.map Prod.fst ++ [step.id] ∧
      (assembly.addBuilt step built).embeds = assembly.embeds := by
  cases built with
  | single stage =>
      rw [addBuilt]
      split
      · exact ⟨List.map_append, rfl⟩
      · exact ⟨List.map_append, rfl⟩
  | fork branches upstream => exact ⟨List.map_append, rfl⟩

theorem bind_eq_ok {context : RunContext} {step : Plan.Step} {factory : φ}
    (h : assembly.bind context step factory = .ok next) :
    next.slots = assembly.slots ∧
      next.embeds.map Prod.fst = assembly.embeds.map Prod.fst ++ [step.id] := by
  obtain ⟨nested, -, hpure⟩ := bind_eq_ok_iff.mp h
  cases hpure
  exact ⟨rfl, List.map_append⟩

/-- An assembly holds one entry for each of some steps: a slot, or a bound module for a step that
is embedded. -/
structure Holds (assembly : Assembly φ) (steps : List Plan.Step) : Prop where
  built : assembly.slots.map Prod.fst =
    (steps.filter fun step => !step.embedded).map Plan.Step.id
  bound : assembly.embeds.map Prod.fst = (steps.filter Plan.Step.embedded).map Plan.Step.id

namespace Holds

variable {done : List Plan.Step} {step : Plan.Step}

theorem start (output : ModuleId) : (start output : Assembly φ).Holds [] := ⟨rfl, rfl⟩

theorem addBuilt (h : assembly.Holds done) (hsame : assembly.SameModules next)
    (hembedded : step.embedded = false) (built : Built) :
    (next.addBuilt step built).Holds (done ++ [step]) := by
  obtain ⟨hslots, hembeds⟩ := next.addBuilt_slots step built
  refine ⟨?_, ?_⟩
  · rw [hslots, hsame.slots, h.built]
    simp [hembedded]
  · rw [hembeds, hsame.embeds, h.bound]
    simp [hembedded]

theorem bind {context : RunContext} {factory : φ} (h : assembly.Holds done)
    (hembedded : step.embedded = true)
    (hbind : assembly.bind context step factory = .ok next) : next.Holds (done ++ [step]) := by
  obtain ⟨hslots, hembeds⟩ := bind_eq_ok hbind
  refine ⟨?_, ?_⟩
  · rw [hslots, h.built]
    simp [hembedded]
  · rw [hembeds, h.bound]
    simp [hembedded]

/-- There are as many entries as steps. -/
theorem size_eq (h : assembly.Holds done) : assembly.size = done.length := by
  have hslots := congrArg List.length h.built
  have hembeds := congrArg List.length h.bound
  rw [List.length_map, List.length_map] at hslots hembeds
  rw [size, hslots, hembeds, Nat.add_comm]
  exact (List.length_eq_length_filter_add Plan.Step.embedded).symm

end Holds

end Assembly

namespace Workshop

variable {σ φ α β : Type}

/-- A call of a factory. -/
structure Call (φ : Type) where
  factory : φ
  args : Arguments φ

/-- A workshop that writes down the calls of its factories. -/
def recording (workshop : Workshop (StateT σ Option) φ) :
    Workshop (StateT (List (Call φ) × σ) Option) φ where
  registry := workshop.registry
  build factory args := fun (calls, state) =>
    ((workshop.build factory args).run state).map fun (outcome, later) =>
      (outcome, calls ++ [⟨factory, args⟩], later)
  report event := fun (calls, state) =>
    ((workshop.report event).run state).map fun (done, later) => (done, calls, later)
  mode := workshop.mode
  context := workshop.context

/-- What a computation comes to is what another one comes to that writes nothing down. -/
def Erases (recorded : ExceptT PipeError (StateT (List (Call φ) × σ) Option) α)
    (plain : ExceptT PipeError (StateT σ Option) α) : Prop :=
  ∀ calls state, (recorded.run.run (calls, state)).map (fun reached => (reached.1, reached.2.2)) =
    plain.run.run state

namespace Erases

theorem of_except (outcome : Except PipeError α) :
    Erases (φ := φ) (σ := σ) (ExceptT.mk (pure outcome)) (ExceptT.mk (pure outcome)) :=
  fun _ _ => rfl

theorem bind {recorded : ExceptT PipeError (StateT (List (Call φ) × σ) Option) α}
    {plain : ExceptT PipeError (StateT σ Option) α}
    {next : α → ExceptT PipeError (StateT (List (Call φ) × σ) Option) β}
    {plainNext : α → ExceptT PipeError (StateT σ Option) β} (h : Erases recorded plain)
    (hnext : ∀ value, Erases (next value) (plainNext value)) :
    Erases (recorded >>= next) (plain >>= plainNext) := by
  intro calls state
  rw [ExceptT.run_bind, StateT.run_bind, ExceptT.run_bind, StateT.run_bind, ← h calls state]
  cases recorded.run.run (calls, state) with
  | none => rfl
  | some reached =>
      obtain ⟨outcome, later, after⟩ := reached
      cases outcome with
      | error error => rfl
      | ok value => exact hnext value later after

theorem run_eq {recorded : ExceptT PipeError (StateT (List (Call φ) × σ) Option) α}
    {plain : ExceptT PipeError (StateT σ Option) α} (h : Erases recorded plain)
    {calls later : List (Call φ)} {state after : σ} {outcome : Except PipeError α}
    (hrun : recorded.run.run (calls, state) = some (outcome, later, after)) :
    plain.run.run state = some (outcome, after) := by
  rw [← h calls state, hrun]
  rfl

theorem report (workshop : Workshop (StateT σ Option) φ) (event : Event) :
    Erases (ExceptT.lift (workshop.recording.report event))
      (ExceptT.lift (workshop.report event)) := by
  intro calls state
  rw [ExceptT.run_lift, StateT.run_map, ExceptT.run_lift, StateT.run_map]
  show Option.map _ (Option.map _ (Option.map _ _)) = _
  cases (workshop.report event).run state <;> rfl

theorem build (workshop : Workshop (StateT σ Option) φ) (factory : φ) (args : Arguments φ) :
    Erases (ExceptT.lift (workshop.recording.build factory args))
      (ExceptT.lift (workshop.build factory args)) := by
  intro calls state
  rw [ExceptT.run_lift, StateT.run_map, ExceptT.run_lift, StateT.run_map]
  show Option.map _ (Option.map _ (Option.map _ _)) = _
  cases (workshop.build factory args).run state <;> rfl

theorem buildStep (workshop : Workshop (StateT σ Option) φ) (assembly : Assembly φ)
    (step : Plan.Step) (factory : φ) :
    Erases (workshop.recording.buildStep assembly step factory)
      (workshop.buildStep assembly step factory) := by
  unfold Workshop.buildStep
  refine (of_except _).bind fun taken => ?_
  have hverbose : workshop.recording.context = workshop.context := rfl
  dsimp only
  rw [hverbose]
  split
  on_goal 1 => refine (report workshop _).bind fun _ => ?_
  all_goals
    refine (build workshop factory taken.1).bind fun outcome => ?_
    cases outcome with
    | error error => exact of_except (.error (error.whileBuilding step.id))
    | ok built => exact of_except (.ok (taken.2.addBuilt step built))

theorem addStep (workshop : Workshop (StateT σ Option) φ) (assembly : Assembly φ)
    (step : Plan.Step) :
    Erases (workshop.recording.addStep assembly step) (workshop.addStep assembly step) := by
  unfold Workshop.addStep
  refine (of_except _).bind fun factory => ?_
  split
  · exact of_except _
  · exact buildStep workshop assembly step factory

theorem addSteps (workshop : Workshop (StateT σ Option) φ) (assembly : Assembly φ)
    (steps : List Plan.Step) :
    Erases (workshop.recording.addSteps assembly steps) (workshop.addSteps assembly steps) := by
  induction steps generalizing assembly with
  | nil => exact of_except (.ok assembly)
  | cons step rest ih => exact (addStep workshop assembly step).bind ih

/-- Writing the calls down does not change how a pipe is assembled. -/
theorem assemble (workshop : Workshop (StateT σ Option) φ) (pipe : Pipe) :
    Erases (workshop.recording.assemble pipe) (workshop.assemble pipe) := by
  unfold Workshop.assemble
  split
  · exact of_except (.error .emptyPipe)
  · exact (addSteps workshop _ _).bind fun assembly =>
      (report workshop _).bind fun _ => of_except (.ok assembly)

end Erases

/-- A call of the factory of a step, with what the step says it is built from. -/
structure Call.IsFor (workshop : Workshop (StateT σ Option) φ) (call : Call φ) (step : Plan.Step) :
    Prop where
  registered : workshop.registry.get step.type = .ok call.factory
  id_eq : call.args.id = step.id
  context_eq : call.args.context = workshop.context
  conf_eq : call.args.conf = step.conf

section Recording

variable {workshop : Workshop (StateT σ Option) φ} {assembly next : Assembly φ}
  {step : Plan.Step} {factory : φ} {calls later : List (Call φ)} {state after : σ}
  {outcome : Except PipeError (Assembly φ)}

theorem run_except {outcome reached : Except PipeError α}
    (h : (ExceptT.mk (pure outcome) : ExceptT PipeError (StateT (List (Call φ) × σ) Option) α).run.run
      (calls, state) = some (reached, later, after)) : outcome = reached ∧ later = calls := by
  cases h
  exact ⟨rfl, rfl⟩

theorem run_report {event : Event} {reached : Except PipeError Unit}
    (h : (ExceptT.lift (workshop.recording.report event)).run.run (calls, state) =
      some (reached, later, after)) : (∃ done, reached = .ok done) ∧ later = calls := by
  rw [ExceptT.run_lift, StateT.run_map] at h
  obtain ⟨⟨done, middle⟩, hreport, hreached⟩ := Option.map_eq_some_iff.mp h
  obtain ⟨⟨_, _⟩, -, hdone⟩ := Option.map_eq_some_iff.mp hreport
  cases hdone
  cases hreached
  exact ⟨⟨done, rfl⟩, rfl⟩

theorem run_build {args : Arguments φ} {reached : Except PipeError (Except PipeError Built)}
    (h : (ExceptT.lift (workshop.recording.build factory args)).run.run (calls, state) =
      some (reached, later, after)) :
    (∃ built, reached = .ok built) ∧ later = calls ++ [⟨factory, args⟩] := by
  rw [ExceptT.run_lift, StateT.run_map] at h
  obtain ⟨⟨built, middle⟩, hbuild, hreached⟩ := Option.map_eq_some_iff.mp h
  obtain ⟨⟨_, _⟩, -, hbuilt⟩ := Option.map_eq_some_iff.mp hbuild
  cases hbuilt
  cases hreached
  exact ⟨⟨built, rfl⟩, rfl⟩

/-- How building a step comes out: its factory is called once if everything is there that the step
is built from, and otherwise not at all. -/
theorem run_buildStep
    (h : (workshop.recording.buildStep assembly step factory).run.run (calls, state) =
      some (outcome, later, after)) :
    ((∃ error, outcome = .error error) ∧ later = calls) ∨
    ∃ args taken, assembly.arguments workshop.context step = .ok (args, taken) ∧
      later = calls ++ [⟨factory, args⟩] ∧
      ((∃ built, outcome = .ok (taken.addBuilt step built)) ∨
        ∃ cause : PipeError, outcome = .error (cause.whileBuilding step.id)) := by
  unfold buildStep at h
  rcases run_run_bind_eq_some_iff.mp h with ⟨error, harguments, rfl⟩ |
    ⟨⟨args, taken⟩, ⟨middle, between⟩, harguments, hbuilt⟩
  · exact .inl ⟨⟨error, rfl⟩, (run_except harguments).2⟩
  · obtain ⟨htaken, rfl⟩ := run_except harguments
    refine .inr ⟨args, taken, htaken, ?_⟩
    dsimp only at hbuilt
    split at hbuilt
    -- Reported or not, the rest is the call and what is made of its outcome.
    on_goal 1 =>
      rcases run_run_bind_eq_some_iff.mp hbuilt with ⟨_, hreport, -⟩ |
        ⟨_, ⟨_, between⟩, hreport, hreported⟩
      · obtain ⟨⟨_, hok⟩, -⟩ := run_report hreport
        cases hok
      obtain ⟨-, rfl⟩ := run_report hreport
      replace hbuilt := hreported
    all_goals
      rcases run_run_bind_eq_some_iff.mp hbuilt with ⟨_, hbuild, -⟩ |
        ⟨built, ⟨_, _⟩, hbuild, hreached⟩
      · obtain ⟨⟨_, hok⟩, -⟩ := run_build hbuild
        cases hok
      obtain ⟨-, rfl⟩ := run_build hbuild
      cases built with
      | error cause =>
          cases hreached
          exact ⟨rfl, .inr ⟨cause, rfl⟩⟩
      | ok built =>
          cases hreached
          exact ⟨rfl, .inl ⟨built, rfl⟩⟩

/-- How adding a step comes out. Either the step is embedded and is bound without a call, or its
factory is called once and its module is built, or the step fails: then its factory is called at
most once, only if it is not embedded, and it is the factory that fails. -/
theorem run_addStep
    (h : (workshop.recording.addStep assembly step).run.run (calls, state) =
      some (outcome, later, after)) :
    (∃ error, outcome = .error error ∧ later = calls) ∨
    (∃ factory, step.embedded = true ∧ ∃ next, outcome = .ok next ∧
      assembly.bind workshop.context step factory = .ok next ∧ later = calls) ∨
    ∃ call taken, step.embedded = false ∧ call.IsFor workshop step ∧ later = calls ++ [call] ∧
      assembly.SameModules taken ∧ ((∃ built, outcome = .ok (taken.addBuilt step built)) ∨
        ∃ cause : PipeError, outcome = .error (cause.whileBuilding step.id)) := by
  unfold addStep at h
  rcases run_run_bind_eq_some_iff.mp h with ⟨error, hfactory, rfl⟩ |
    ⟨factory, ⟨middle, between⟩, hfactory, hstep⟩
  · exact .inl ⟨error, rfl, (run_except hfactory).2⟩
  · obtain ⟨hregistered, rfl⟩ := run_except hfactory
    split at hstep
    next hembedded =>
      obtain ⟨hbind, rfl⟩ := run_except hstep
      cases outcome with
      | error error => exact .inl ⟨error, rfl, rfl⟩
      | ok next => exact .inr (.inl ⟨factory, hembedded, next, rfl, hbind, rfl⟩)
    next hembedded =>
      rcases run_buildStep hstep with ⟨⟨error, rfl⟩, rfl⟩ | ⟨args, taken, harguments, hlater, hout⟩
      · exact .inl ⟨error, rfl, rfl⟩
      · obtain ⟨hsame, hid, hcontext, hconf⟩ := Assembly.arguments_eq_ok harguments
        exact .inr (.inr ⟨⟨factory, args⟩, taken, Bool.eq_false_of_not_eq_true hembedded,
          ⟨hregistered, hid, hcontext, hconf⟩, hlater, hsame, hout⟩)

/-- What a step that fails has called: nothing, or its own factory where that has failed. -/
def Own (workshop : Workshop (StateT σ Option) φ) (step : Plan.Step) (error : PipeError)
    (own : List (Call φ)) : Prop :=
  own = [] ∨ ∃ call cause, own = [call] ∧ step.embedded = false ∧
    Call.IsFor workshop call step ∧ error = PipeError.whileBuilding step.id cause

theorem run_addStep_error {error : PipeError}
    (h : (workshop.recording.addStep assembly step).run.run (calls, state) =
      some (.error error, later, after)) :
    ∃ own, later = calls ++ own ∧ workshop.Own step error own := by
  rcases run_addStep h with ⟨_, -, hlater⟩ | ⟨_, _, _, hok, -⟩ |
    ⟨call, _, hembedded, hcall, hlater, -, ⟨_, hok⟩ | ⟨cause, herror⟩⟩
  · exact ⟨[], hlater.trans (List.append_nil _).symm, .inl rfl⟩
  · cases hok
  · cases hok
  · exact ⟨[call], hlater, .inr ⟨call, cause, rfl, hembedded, hcall, Except.error.inj herror⟩⟩

/-- Steps that can all be added get one entry each, and one call each unless they are embedded. -/
theorem run_addSteps_ok {done rest : List Plan.Step} (hholds : assembly.Holds done)
    (h : (workshop.recording.addSteps assembly rest).run.run (calls, state) =
      some (.ok next, later, after)) :
    next.Holds (done ++ rest) ∧ ∃ made, later = calls ++ made ∧
      List.Forall₂ (Call.IsFor workshop) made (rest.filter fun step => !step.embedded) := by
  induction rest generalizing assembly done calls state with
  | nil =>
      cases h
      rw [List.append_nil]
      exact ⟨hholds, [], (List.append_nil _).symm, .nil⟩
  | cons step rest ih =>
      rcases run_run_bind_eq_some_iff.mp h with ⟨error, -, hok⟩ |
        ⟨reached, ⟨middle, between⟩, hstep, hrest⟩
      · cases hok
      · rw [List.append_cons]
        rcases run_addStep hstep with ⟨error, hok, -⟩ |
          ⟨factory, hembedded, _, hok, hbind, rfl⟩ |
          ⟨call, taken, hembedded, hcall, rfl, hsame, ⟨built, hok⟩ | ⟨cause, hok⟩⟩
        · cases hok
        · cases hok
          obtain ⟨hnext, made, hlater, hmade⟩ := ih (hholds.bind hembedded hbind) hrest
          refine ⟨hnext, made, hlater, ?_⟩
          simpa [hembedded] using hmade
        · cases hok
          obtain ⟨hnext, made, hlater, hmade⟩ := ih (hholds.addBuilt hsame hembedded built) hrest
          refine ⟨hnext, call :: made, ?_, ?_⟩
          · rw [hlater, List.append_assoc, List.singleton_append]
          · simpa [hembedded] using ⟨hcall, hmade⟩
        · cases hok

/-- Where adding steps fails, one of them fails when those before it have been added. -/
theorem run_addSteps_error {rest : List Plan.Step} {error : PipeError}
    (h : (workshop.recording.addSteps assembly rest).run.run (calls, state) =
      some (.error error, later, after)) :
    ∃ before step behind reached middle between, rest = before ++ step :: behind ∧
      (workshop.recording.addSteps assembly before).run.run (calls, state) =
        some (.ok reached, middle, between) ∧
      (workshop.recording.addStep reached step).run.run (middle, between) =
        some (.error error, later, after) := by
  induction rest generalizing assembly calls state with
  | nil => cases h
  | cons step rest ih =>
      rcases run_run_bind_eq_some_iff.mp h with ⟨_, hstep, herror⟩ |
        ⟨reached, ⟨middle, between⟩, hstep, hrest⟩
      · cases herror
        exact ⟨[], step, rest, assembly, calls, state, rfl, rfl, hstep⟩
      · obtain ⟨before, failing, behind, last, calls', state', hsplit, hbefore, hfailing⟩ := ih hrest
        refine ⟨step :: before, failing, behind, last, calls', state', ?_, ?_, hfailing⟩
        · rw [hsplit, List.cons_append]
        · exact run_run_bind_eq_some_iff.mpr (.inr ⟨reached, (middle, between), hstep, hbefore⟩)

/-- The modules that the factories of some steps are called for are those of the steps. -/
theorem ids_of_isFor {steps : List Plan.Step} (h : List.Forall₂ (Call.IsFor workshop) calls steps) :
    calls.map (fun call => call.args.id) = steps.map Plan.Step.id := by
  induction h with
  | nil => rfl
  | cons hcall _ ih => rw [List.map_cons, List.map_cons, hcall.id_eq, ih]

end Recording

/-- What assembling the steps of a plan came to, and the calls that were made on the way. -/
structure Accounts (workshop : Workshop (StateT σ Option) φ) (steps : List Plan.Step) (state : σ)
    (outcome : Except PipeError (Assembly φ)) (calls : List (Call φ)) (after : σ) : Prop where
  /-- No factory is called twice for one module. -/
  once : (calls.map fun call => call.args.id).Nodup
  /-- Where there is an assembly, the calls are those for the steps that are not embedded, in their
  order, and the assembly holds one entry for each step. -/
  assembled : ∀ assembly, outcome = .ok assembly →
    List.Forall₂ (Call.IsFor workshop) calls (steps.filter fun step => !step.embedded) ∧
      assembly.Holds steps ∧ assembly.size = steps.length
  /-- Where a step fails, the calls are those for the steps before it, and one for the step itself
  if it is its own factory that fails. -/
  failed : ∀ error, outcome = .error error →
    (steps = [] ∧ error = .emptyPipe ∧ calls = []) ∨
    ∃ output before step behind reached middle made own, steps = before ++ step :: behind ∧
      (workshop.addSteps (.start output) before).run.run state = some (.ok reached, middle) ∧
      (workshop.addStep reached step).run.run middle = some (.error error, after) ∧
      List.Forall₂ (Call.IsFor workshop) made (before.filter fun step => !step.embedded) ∧
      calls = made ++ own ∧ workshop.Own step error own

/-- The ids of the calls for some steps are without repetition if those of the steps are. -/
theorem nodup_of_isFor {workshop : Workshop (StateT σ Option) φ} {calls : List (Call φ)}
    {steps all : List Plan.Step} (h : List.Forall₂ (Call.IsFor workshop) calls steps)
    (hsteps : List.Sublist steps all) (hnodup : (all.map Plan.Step.id).Nodup) :
    (calls.map fun call => call.args.id).Nodup := by
  rw [ids_of_isFor h]
  exact hnodup.sublist (hsteps.map Plan.Step.id)

theorem run_assemble {workshop : Workshop (StateT σ Option) φ} {pipe : Pipe} {state after : σ}
    {outcome : Except PipeError (Assembly φ)} {calls : List (Call φ)}
    (hnodup : (pipe.plan.steps.map Plan.Step.id).Nodup)
    (h : (workshop.recording.assemble pipe).run.run ([], state) = some (outcome, calls, after)) :
    workshop.Accounts pipe.plan.steps state outcome calls after := by
  unfold assemble at h
  split at h
  next hlast =>
    cases h
    exact ⟨List.nodup_nil, nofun, fun error herror => .inl
      ⟨List.getLast?_eq_none_iff.mp hlast, (Except.error.inj herror).symm, rfl⟩⟩
  next last hlast =>
    rcases run_run_bind_eq_some_iff.mp h with ⟨error, hsteps, rfl⟩ |
      ⟨assembly, ⟨made, between⟩, hsteps, hreport⟩
    · obtain ⟨before, step, behind, reached, made, middle, hsplit, hbefore, hstep⟩ :=
        run_addSteps_error hsteps
      obtain ⟨-, _, rfl, hmade⟩ := run_addSteps_ok (.start last.id) hbefore
      obtain ⟨own, rfl, hown⟩ := run_addStep_error hstep
      refine ⟨?_, nofun, fun _ herror => .inr ⟨last.id, before, step, behind, reached, middle, _, own,
        hsplit, (Erases.addSteps workshop _ before).run_eq hbefore,
        herror ▸ (Erases.addStep workshop reached step).run_eq hstep, hmade, rfl, ?_⟩⟩
      · rcases hown with rfl | ⟨call, cause, rfl, -, hcall, -⟩
        · rw [List.append_nil]
          refine nodup_of_isFor hmade ?_ hnodup
          rw [hsplit]
          exact List.filter_sublist.trans (List.sublist_append_left before _)
        · refine nodup_of_isFor (List.rel_append hmade (.cons hcall .nil)) ?_ hnodup
          rw [hsplit]
          exact List.filter_sublist.append (List.singleton_sublist.mpr List.mem_cons_self)
      · cases herror
        exact hown
    · obtain ⟨hholds, _, rfl, hmade⟩ := run_addSteps_ok (.start last.id) hsteps
      rcases run_run_bind_eq_some_iff.mp hreport with ⟨_, hreported, -⟩ |
        ⟨done, ⟨calls', middle'⟩, hreported, hpure⟩
      · obtain ⟨⟨_, hok⟩, -⟩ := run_report hreported
        cases hok
      · obtain ⟨-, rfl⟩ := run_report hreported
        cases hpure
        refine ⟨nodup_of_isFor hmade List.filter_sublist hnodup, ?_, nofun⟩
        intro _ hassembly
        cases hassembly
        exact ⟨hmade, hholds, hholds.size_eq⟩

end Workshop

namespace Pipe

/-- A pipe of outputs and readable loops is assembled if no embedded module feeds a step. -/
theorem assembles_of_isSimple {description : Value} {name : String} {pipe : Pipe}
    (hcompile : compile description name = .ok pipe) (hstray : pipe.plan.stray? = none)
    (hsimple : pipe.plan.steps.all Plan.Step.IsSimple = true) (hsteps : pipe.plan.steps ≠ [])
    {setting : Setting} (hsetting : setting.registry = .standard) (mode : Mode)
    (context : RunContext) (world : World) : ∃ assembly later,
      ((setting.workshop mode context).assemble pipe).run.run world =
        some (.ok assembly, later) := by
  obtain ⟨diagram, hparse, hcompile⟩ := bind_eq_ok_iff.mp hcompile
  have hcoherent := Diagram.coherent_of_parse hparse
  obtain ⟨outcome, later, hrun, houtcome⟩ := Workshop.assemble_outcome
    (Diagram.grounded_of_compile hcoherent hcompile)
    (fun last hlast => Diagram.provident_of_compile hcoherent hcompile hlast)
    (setting.regular_standard hsetting mode context)
    (setting.completes hsetting hsimple mode context) world
  rw [hstray] at houtcome
  obtain ⟨assembly, rfl⟩ := houtcome hsteps
  exact ⟨assembly, later, hrun⟩

/-- While a compiled pipe is assembled, in whatever workshop, each factory is called once for each
step that is not embedded, and up to the step that fails if one does. -/
theorem factories_called_once {description : Value} {name : String} {pipe : Pipe}
    (hcompile : compile description name = .ok pipe) {σ φ : Type}
    (workshop : Workshop (StateT σ Option) φ) :
    (pipe.plan.steps.map Plan.Step.id).Nodup ∧
      Workshop.Erases (workshop.recording.assemble pipe) (workshop.assemble pipe) ∧
      ∀ state outcome calls after,
        (workshop.recording.assemble pipe).run.run ([], state) = some (outcome, calls, after) →
          workshop.Accounts pipe.plan.steps state outcome calls after := by
  obtain ⟨diagram, hparse, hcompile⟩ := bind_eq_ok_iff.mp hcompile
  have hgrounded := Diagram.grounded_of_compile (Diagram.coherent_of_parse hparse) hcompile
  exact ⟨hgrounded.nodup, .assemble workshop pipe, fun _ _ _ _ hrun =>
    Workshop.run_assemble hgrounded.nodup hrun⟩

/-- A shared module feeds a loop, and the body of the loop is bound without a call. -/
theorem factories_called_once_of_twiceFed : ∃ pipe,
    compile Diagram.twiceFed "pipe" = .ok pipe ∧
    ∀ setting : Setting, setting.registry = .standard → ∀ world, ∃ assembly calls later,
      ((setting.workshop .sync .testing).recording.assemble pipe).run.run ([], world) =
        some (.ok assembly, calls, later) ∧
      calls.map (fun call => call.args.id) = [⟨"source"⟩, ⟨"each"⟩] ∧
      assembly.embeds.map Prod.fst = [⟨"body"⟩] ∧ assembly.size = 3 := by
  have hok : (compile Diagram.twiceFed "pipe").map (fun pipe => (pipe.plan.stray?,
      pipe.plan.steps.all Plan.Step.IsSimple, pipe.plan.steps.length,
      (pipe.plan.steps.filter fun step => !step.embedded).map Plan.Step.id,
      (pipe.plan.steps.filter Plan.Step.embedded).map Plan.Step.id)) =
        .ok (none, true, 3, [⟨"source"⟩, ⟨"each"⟩], [⟨"body"⟩]) := by cbv
  obtain ⟨pipe, hpipe, hshape⟩ := map_eq_ok_iff.mp hok
  simp only [Prod.mk.injEq] at hshape
  obtain ⟨hstray, hsimple, hlength, hbuilt, hbound⟩ := hshape
  refine ⟨pipe, hpipe, fun setting hsetting world => ?_⟩
  obtain ⟨-, herases, haccounts⟩ :=
    factories_called_once hpipe (setting.workshop .sync .testing)
  have hsteps : pipe.plan.steps ≠ [] := by
    rintro hnil
    simp [hnil] at hlength
  obtain ⟨assembly, later, hplain⟩ :=
    assembles_of_isSimple hpipe hstray hsimple hsteps hsetting .sync .testing world
  obtain ⟨⟨outcome, calls, after⟩, hrun, hsame⟩ :=
    Option.map_eq_some_iff.mp ((herases [] world).trans hplain)
  obtain ⟨rfl, -⟩ := Prod.mk.inj hsame
  obtain ⟨hcalls, hholds, hsize⟩ := (haccounts world _ _ _ hrun).assembled assembly rfl
  refine ⟨assembly, calls, after, hrun, ?_, ?_, ?_⟩
  · rw [Workshop.ids_of_isFor hcalls, hbuilt]
  · rw [hholds.bound, hbound]
  · rw [hsize, hlength]

end Pipe

end Pipework
