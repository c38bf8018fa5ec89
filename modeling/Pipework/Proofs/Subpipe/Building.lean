import Pipework.Proofs.Subpipe.Deepening
import Pipework.Proofs.Subpipe.Mirroring

/-! # Building a pipe that runs as a module

Modules of a pipe that runs as a module are built the same in any two surroundings: building fails
with the same error or gives stages that are akin, and it touches nothing around it but the events
and the builds of probes. Of what the pipe itself is given as a module only the configuration
matters.
-/

namespace Pipework

section Lists

variable {α β : Type} {related : α → β → Prop}

theorem rel_getElem? {here : List α} {there : List β} (h : List.Forall₂ related here there)
    (place : Nat) : Option.Rel related here[place]? there[place]? := by
  induction h generalizing place with
  | nil => exact .none
  | cons hhead _ ih =>
      cases place with
      | zero => exact .some hhead
      | succ place => exact ih place

theorem forall₂_set {here : List α} {there : List β} (h : List.Forall₂ related here there)
    (place : Nat) {value : α} {other : β} (hvalue : related value other) :
    List.Forall₂ related (here.set place value) (there.set place other) := by
  induction h generalizing place with
  | nil => exact .nil
  | cons hhead htail ih =>
      cases place with
      | zero => exact .cons hvalue htail
      | succ place => exact .cons hhead (ih place)

/-- The same name, with related values. -/
structure Labelled {κ : Type} (related : α → β → Prop) (entry : κ × α) (other : κ × β) : Prop where
  name : entry.1 = other.1
  value : related entry.2 other.2

theorem rel_lookup {κ : Type} [BEq κ] {here : List (κ × α)} {there : List (κ × β)}
    (h : List.Forall₂ (Labelled related) here there) (name : κ) :
    Option.Rel related (here.lookup name) (there.lookup name) := by
  induction h with
  | nil => exact .none
  | @cons entry other _ _ hhead _ ih =>
      obtain ⟨held, value⟩ := entry
      obtain ⟨_, _⟩ := other
      obtain ⟨rfl, hvalue⟩ := hhead
      rw [List.lookup_cons, List.lookup_cons]
      cases name == held with
      | true => exact .some hvalue
      | false => exact ih

end Lists

inductive Slot.Akin : Slot → Slot → Prop
  | owned {first second : Option Stage} (h : Option.Rel Stage.Akin first second) :
      Akin (.owned first) (.owned second)
  | tap (junction : Nat) : Akin (.tap junction) (.tap junction)
  | fork (junction : Nat) : Akin (.fork junction) (.fork junction)

/-- Assemblies with stages and embedded modules that are akin. -/
structure Assembly.Akin (first second : Assembly Factory) : Prop where
  output : first.output = second.output
  slots : List.Forall₂ (Labelled Slot.Akin) first.slots second.slots
  embeds : List.Forall₂ (Labelled Embed.Akin) first.embeds second.embeds
  junctions : List.Forall₂ (Junction.Lifts Stage.Akin) first.junctions second.junctions

structure Arguments.Akin (first second : Arguments Factory) : Prop where
  id : first.id = second.id
  context : first.context.Akin second.context
  input : first.input.Akin second.input
  conf : first.conf = second.conf
  inputs : List.Forall₂ (Labelled Stage.Akin) first.inputs second.inputs
  embed : Option.Rel Embed.Akin first.embed second.embed
  branches : first.branches = second.branches

inductive Built.Akin : Built → Built → Prop
  | single {first second : Stage} (h : first.Akin second) : Akin (.single first) (.single second)
  | fork (branches : Nat) {first second : Stage} (h : first.Akin second) :
      Akin (.fork branches first) (.fork branches second)

/-- The outputs of two pipes. -/
inductive Built.SealedAkin : Built → Built → Prop
  | intro {first second : Stage} (h : first.SealedAkin second) :
      SealedAkin (.single first) (.single second)

theorem Built.SealedAkin.akin {built other : Built} (h : built.SealedAkin other) :
    built.Akin other := by
  obtain ⟨h⟩ := h
  exact .single h.akin

/-- Splits that are akin hand out the same branch. -/
theorem attach_akin (fork : Fork Stage) {upstream : Stage} (h : fork.upstream.Akin upstream) :
    Agree (fun taken other => taken.1 = other.1 ∧
        Junction.Lifts Stage.Akin (.fork taken.2) (.fork other.2))
      fork.attach { fork with upstream }.attach := by
  unfold Fork.attach Fork.branches
  split
  · exact .ok ⟨rfl, .fork { fork with handedOut := fork.handedOut + 1 } h⟩
  · exact .error _

namespace Assembly

variable {first second : Assembly Factory}

/-- Stages that are akin have been taken of both assemblies. -/
def AkinTaken (first second : Stage × Assembly Factory) : Prop :=
  first.1.Akin second.1 ∧ first.2.Akin second.2

namespace Akin

theorem start (output : ModuleId) : Assembly.Akin (.start output) (.start output) :=
  ⟨rfl, .nil, .nil, .nil⟩

theorem setSlot (h : first.Akin second) (id : ModuleId) {slot other : Slot}
    (hslot : slot.Akin other) : (first.setSlot id slot).Akin (second.setSlot id other) where
  output := h.output
  slots := by
    refine List.forall₂_map_left_iff.mpr (List.forall₂_map_right_iff.mpr (h.slots.imp ?_))
    rintro ⟨name, held⟩ ⟨_, twin⟩ ⟨rfl, hheld⟩
    by_cases heq : name = id
    · simp only [heq, if_true]
      exact ⟨rfl, hslot⟩
    · simp only [heq, if_false]
      exact ⟨rfl, hheld⟩
  embeds := h.embeds
  junctions := h.junctions

theorem takeBranch (h : first.Akin second) (id : ModuleId) (place : Nat) :
    Agree AkinTaken (first.takeBranch id place) (second.takeBranch id place) := by
  have hplace := rel_getElem? h.junctions place
  unfold Assembly.takeBranch
  generalize first.junctions[place]? = found, second.junctions[place]? = other at hplace
  cases hplace with
  | none => exact .error _
  | some hjunction =>
      cases hjunction with
      | tap => exact .error _
      | @fork fork upstream hupstream =>
          refine (attach_akin fork hupstream).bind ?_
          rintro ⟨index, rest⟩ ⟨_, other⟩ ⟨rfl, hrest⟩
          exact .ok ⟨.branch _ _, h.output, h.slots, h.embeds, forall₂_set h.junctions place hrest⟩

theorem take (h : first.Akin second) (id : ModuleId) :
    Agree AkinTaken (first.take id) (second.take id) := by
  have hlookup := rel_lookup h.slots id
  unfold Assembly.take
  generalize first.slots.lookup id = found, second.slots.lookup id = other at hlookup
  cases hlookup with
  | none => exact .error _
  | some hslot =>
      cases hslot with
      | tap place => exact .ok ⟨.tap place, h⟩
      | fork place => exact h.takeBranch id place
      | owned hstage =>
          cases hstage with
          | none => exact .error _
          | some hstage => exact .ok ⟨hstage, h.setSlot id (.owned .none)⟩

theorem takeInput (h : first.Akin second) (step : Plan.Step) :
    Agree AkinTaken (first.takeInput step) (second.takeInput step) := by
  unfold Assembly.takeInput
  cases step.input with
  | sentinel => exact .ok ⟨.sentinel, h⟩
  | module source => exact h.take source
  | record => exact .error _

theorem takeInputs (h : first.Akin second) (inputs : List (String × ModuleId)) :
    Agree (fun taken other => List.Forall₂ (Labelled Stage.Akin) taken.1 other.1 ∧
      taken.2.Akin other.2) (first.takeInputs inputs) (second.takeInputs inputs) := by
  induction inputs generalizing first second with
  | nil => exact .ok ⟨.nil, h⟩
  | cons input rest ih =>
      obtain ⟨name, source⟩ := input
      refine (h.take source).bind fun taken other htaken => ?_
      exact (ih htaken.2).bind fun stages others hstages =>
        .ok ⟨.cons ⟨rfl, htaken.1⟩ hstages.1, hstages.2⟩

theorem embedFor (h : first.Akin second) (step : Plan.Step) :
    Agree (Option.Rel Embed.Akin) (first.embedFor step) (second.embedFor step) := by
  unfold Assembly.embedFor
  cases step.embed with
  | none => exact .ok .none
  | some id =>
      have hlookup := rel_lookup h.embeds id
      simp only [Assembly.embed]
      generalize first.embeds.lookup id = found, second.embeds.lookup id = other at hlookup
      cases hlookup with
      | none => exact .error _
      | some hembed => exact .ok (.some hembed)

theorem arguments (h : first.Akin second) {context other : RunContext}
    (hcontext : context.Akin other) (step : Plan.Step) :
    Agree (fun taken twin => taken.1.Akin twin.1 ∧ taken.2.Akin twin.2)
      (first.arguments context step) (second.arguments other step) := by
  refine (h.takeInput step).bind fun taken twin htaken => ?_
  refine (htaken.2.takeInputs step.inputs).bind fun others twins hothers => ?_
  refine (hothers.2.embedFor step).bind fun held twinHeld hheld => ?_
  exact .ok ⟨⟨rfl, hcontext, htaken.1, rfl, hothers.1, hheld, rfl⟩, hothers.2⟩

theorem bind (h : first.Akin second) {context other : RunContext} (hcontext : context.Akin other)
    (step : Plan.Step) (factory : Factory) :
    Agree Assembly.Akin (first.bind context step factory) (second.bind other step factory) := by
  refine (h.embedFor step).bind fun held twin hheld => ?_
  refine .ok ⟨h.output, h.slots, ?_, h.junctions⟩
  exact List.rel_append h.embeds (.cons ⟨rfl, rfl, rfl, hcontext, rfl, hheld⟩ .nil)

theorem addSlot (h : first.Akin second) (step : Plan.Step) {slot other : Slot}
    (hslot : slot.Akin other) : (first.addSlot step slot).Akin (second.addSlot step other) :=
  ⟨h.output, List.rel_append h.slots (.cons ⟨rfl, hslot⟩ .nil), h.embeds, h.junctions⟩

theorem addJunction (h : first.Akin second) {junction other : Junction Stage}
    (hjunction : Junction.Lifts Stage.Akin junction other) :
    (first.addJunction junction).Akin (second.addJunction other) :=
  ⟨h.output, h.slots, h.embeds, List.rel_append h.junctions (.cons hjunction .nil)⟩

theorem addBuilt (h : first.Akin second) (step : Plan.Step) {built other : Built}
    (hbuilt : built.Akin other) :
    (first.addBuilt step built).Akin (second.addBuilt step other) := by
  have hlength : second.junctions.length = first.junctions.length := h.junctions.length_eq.symm
  cases hbuilt with
  | @single stage twin hstage =>
      have htagged : (Stage.tagged step.id 0 stage).Akin (.tagged step.id 0 twin) :=
        .tagged step.id 0 hstage
      rw [Assembly.addBuilt, Assembly.addBuilt, hlength]
      split
      · exact (h.addJunction (.tap (.start _) htagged)).addSlot step (.tap _)
      · exact h.addSlot step (.owned (.some htagged))
  | @fork branches stage twin hstage =>
      rw [Assembly.addBuilt, Assembly.addBuilt, hlength]
      exact (h.addJunction (.fork (.start step.id stage branches) hstage)).addSlot step (.fork _)

theorem closeJunction {junction other : Junction Stage}
    (h : Junction.Lifts Stage.Akin junction other) :
    Junction.Lifts Stage.Akin (closeJunction junction) (closeJunction other) := by
  cases h with
  | fork fork hupstream => exact .fork fork.close hupstream
  | tap tap hupstream => exact .tap tap hupstream

/-- Whatever is reported, the outputs are akin and have junctions of their own. -/
theorem takeOutput (h : first.Akin second) :
    Agree (fun taken other => taken.1.SealedAkin other.1) first.takeOutput second.takeOutput := by
  rw [Assembly.takeOutput, Assembly.takeOutput, ← h.output]
  refine (h.take first.output).bind ?_
  rintro ⟨stage, taken⟩ ⟨twin, other⟩ ⟨hstage, htaken⟩
  refine .ok (.intro (List.forall₂_map_left_iff.mpr (List.forall₂_map_right_iff.mpr ?_)) hstage)
  exact htaken.junctions.imp fun _ _ => closeJunction

end Akin

end Assembly

/-- Workshops of pipes that run as modules, which build what is akin from what is akin. -/
structure Workshop.Akin (first second : Workshop Run Factory) : Prop where
  registry : first.registry = second.registry
  context : first.context.Akin second.context
  report : first.report = Run.report ∧ second.report = Run.report
  build : ∀ factory args other, args.Akin other →
    (first.build factory args).Mirrors World.still (Agree Built.Akin)
      (second.build factory other)

namespace Workshop.Akin

variable {first second : Workshop Run Factory} {assembly other : Assembly Factory}

/-- Both workshops go on alike, whichever of them reports what it builds. -/
theorem mirrors_verbose (verbose loud : Bool) (event another : Event) {α β : Type}
    {related : α → β → Prop} {rest : ExceptT PipeError Run α} {more : ExceptT PipeError Run β}
    (h : rest.run.Mirrors World.still (Agree related) more.run) :
    (do if verbose then ExceptT.lift (Run.report event)
        rest : ExceptT PipeError Run α).run.Mirrors World.still (Agree related)
      (do if loud then ExceptT.lift (Run.report another)
          more : ExceptT PipeError Run β).run := by
  cases verbose <;> cases loud
  · exact h
  · exact h.skip_right (Run.report_passes another)
  · exact h.skip_left (Run.report_passes event)
  · exact (h.skip_right (Run.report_passes another)).skip_left (Run.report_passes event)

theorem buildStep (h : first.Akin second) (hassembly : assembly.Akin other) (step : Plan.Step)
    (factory : Factory) :
    (first.buildStep assembly step factory).run.Mirrors World.still (Agree Assembly.Akin)
      (second.buildStep other step factory).run := by
  unfold Workshop.buildStep
  rw [h.report.1, h.report.2]
  refine (Run.Mirrors.run_of_agree (hassembly.arguments h.context step)).run_bind ?_
  rintro ⟨args, rest⟩ ⟨twin, twinRest⟩ ⟨hargs, hrest⟩
  refine mirrors_verbose _ _ _ _ ?_
  refine (h.build factory args twin hargs).run_lift.run_bind ?_
  rintro _ _ (error | hbuilt)
  · exact .pure (.error _)
  · exact .pure (.ok (hrest.addBuilt step hbuilt))

theorem addStep (h : first.Akin second) (hassembly : assembly.Akin other) (step : Plan.Step) :
    (first.addStep assembly step).run.Mirrors World.still (Agree Assembly.Akin)
      (second.addStep other step).run := by
  unfold Workshop.addStep
  rw [← h.registry]
  refine (Run.Mirrors.run_of_agree (Agree.refl _)).run_bind ?_
  rintro factory _ rfl
  split
  · exact .run_of_agree (hassembly.bind h.context step factory)
  · exact h.buildStep hassembly step factory

theorem addSteps (h : first.Akin second) (hassembly : assembly.Akin other)
    (steps : List Plan.Step) :
    (first.addSteps assembly steps).run.Mirrors World.still (Agree Assembly.Akin)
      (second.addSteps other steps).run := by
  induction steps generalizing assembly other with
  | nil => exact .pure (.ok hassembly)
  | cons step rest ih => exact (h.addStep hassembly step).run_bind fun _ _ hnext => ih hnext

theorem assemble (h : first.Akin second) (pipe : Pipe) :
    (first.assemble pipe).run.Mirrors World.still (Agree Assembly.Akin)
      (second.assemble pipe).run := by
  unfold Workshop.assemble
  rw [h.report.1, h.report.2]
  cases pipe.plan.last? with
  | none => exact .pure (.error _)
  | some last =>
      refine (h.addSteps (.start last.id) pipe.plan.steps).run_bind ?_
      intro assembly other hassembly
      have hreport (event other : Event) := Run.Mirrors.of_passes (Run.report_passes event)
        (Run.report_passes other)
      exact (hreport _ _).run_lift.run_bind fun _ _ _ => .pure (.ok hassembly)

theorem reportAll (warnings others : List Event) :
    (warnings.forM fun warning => ExceptT.lift (Run.report warning) :
      ExceptT PipeError Run Unit).run.Mirrors World.still (Agree fun _ _ => True)
      (others.forM fun warning => ExceptT.lift (Run.report warning) :
        ExceptT PipeError Run Unit).run := by
  intro here there hclock
  rw [Workshop.Twin.run_reportAll, Workshop.Twin.run_reportAll]
  exact .some ⟨.ok trivial, hclock, ⟨none, (Awaited.earlier?_none _).symm,
    (Awaited.earlier?_none _).symm⟩, rfl, rfl⟩

/-- Such a pipe is assembled alike in both workshops. -/
theorem output (h : first.Akin second) (pipe : Pipe) :
    (first.output pipe).run.Mirrors World.still (Agree Stage.SealedAkin)
      (second.output pipe).run := by
  unfold Workshop.output
  rw [h.report.1, h.report.2]
  refine (h.assemble pipe).run_bind fun assembly other hassembly => ?_
  refine (Run.Mirrors.run_of_agree hassembly.takeOutput).run_bind ?_
  rintro ⟨stage, warnings⟩ ⟨twin, others⟩ hstage
  exact (reportAll warnings others).run_bind fun _ _ _ => .pure (.ok hstage)

end Workshop.Akin

section Modules

variable {first second : Arguments Factory} {mode : Mode}

/-- User inputs of a pipe that runs as a module do not prompt. -/
theorem Builtin.buildInput_mirrors (kind : FieldType) (h : first.Akin second) :
    (buildInput kind first).Mirrors World.still (Agree Built.Akin) (buildInput kind second) := by
  unfold buildInput
  rw [← h.conf]
  cases UserInput.ofConf first.conf with
  | error error => exact .pure (.error error)
  | ok input =>
      have hpreset : input.preset? second.context = input.preset? first.context := by
        rw [UserInput.preset?, UserInput.preset?, RunContext.takesSupplied,
          RunContext.takesSupplied, h.context.left, h.context.right, h.context.inputs]
        rfl
      have htaken : input.preset? first.context =
          some ((first.context.inputs.get? input.name).getD (.text input.default)) := by
        rw [UserInput.preset?, RunContext.takesSupplied, h.context.left]
        rfl
      simp only [inputValue, hpreset, htaken, pure_bind]
      refine .pure ((Agree.refl _).map ?_)
      rintro record _ rfl
      exact .single (.constant record)

theorem Builtin.buildLoop_agree_of_akin (h : first.Akin second) :
    Agree Built.Akin (buildLoop mode first) (buildLoop mode second) := by
  unfold buildLoop
  rw [← h.conf]
  have hembed := h.embed
  generalize first.embed = embed, second.embed = other at hembed
  cases hembed with
  | none => exact .error _
  | some hembed =>
      refine (Agree.refl (LoopRule.ofConf first.conf)).bind ?_
      rintro rule _ rfl
      exact .ok (.single (.batches (.loop rule mode hembed) (.intro [] false h.input .none)))

theorem Builtin.buildFetch_agree_of_akin (h : first.Akin second) :
    Agree Built.Akin (buildFetch mode first) (buildFetch mode second) := by
  unfold buildFetch
  rw [← h.conf]
  refine (Agree.refl (Fetch.checkConf first.conf)).bind fun _ _ _ => ?_
  exact .ok (.single (.batches (.fetch first.conf mode) (.intro [] false h.input .none)))

theorem Builtin.build_mirrors (mode : Mode) (type : Builtin) (h : first.Akin second) :
    (type.build mode first).Mirrors World.still (Agree Built.Akin) (type.build mode second) := by
  cases type with
  | output => exact .pure (.ok (.single h.input))
  | split =>
      unfold build
      rw [← h.branches]
      exact .pure (.ok (.fork _ h.input))
  | loop => exact .pure (buildLoop_agree_of_akin h)
  | count => exact .pure (.ok (.single (.tally (.intro 0 false h.input))))
  | fetch => exact .pure (buildFetch_agree_of_akin h)
  | textInput | numberInput | urlInput | privateInput => exact buildInput_mirrors _ h
  | dateBuilder | exchangeRate =>
      unfold build
      rw [← h.conf]
      exact .pure (.ok (.single (.mapped _ h.input)))

theorem Fixture.buildSampling_akin (h : first.Akin second) :
    (buildSampling first).Akin (buildSampling second) := by
  rw [buildSampling, buildSampling, ← h.conf]
  refine .single (.sampling (.intro _ (.cons (.intro _ (.some h.input)) ?_)))
  refine List.forall₂_map_left_iff.mpr (List.forall₂_map_right_iff.mpr (h.inputs.imp ?_))
  rintro ⟨name, stage⟩ ⟨_, other⟩ ⟨rfl, hstage⟩
  exact .intro name (.some hstage)

/-- Of a probe that counts its builds nothing is in view. -/
theorem Fixture.count_passes (id : ModuleId) :
    (Run.count id fun count => { count with builds := count.builds + 1 }).Passes World.still
      none := by
  intro world
  refine ⟨_, rfl, rfl, (Awaited.earlier?_none _).symm, ?_⟩
  refine congrArg (World.Still.mk _ _ _ _ _) (funext fun name => ?_)
  rw [Dict.get?_insert]
  by_cases heq : name = id.name
  · rw [heq, if_pos rfl]
    rfl
  · rw [if_neg heq]

theorem Fixture.build_mirrors (mode : Mode) (fixture : Fixture) (h : first.Akin second) :
    (fixture.build mode first).Mirrors World.still (Agree Built.Akin)
      (fixture.build mode second) := by
  cases fixture with
  | emit =>
      unfold build
      rw [← h.conf]
      refine .pure ?_
      unfold buildScript
      split
      · exact .error _
      · exact .ok (.single (.scripted _))
  | mutate =>
      unfold build
      rw [← h.conf]
      exact .pure (.ok (.single (.mapped _ h.input)))
  | merge =>
      exact .pure (.ok (.single (.pairing (.intro mode (.intro none false (.some h.input))
        (.intro none false (rel_lookup h.inputs "other"))))))
  | pull => exact .pure (.ok (buildSampling_akin h))
  | probe =>
      unfold build
      rw [← h.id]
      have hcount := Run.Mirrors.of_passes (count_passes first.id) (count_passes first.id)
      refine hcount.bind fun _ _ _ => ?_
      exact .pure (.ok (.single (.probe first.id h.input)))

end Modules

section Setting

variable (setting : Setting) (mode : Mode)

/-- Of what a pipe is given that runs as a module only the configuration matters, once what is akin
is built from what is akin one level deeper. -/
theorem Factory.build_pipe_mirrors {depth : Nat}
    (hbuild : ∀ (factory : Factory) {args other : Arguments Factory}, args.Akin other →
      (factory.build setting mode depth args).Mirrors World.still (Agree Built.Akin)
        (factory.build setting mode depth other))
    (inner : Pipe) {first second : Arguments Factory} (hconf : first.conf = second.conf) :
    ((Factory.pipe inner).build setting mode (depth + 1) first).Mirrors World.still
      (Agree Built.SealedAkin) ((Factory.pipe inner).build setting mode (depth + 1) second) := by
  have hworkshop : Workshop.Akin
      (setting.workshopAt mode depth (first.context.asSubpipe (suppliedInputs first.conf)))
      (setting.workshopAt mode depth (second.context.asSubpipe (suppliedInputs second.conf))) :=
    ⟨rfl, ⟨rfl, rfl, congrArg suppliedInputs hconf⟩, ⟨rfl, rfl⟩, fun factory _ _ => hbuild factory⟩
  rw [build_pipe, build_pipe]
  refine (hworkshop.output inner).bind fun outcome other houtcome => ?_
  exact .pure (houtcome.map fun _ _ hstage => .intro hstage)

/-- What is akin is built from what is akin. The induction is on how deep pipes may be nested. -/
theorem Factory.build_mirrors (depth : Nat) (factory : Factory) {first second : Arguments Factory}
    (h : first.Akin second) :
    (factory.build setting mode depth first).Mirrors World.still (Agree Built.Akin)
      (factory.build setting mode depth second) := by
  induction depth generalizing factory first second with
  | zero =>
      cases factory with
      | builtin type =>
          rw [Factory.build, Factory.build]
          exact type.build_mirrors mode h
      | fixture fixture =>
          rw [Factory.build, Factory.build]
          exact fixture.build_mirrors mode h
      | pipe inner => exact .failure
  | succ depth ih =>
      cases factory with
      | builtin type =>
          rw [Factory.build, Factory.build]
          exact type.build_mirrors mode h
      | fixture fixture =>
          rw [Factory.build, Factory.build]
          exact fixture.build_mirrors mode h
      | pipe inner =>
          exact (build_pipe_mirrors setting mode (fun factory _ _ => ih factory) inner h.conf).imp
            fun _ _ hagree => hagree.imp fun _ _ => Built.SealedAkin.akin

/-- A pipe that runs as a module is built alike wherever it is configured alike. -/
theorem Factory.build_subpipe_mirrors (depth : Nat) (inner : Pipe)
    {first second : Arguments Factory} (hconf : first.conf = second.conf) :
    ((Factory.pipe inner).build setting mode depth first).Mirrors World.still
      (Agree Built.SealedAkin) ((Factory.pipe inner).build setting mode depth second) := by
  cases depth with
  | zero => exact .failure
  | succ depth =>
      exact build_pipe_mirrors setting mode
        (fun factory _ _ h => build_mirrors setting mode depth factory h) inner hconf

theorem Built.single?_akin (id : ModuleId) {built other : Built} (h : built.Akin other) :
    Agree Stage.Akin (built.single? id) (other.single? id) := by
  cases h with
  | single hstage => exact .ok hstage
  | @fork branches upstream _ hupstream =>
      refine (attach_akin (.start id upstream branches) hupstream).bind ?_
      rintro ⟨index, rest⟩ ⟨_, other⟩ ⟨rfl, hrest⟩
      exact .ok (.closed (.cons hrest .nil) (.branch 0 index))

/-- What a loop embeds is built alike over the same record. -/
theorem Embed.instantiate_mirrors {embed other : Embed Factory} (h : embed.Akin other)
    (item : Record) :
    (embed.instantiate setting mode item).Mirrors World.still (Agree Stage.Akin)
      (other.instantiate setting mode item) := by
  obtain ⟨hid, hfactory, hcontext, hconf, hnested⟩ := h
  unfold Embed.instantiate
  rw [← hid, ← hfactory]
  have hargs : Arguments.Akin
      ⟨embed.id, embed.context, .once (some item), embed.conf, [], embed.nested, none⟩
      ⟨embed.id, other.context, .once (some item), other.conf, [], other.nested, none⟩ :=
    ⟨rfl, hcontext, .once _, hconf, .nil, hnested, rfl⟩
  refine (Factory.build_mirrors setting mode setting.depth embed.factory hargs).bind ?_
  rintro _ _ (error | hbuilt)
  · exact .pure (.error _)
  · exact .pure ((Built.single?_akin embed.id hbuilt).map fun _ _ h => .tagged embed.id 0 h)

end Setting

end Pipework
