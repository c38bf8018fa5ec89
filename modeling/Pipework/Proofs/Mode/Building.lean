import Pipework.Proofs.Mode.Following
import Pipework.Stage.Build

/-! # Assembling in two modes

Built from twins, the modules of a pipe are twins in the two modes, or building fails with the same
error. So assembling a pipe in one mode follows assembling it in the other, as long as no type that
the pipe needs is that of a fixture.
-/

namespace Pipework

/-- Where the types of the modules are registered, they are built in or those of pipes of the same
kind. -/
def Registry.Closes (registry : Registry Factory) (known : Pipe → Prop) : Prop :=
  ∀ pipe, known pipe → ∀ step ∈ pipe.plan.steps, ∀ factory,
    registry.get step.type = .ok factory → factory.Among known

inductive Slot.Twin (known : Pipe → Prop) (mode other : Mode) (size : Nat) : Slot → Slot → Prop
  | owned {first second : Stage} (h : first.Twin known mode other size second) :
      Twin known mode other size (.owned (some first)) (.owned (some second))
  | taken : Twin known mode other size (.owned none) (.owned none)
  | tap {place : Nat} (hplace : place < size) : Twin known mode other size (.tap place) (.tap place)
  | fork {place : Nat} (hplace : place < size) :
      Twin known mode other size (.fork place) (.fork place)

/-- Assemblies with a number of junctions that differ in nothing but the mode. -/
structure Assembly.Twin (known : Pipe → Prop) (mode other : Mode) (size : Nat)
    (first second : Assembly Factory) : Prop where
  output : first.output = second.output
  slots : List.Forall₂ (fun entry twin => entry.1 = twin.1 ∧
    entry.2.Twin known mode other size twin.2) first.slots second.slots
  embeds : first.embeds = second.embeds
  among : ∀ entry ∈ first.embeds, entry.2.Among known
  size_eq : first.junctions.length = size
  junctions : Junction.Twins known mode other first.junctions second.junctions

structure Arguments.Twin (known : Pipe → Prop) (mode other : Mode) (size : Nat)
    (first second : Arguments Factory) : Prop where
  id : first.id = second.id
  context : first.context = second.context
  conf : first.conf = second.conf
  embed : first.embed = second.embed
  among : ∀ embed, first.embed = some embed → embed.Among known
  branches : first.branches = second.branches
  input : first.input.Twin known mode other size second.input

inductive Built.Twin (known : Pipe → Prop) (mode other : Mode) (size : Nat) : Built → Built → Prop
  | single {first second : Stage} (h : first.Twin known mode other size second) :
      Twin known mode other size (.single first) (.single second)
  | fork (branches : Nat) {first second : Stage} (h : first.Twin known mode other size second) :
      Twin known mode other size (.fork branches first) (.fork branches second)

variable {known : Pipe → Prop} {mode other : Mode} {size : Nat}

theorem Slot.Twin.mono {wider : Nat} {first second : Slot}
    (h : first.Twin known mode other size second) (hwider : size ≤ wider) :
    first.Twin known mode other wider second := by
  cases h with
  | owned h => exact .owned (h.mono hwider)
  | taken => exact .taken
  | tap hplace => exact .tap (hplace.trans_le hwider)
  | fork hplace => exact .fork (hplace.trans_le hwider)

/-- Forks hand out the same branch if they differ in their upstreams only. -/
theorem attach_agree {fork twin : Fork Stage}
    (h : (Junction.fork fork).outline = (Junction.fork twin).outline) :
    Agree (fun taken other => taken.1 = other.1 ∧
      (Junction.fork taken.2).outline = (Junction.fork other.2).outline ∧
      taken.2.upstream = fork.upstream ∧ other.2.upstream = twin.upstream)
      fork.attach twin.attach := by
  obtain ⟨_, ⟨⟩, hid, hbuffers, hhandedOut, hdry⟩ := Junction.eq_fork h
  unfold Fork.attach Fork.branches
  rw [← hid, ← hbuffers, ← hhandedOut]
  split
  · exact .ok ⟨rfl, by simp [Junction.outline, hid, hbuffers, hdry], rfl, rfl⟩
  · exact .error _

namespace Assembly

/-- The same stage has been taken of both assemblies, and they have as many junctions as before. -/
def TwinTaken (known : Pipe → Prop) (mode other : Mode) (size : Nat)
    (first second : Stage × Assembly Factory) : Prop :=
  first.1.Twin known mode other size second.1 ∧ first.2.Twin known mode other size second.2

namespace Twin

variable {first second : Assembly Factory}

theorem start (output : ModuleId) : Assembly.Twin known mode other 0 (.start output) (.start output) where
  output := rfl
  slots := .nil
  embeds := rfl
  among := nofun
  size_eq := rfl
  junctions := .nil

theorem lookup (h : first.Twin known mode other size second) (id : ModuleId) :
    Option.Rel (Slot.Twin known mode other size) (first.slots.lookup id)
      (second.slots.lookup id) := by
  have hslots := h.slots
  generalize first.slots = slots, second.slots = twins at hslots
  induction hslots with
  | nil => exact .none
  | @cons entry twin _ _ hentry _ ih =>
      obtain ⟨name, slot⟩ := entry
      obtain ⟨twinName, twinSlot⟩ := twin
      obtain ⟨rfl, hslot⟩ := hentry
      rw [List.lookup_cons, List.lookup_cons]
      cases id == name with
      | true => exact .some hslot
      | false => exact ih

theorem setSlot (h : first.Twin known mode other size second) (id : ModuleId) {slot twin : Slot}
    (hslot : slot.Twin known mode other size twin) :
    (first.setSlot id slot).Twin known mode other size (second.setSlot id twin) where
  output := h.output
  slots := by
    refine List.forall₂_map_left_iff.mpr (List.forall₂_map_right_iff.mpr (h.slots.imp ?_))
    rintro ⟨name, held⟩ ⟨_, twinHeld⟩ ⟨rfl, hheld⟩
    by_cases heq : name = id
    · simp [heq, hslot]
    · simp [heq, hheld]
  embeds := h.embeds
  among := h.among
  size_eq := h.size_eq
  junctions := h.junctions

theorem takeBranch (h : first.Twin known mode other size second) (id : ModuleId) (place : Nat) :
    Agree (TwinTaken known mode other size) (first.takeBranch id place)
      (second.takeBranch id place) := by
  unfold Assembly.takeBranch
  cases hplace : first.junctions[place]? with
  | none =>
      rw [h.junctions.getElem?_none hplace]
      exact .error _
  | some junction =>
      obtain ⟨twin, htwin, houtline, hupstream⟩ := h.junctions.getElem? hplace
      rw [htwin]
      cases junction with
      | tap tap =>
          obtain ⟨twinTap, rfl, -⟩ := Junction.eq_tap houtline
          exact .error _
      | fork fork =>
          obtain ⟨twinFork, rfl, -⟩ := Junction.eq_fork houtline
          refine (attach_agree houtline).bind ?_
          rintro ⟨index, taken⟩ ⟨_, twinTaken⟩ ⟨rfl, htaken, hsame, htwinSame⟩
          refine .ok ⟨.branch _ ?_, ⟨h.output, h.slots, h.embeds, h.among, ?_, ?_⟩⟩
          · rw [← h.size_eq]
            exact (List.getElem?_eq_some_iff.mp hplace).1
          · rw [List.length_set, h.size_eq]
          · refine h.junctions.set htaken ?_
            simp only [Junction.upstream] at hupstream ⊢
            rw [hsame, htwinSame]
            exact hupstream

theorem take (h : first.Twin known mode other size second) (id : ModuleId) :
    Agree (TwinTaken known mode other size) (first.take id) (second.take id) := by
  have hlookup := h.lookup id
  unfold Assembly.take
  generalize first.slots.lookup id = found, second.slots.lookup id = twin at hlookup
  cases hlookup with
  | none => exact .error _
  | some hslot =>
      cases hslot with
      | owned hstage => exact .ok ⟨hstage, h.setSlot id .taken⟩
      | taken => exact .error _
      | tap hplace => exact .ok ⟨.tap hplace, h⟩
      | fork hplace => exact h.takeBranch id _

theorem takeInput (h : first.Twin known mode other size second) (step : Plan.Step) :
    Agree (TwinTaken known mode other size) (first.takeInput step) (second.takeInput step) := by
  unfold Assembly.takeInput
  cases step.input with
  | sentinel => exact .ok ⟨.sentinel, h⟩
  | module source => exact h.take source
  | record => exact .error _

theorem takeInputs (h : first.Twin known mode other size second)
    (inputs : List (String × ModuleId)) :
    Agree (fun taken twin => taken.2.Twin known mode other size twin.2) (first.takeInputs inputs)
      (second.takeInputs inputs) := by
  induction inputs generalizing first second with
  | nil => exact .ok h
  | cons input rest ih =>
      obtain ⟨name, source⟩ := input
      refine (h.take source).bind fun taken twin htaken => ?_
      exact (ih htaken.2).bind fun stages twins hstages => .ok hstages

theorem lookup_among (h : first.Twin known mode other size second) {id : ModuleId}
    {embed : Embed Factory} (hembed : first.embeds.lookup id = some embed) : embed.Among known := by
  obtain ⟨before, after, heq, -⟩ := List.lookup_eq_some_iff.mp hembed
  refine h.among (id, embed) ?_
  rw [heq]
  exact List.mem_append_right _ List.mem_cons_self

theorem embedFor (h : first.Twin known mode other size second) (step : Plan.Step) :
    Agree (fun held twin => held = twin ∧ ∀ embed, held = some embed → embed.Among known)
      (first.embedFor step) (second.embedFor step) := by
  unfold Assembly.embedFor
  cases step.embed with
  | none => exact .ok ⟨rfl, nofun⟩
  | some id =>
      simp only [Assembly.embed, ← h.embeds]
      cases hlookup : first.embeds.lookup id with
      | none => exact .error _
      | some embed =>
          refine .ok ⟨rfl, ?_⟩
          rintro _ ⟨⟩
          exact h.lookup_among hlookup

theorem arguments (h : first.Twin known mode other size second) (context : RunContext)
    (step : Plan.Step) :
    Agree (fun taken twin => taken.1.Twin known mode other size twin.1 ∧
      taken.2.Twin known mode other size twin.2)
      (first.arguments context step) (second.arguments context step) := by
  refine (h.takeInput step).bind fun taken twin htaken => ?_
  refine (htaken.2.takeInputs step.inputs).bind fun others twins hothers => ?_
  refine (hothers.embedFor step).bind fun held twinHeld hheld => ?_
  exact .ok ⟨⟨rfl, rfl, rfl, hheld.1, hheld.2, rfl, htaken.1⟩, hothers⟩

theorem bind (h : first.Twin known mode other size second) (context : RunContext)
    (step : Plan.Step) {factory : Factory} (hfactory : factory.Among known) :
    Agree (Assembly.Twin known mode other size) (first.bind context step factory)
      (second.bind context step factory) := by
  refine (h.embedFor step).bind ?_
  rintro held _ ⟨rfl, hheld⟩
  refine .ok ⟨h.output, h.slots, ?_, ?_, h.size_eq, h.junctions⟩
  · rw [h.embeds]
  · intro entry hentry
    rcases List.mem_append.mp hentry with hold | hnew
    · exact h.among entry hold
    · cases List.mem_singleton.mp hnew
      exact ⟨hfactory, hheld⟩

theorem addSlot (h : first.Twin known mode other size second) (step : Plan.Step) {slot twin : Slot}
    (hslot : slot.Twin known mode other size twin) :
    (first.addSlot step slot).Twin known mode other size (second.addSlot step twin) where
  output := h.output
  slots := List.rel_append h.slots (.cons ⟨rfl, hslot⟩ .nil)
  embeds := h.embeds
  among := h.among
  size_eq := h.size_eq
  junctions := h.junctions

theorem addJunction (h : first.Twin known mode other size second) {junction twin : Junction Stage}
    (houtline : junction.outline = twin.outline)
    (hupstream : junction.upstream.Twin known mode other size twin.upstream) :
    (first.addJunction junction).Twin known mode other (size + 1) (second.addJunction twin) where
  output := h.output
  slots := h.slots.imp fun entry twin hentry => ⟨hentry.1, hentry.2.mono (Nat.le_succ size)⟩
  embeds := h.embeds
  among := h.among
  size_eq := by rw [Assembly.addJunction, List.length_append, h.size_eq, List.length_singleton]
  junctions := h.junctions.append houtline (h.size_eq.symm ▸ hupstream)

theorem addBuilt (h : first.Twin known mode other size second) (step : Plan.Step)
    {built twin : Built} (hbuilt : built.Twin known mode other size twin) :
    ∃ later, (first.addBuilt step built).Twin known mode other later (second.addBuilt step twin) := by
  have hlength : second.junctions.length = first.junctions.length := h.junctions.length_eq.symm
  have hlast : first.junctions.length < size + 1 := h.size_eq ▸ Nat.lt_succ_self size
  cases hbuilt with
  | single hstage =>
      rw [Assembly.addBuilt, Assembly.addBuilt, hlength]
      split
      · refine ⟨size + 1, (h.addJunction ?_ ?_).addSlot step (.tap hlast)⟩
        · rfl
        · exact .tagged step.id 0 hstage
      · exact ⟨size, h.addSlot step (.owned (.tagged step.id 0 hstage))⟩
  | fork branches hstage =>
      rw [Assembly.addBuilt, Assembly.addBuilt, hlength]
      refine ⟨size + 1, (h.addJunction ?_ ?_).addSlot step (.fork hlast)⟩
      · rfl
      · exact hstage

theorem outline_closeJunction {junction twin : Junction Stage}
    (h : junction.outline = twin.outline) :
    (closeJunction junction).outline = (closeJunction twin).outline := by
  cases junction with
  | fork fork =>
      obtain ⟨other, rfl, hid, hbuffers, hhandedOut, hdry⟩ := Junction.eq_fork h
      simp [closeJunction, Junction.outline, Fork.close, hid, hbuffers, hhandedOut, hdry]
  | tap tap =>
      obtain ⟨other, rfl, -⟩ := Junction.eq_tap h
      exact h

theorem upstream_closeJunction (junction : Junction Stage) :
    (closeJunction junction).upstream = junction.upstream := by
  cases junction <;> rfl

/-- Whatever is reported, the stages of the outputs are twins, and refer to no junctions but their
own. -/
theorem takeOutput (h : first.Twin known mode other size second) :
    Agree (fun taken twin => taken.1.Twin known mode other 0 twin.1) first.takeOutput
      second.takeOutput := by
  rw [Assembly.takeOutput, Assembly.takeOutput, ← h.output]
  refine (h.take first.output).bind ?_
  rintro ⟨stage, taken⟩ ⟨twin, twinTaken⟩ ⟨hstage, htaken⟩
  have hclosed := htaken.junctions.map (fun _ _ => outline_closeJunction) upstream_closeJunction
  refine .ok (.closed hclosed.outline hclosed.upstream ?_)
  rw [List.length_map, htaken.size_eq]
  exact hstage

end Twin

end Assembly

/-- Workshops that have the same to build and build twins of twins. -/
structure Workshop.Twin (known : Pipe → Prop) (mode other : Mode)
    (first second : Workshop Run Factory) : Prop where
  registry : first.registry = second.registry
  closes : first.registry.Closes known
  context : first.context = second.context
  report : first.report = Run.report ∧ second.report = Run.report
  build : ∀ size factory args twin, factory.Among known → args.Twin known mode other size twin →
    (first.build factory args).Follows (Agree (Built.Twin known mode other size))
      (second.build factory twin)

namespace Workshop.Twin

variable {first second : Workshop Run Factory} {assembly twin : Assembly Factory}

theorem follows_report (h : first.Twin known mode other second) (event twin : Event) :
    (first.report event).Follows (fun _ _ => True) (second.report twin) := by
  rw [h.report.1, h.report.2]
  exact .report event twin

/-- Reporting changes nothing but the events. -/
theorem run_reportAll (warnings : List Event) (world : World) :
    ((warnings.forM fun warning => ExceptT.lift (Run.report warning) :
      ExceptT PipeError Run Unit).run).run world =
      some (.ok (), { world with events := world.events ++ warnings }) := by
  induction warnings generalizing world with
  | nil =>
      rw [List.append_nil]
      rfl
  | cons warning rest ih =>
      have hrest := ih { world with events := world.events ++ [warning] }
      rw [List.append_assoc] at hrest
      exact hrest

/-- Twins with some number of junctions. -/
def Assembled (known : Pipe → Prop) (mode other : Mode) (assembly twin : Assembly Factory) :
    Prop :=
  ∃ size, assembly.Twin known mode other size twin

theorem buildStep (h : first.Twin known mode other second)
    (hassembly : Assembled known mode other assembly twin) (step : Plan.Step) {factory : Factory}
    (hfactory : factory.Among known) :
    (first.buildStep assembly step factory).run.Follows (Agree (Assembled known mode other))
      (second.buildStep twin step factory).run := by
  obtain ⟨size, hassembly⟩ := hassembly
  have harguments := hassembly.arguments first.context step
  unfold Workshop.buildStep
  rw [← h.context]
  refine (Run.Follows.run_of_agree harguments).run_bind ?_
  rintro ⟨args, rest⟩ ⟨twinArgs, twinRest⟩ ⟨hargs, hrest⟩
  dsimp only
  split
  on_goal 1 => refine (h.follows_report _ _).run_lift.run_bind fun _ _ _ => ?_
  all_goals
    refine (h.build size factory args twinArgs hfactory hargs).run_lift.run_bind ?_
    rintro _ _ (error | hbuilt)
    · exact .pure (.error _)
    · exact .pure (.ok (hrest.addBuilt step hbuilt))

theorem addStep (h : first.Twin known mode other second)
    (hassembly : Assembled known mode other assembly twin) (step : Plan.Step)
    (hstep : ∀ factory, first.registry.get step.type = .ok factory → factory.Among known) :
    (first.addStep assembly step).run.Follows (Agree (Assembled known mode other))
      (second.addStep twin step).run := by
  have hget : Agree (fun factory same => factory = same ∧ factory.Among known)
      (first.registry.get step.type) (first.registry.get step.type) := by
    cases hfactory : first.registry.get step.type with
    | error error => exact .error error
    | ok factory => exact .ok ⟨rfl, hstep factory hfactory⟩
  unfold Workshop.addStep
  rw [← h.registry, ← h.context]
  refine (Run.Follows.run_of_agree hget).run_bind ?_
  rintro factory _ ⟨rfl, hfactory⟩
  split
  · obtain ⟨size, hassembly⟩ := hassembly
    refine Run.Follows.run_of_agree ?_
    exact (hassembly.bind first.context step hfactory).imp fun _ _ hbound => ⟨size, hbound⟩
  · exact h.buildStep hassembly step hfactory

theorem addSteps (h : first.Twin known mode other second) (steps : List Plan.Step)
    (hassembly : Assembled known mode other assembly twin)
    (hsteps : ∀ step ∈ steps, ∀ factory, first.registry.get step.type = .ok factory →
      factory.Among known) :
    (first.addSteps assembly steps).run.Follows (Agree (Assembled known mode other))
      (second.addSteps twin steps).run := by
  induction steps generalizing assembly twin with
  | nil => exact .pure (.ok hassembly)
  | cons step rest ih =>
      refine (h.addStep hassembly step (hsteps step List.mem_cons_self)).run_bind ?_
      intro next twinNext hnext
      exact ih hnext fun later hlater => hsteps later (List.mem_cons_of_mem step hlater)

theorem assemble (h : first.Twin known mode other second) {pipe : Pipe} (hpipe : known pipe) :
    (first.assemble pipe).run.Follows (Agree (Assembled known mode other))
      (second.assemble pipe).run := by
  unfold Workshop.assemble
  cases pipe.plan.last? with
  | none => exact .pure (.error _)
  | some last =>
      refine (h.addSteps pipe.plan.steps ⟨0, .start last.id⟩ (h.closes pipe hpipe)).run_bind ?_
      intro assembly twin hassembly
      refine (h.follows_report _ _).run_lift.run_bind fun _ _ _ => ?_
      exact .pure (.ok hassembly)

theorem follows_reportAll (h : first.Twin known mode other second) (warnings others : List Event) :
    (warnings.forM fun warning => ExceptT.lift (first.report warning) :
      ExceptT PipeError Run Unit).run.Follows (Agree fun _ _ => True)
      (others.forM fun warning => ExceptT.lift (second.report warning) :
        ExceptT PipeError Run Unit).run := by
  rw [h.report.1, h.report.2]
  intro world twin halike result later hrun
  rw [run_reportAll] at hrun
  cases hrun
  exact ⟨_, _, run_reportAll others twin, .ok trivial, halike.lines, halike.questions, halike.reads⟩

/-- Assembling a pipe in one mode follows assembling it in the other. -/
theorem output (h : first.Twin known mode other second) {pipe : Pipe} (hpipe : known pipe) :
    (first.output pipe).run.Follows (Agree (Stage.Twin known mode other 0))
      (second.output pipe).run := by
  refine (h.assemble hpipe).run_bind fun assembly twin hassembly => ?_
  obtain ⟨size, hassembly⟩ := hassembly
  refine (Run.Follows.run_of_agree hassembly.takeOutput).run_bind ?_
  rintro ⟨stage, warnings⟩ ⟨twinStage, others⟩ hstage
  refine (h.follows_reportAll warnings others).run_bind fun _ _ _ => ?_
  exact .pure (.ok hstage)

end Workshop.Twin

namespace Builtin

variable {first second : Arguments Factory}

theorem inputValue_follows (input : UserInput) (context : RunContext) :
    (inputValue input context).Follows (fun value twin => value = twin)
      (inputValue input context) := by
  unfold inputValue
  split
  · exact .pure rfl
  · refine (Run.Follows.ask _).bind ?_
    rintro line _ rfl
    exact .pure rfl

theorem buildInput_follows (h : first.Twin known mode other size second) (kind : FieldType) :
    (buildInput kind first).Follows (Agree (Built.Twin known mode other size))
      (buildInput kind second) := by
  unfold buildInput
  rw [← h.conf, ← h.context]
  split
  · exact .pure (.error _)
  next input _ =>
    refine (inputValue_follows input first.context).bind ?_
    rintro value _ rfl
    refine .pure ((Agree.refl (input.record kind value)).map ?_)
    rintro record _ rfl
    exact .single (.constant record)

theorem buildLoop_agree (h : first.Twin known mode other size second) :
    Agree (Built.Twin known mode other size) (buildLoop mode first) (buildLoop other second) := by
  unfold buildLoop
  rw [← h.embed]
  split
  · exact .error _
  next embed hembed =>
    rw [← h.conf]
    refine (Agree.refl (LoopRule.ofConf first.conf)).bind ?_
    rintro rule _ rfl
    exact .ok (.single (.batches [] false (.loop rule (h.among embed hembed)) h.input))

theorem buildFetch_agree (h : first.Twin known mode other size second) :
    Agree (Built.Twin known mode other size) (buildFetch mode first) (buildFetch other second) := by
  unfold buildFetch
  rw [← h.conf]
  refine (Agree.refl (Fetch.checkConf first.conf)).bind fun _ _ _ => ?_
  exact .ok (.single (.batches [] false (.fetch first.conf) h.input))

theorem build_follows (h : first.Twin known mode other size second) (type : Builtin) :
    (type.build mode first).Follows (Agree (Built.Twin known mode other size))
      (type.build other second) := by
  cases type with
  | output => exact .pure (.ok (.single h.input))
  | split =>
      unfold build
      rw [← h.branches]
      exact .pure (.ok (.fork _ h.input))
  | loop => exact .pure (buildLoop_agree h)
  | count => exact .pure (.ok (.single (.tally 0 false h.input)))
  | fetch => exact .pure (buildFetch_agree h)
  | textInput => exact buildInput_follows h _
  | numberInput => exact buildInput_follows h _
  | urlInput => exact buildInput_follows h _
  | privateInput => exact buildInput_follows h _
  | dateBuilder =>
      unfold build
      rw [← h.conf]
      exact .pure (.ok (.single (.mapped _ h.input)))
  | exchangeRate =>
      unfold build
      rw [← h.conf]
      exact .pure (.ok (.single (.mapped _ h.input)))

end Builtin

section Setting

variable {setting : Setting} (hcloses : setting.registry.Closes known)

include hcloses

/-- The induction is on how deep pipes may still be nested: the modules of a pipe that runs as a
module are built one level deeper. -/
theorem Factory.build_follows (depth : Nat) {factory : Factory} {first second : Arguments Factory}
    (hfactory : factory.Among known) (h : first.Twin known mode other size second) :
    (factory.build setting mode depth first).Follows (Agree (Built.Twin known mode other size))
      (factory.build setting other depth second) := by
  induction depth generalizing factory first second size with
  | zero =>
      cases factory with
      | builtin type =>
          rw [Factory.build, Factory.build]
          exact Builtin.build_follows h type
      | fixture fixture => exact hfactory.elim
      | pipe inner => exact .failure
  | succ depth ih =>
      cases factory with
      | builtin type =>
          rw [Factory.build, Factory.build]
          exact Builtin.build_follows h type
      | fixture fixture => exact hfactory.elim
      | pipe inner =>
          have hworkshop : ∀ context : RunContext, Workshop.Twin known mode other
              ⟨setting.registry, Factory.build setting mode depth, Run.report, mode, context⟩
              ⟨setting.registry, Factory.build setting other depth, Run.report, other, context⟩ :=
            fun context => ⟨rfl, hcloses, rfl, ⟨rfl, rfl⟩, fun _ _ _ _ => ih⟩
          rw [Factory.build, Factory.build, ← h.conf, ← h.context]
          refine ((hworkshop _).output hfactory).bind fun outcome twin houtcome => ?_
          exact .pure (houtcome.map fun _ _ hstage => .single (hstage.mono (Nat.zero_le _)))

theorem Setting.workshop_twin (mode other : Mode) (context : RunContext) :
    (setting.workshop mode context).Twin known mode other (setting.workshop other context) :=
  ⟨rfl, hcloses, rfl, ⟨rfl, rfl⟩,
    fun _ _ _ _ hamong hargs => Factory.build_follows hcloses _ hamong hargs⟩

omit hcloses in
theorem Built.single?_agree (id : ModuleId) {built twin : Built}
    (h : built.Twin known mode other 0 twin) :
    Agree (Stage.Twin known mode other 0) (built.single? id) (twin.single? id) := by
  cases h with
  | single hstage => exact .ok hstage
  | fork branches hstage =>
      refine (attach_agree ?_).bind ?_
      · rfl
      rintro ⟨index, rest⟩ ⟨_, twinRest⟩ ⟨rfl, houtline, hupstream, htwin⟩
      simp only [Fork.start] at hupstream htwin
      subst hupstream htwin
      have hjunctions : Junction.Twins known mode other [.fork rest] [.fork twinRest] :=
        Junction.Twins.nil.append houtline hstage
      exact .ok (.closed hjunctions.outline hjunctions.upstream (.branch index Nat.one_pos))

/-- What a loop embeds is built the same way in both modes. -/
theorem Embed.instantiate_follows (mode other : Mode) {embed : Embed Factory}
    (hembed : embed.Among known) (item : Record) :
    (embed.instantiate setting mode item).Follows (Agree (Stage.Twin known mode other 0))
      (embed.instantiate setting other item) := by
  obtain ⟨hfactory, hnested⟩ := hembed
  let args : Arguments Factory :=
    ⟨embed.id, embed.context, .once (some item), embed.conf, [], embed.nested, none⟩
  have hargs : args.Twin known mode other 0 args :=
    ⟨rfl, rfl, rfl, rfl, hnested, rfl, .once (some item)⟩
  refine (Factory.build_follows hcloses setting.depth hfactory hargs).bind ?_
  rintro _ _ (error | hbuilt)
  · exact .pure (.error _)
  · exact .pure ((Built.single?_agree embed.id hbuilt).map fun _ _ h => .tagged embed.id 0 h)

end Setting

end Pipework
