import Pipework.Proofs.Assembly.Ends
import Pipework.Proofs.Attribution.Account
import Pipework.Proofs.Mode.Building

/-! # Tags start at nothing

Whatever is assembled of modules of built-in types is fresh: each module's own stage is tagged with the
id of the module and nothing counted yet, and whoever asks for a stage gets one that is tagged or that
leads to tagged ones.
-/

namespace Pipework

variable {setting : Setting} {known : Pipe → Prop}

namespace Stage

variable {inner : Stage} {id : ModuleId}

theorem Fresh.below {sealed : Bool} (h : inner.Fresh setting sealed) {log : List Note}
    {here : Address} (hblank : ∀ place, here <:+ place → Note.past log place = []) (turn : Turn) :
    inner.Accounted setting log sealed (turn :: here) :=
  h log (turn :: here) fun place hplace => hblank place ((List.suffix_cons turn here).trans hplace)

theorem Fresh.opened {sealed : Bool} (h : inner.Fresh setting sealed) : inner.Fresh setting false :=
  fun log here hblank => (h log here hblank).opened

theorem fresh_tagged (hmade : inner.MadeFor setting id) (h : inner.Fresh setting false) :
    (Stage.tagged id 0 inner).Fresh setting true := by
  intro log here hblank
  have hpast : Note.past log here = [] := hblank here List.suffix_rfl
  have hlived : inner.Lived setting id (Note.past log here) := hpast ▸ .made hmade
  have htagged : (Stage.tagged id (Note.past log here).length inner).Accounted setting log true here :=
    .tagged true hlived (h.below hblank .inner)
  rw [hpast] at htagged
  exact htagged

theorem fresh_mapped (h : inner.Fresh setting true) (transform : Transform) :
    (Stage.mapped transform inner).Fresh setting false :=
  fun _ _ hblank => .mapped transform (h.below hblank .inner)

theorem fresh_tally (h : inner.Fresh setting true) : (Stage.tally (.start inner)).Fresh setting false :=
  fun _ _ hblank => .tally 0 false (h.below hblank .inner)

theorem fresh_batches (h : inner.Fresh setting true) (task : Task) :
    (Stage.batches task (.start inner)).Fresh setting false :=
  fun _ _ hblank => .batches false (h.below hblank .inner) nofun nofun

theorem fresh_closed {sealed : Bool} {junctions : List (Junction Stage)} {out : Stage}
    (hjunctions : ∀ junction ∈ junctions, junction.upstream.Fresh setting true)
    (hout : out.Fresh setting sealed) : (Stage.closed junctions out).Fresh setting sealed :=
  fun _ _ hblank => .closed
    (fun _ junction hjunction =>
      (hjunctions junction (List.mem_of_getElem? hjunction)).below hblank _)
    (hout.below hblank .inner)

end Stage

/-- Handing out a branch leaves the upstream as it is. -/
theorem Fork.attach_upstream (fork : Fork Stage) :
    Turns (fun _ => True) (fun taken => taken.2.upstream = fork.upstream) fork.attach := by
  unfold attach
  split
  · rfl
  · trivial

namespace Assembly

/-- All stages that have not been taken are fresh. -/
structure Fresh (setting : Setting) (assembly : Assembly Factory) : Prop where
  slots : ∀ entry ∈ assembly.slots, ∀ stage, entry.2 = .owned (some stage) →
    stage.Fresh setting true
  junctions : ∀ junction ∈ assembly.junctions, junction.upstream.Fresh setting true

/-- A fresh stage has been taken of fresh ones. -/
def FreshTaken (setting : Setting) (taken : Stage × Assembly Factory) : Prop :=
  taken.1.Fresh setting true ∧ taken.2.Fresh setting

namespace Fresh

variable {assembly : Assembly Factory}

theorem start (output : ModuleId) : Fresh setting (.start output) :=
  ⟨nofun, nofun⟩

theorem lookup (h : assembly.Fresh setting) {id : ModuleId} {stage : Stage}
    (hslot : assembly.slots.lookup id = some (.owned (some stage))) : stage.Fresh setting true := by
  obtain ⟨before, after, hslots, -⟩ := List.lookup_eq_some_iff.mp hslot
  refine h.slots (id, .owned (some stage)) ?_ stage rfl
  rw [hslots]
  exact List.mem_append_right _ List.mem_cons_self

theorem setSlot_owned (h : assembly.Fresh setting) (id : ModuleId) :
    (assembly.setSlot id (.owned none)).Fresh setting := by
  refine ⟨fun entry hentry stage hstage => ?_, h.junctions⟩
  obtain ⟨held, hheld, rfl⟩ := List.mem_map.mp hentry
  split at hstage
  · cases hstage
  · exact h.slots held hheld stage hstage

theorem takeBranch (h : assembly.Fresh setting) (id : ModuleId) (place : Nat) :
    Turns (fun _ => True) (FreshTaken setting) (assembly.takeBranch id place) := by
  unfold Assembly.takeBranch
  split
  next fork hfork =>
    have hupstream : fork.upstream.Fresh setting true :=
      h.junctions _ (List.mem_of_getElem? hfork)
    refine fork.attach_upstream.bind fun taken htaken => ⟨fun _ _ _ => .branch .., h.slots, ?_⟩
    intro junction hjunction
    rcases List.mem_or_eq_of_mem_set hjunction with hold | rfl
    · exact h.junctions junction hold
    · rw [Junction.upstream, htaken]
      exact hupstream
  · trivial

theorem take (h : assembly.Fresh setting) (id : ModuleId) :
    Turns (fun _ => True) (FreshTaken setting) (assembly.take id) := by
  unfold Assembly.take
  split
  · trivial
  · trivial
  next stage hslot => exact ⟨h.lookup hslot, h.setSlot_owned id⟩
  · exact ⟨fun _ _ _ => .tap .., h⟩
  · exact h.takeBranch id _

theorem takeInput (h : assembly.Fresh setting) (step : Plan.Step) :
    Turns (fun _ => True) (FreshTaken setting) (assembly.takeInput step) := by
  unfold Assembly.takeInput
  split
  · exact ⟨fun _ _ _ => .sentinel .., h⟩
  · exact h.take _
  · trivial

theorem takeInputs (h : assembly.Fresh setting) (inputs : List (String × ModuleId)) :
    Turns (fun _ => True) (fun taken => taken.2.Fresh setting) (assembly.takeInputs inputs) := by
  induction inputs generalizing assembly with
  | nil => exact h
  | cons input rest ih =>
      refine (h.take input.2).bind fun taken htaken => ?_
      exact (ih htaken.2).bind fun stages hstages => hstages

theorem arguments (h : assembly.Fresh setting) (context : RunContext) (step : Plan.Step) :
    Turns (fun _ => True)
      (fun taken => taken.1.id = step.id ∧ taken.1.input.Fresh setting true ∧
        taken.2.Fresh setting)
      (assembly.arguments context step) := by
  refine (h.takeInput step).bind fun taken htaken => ?_
  refine (htaken.2.takeInputs step.inputs).bind fun others hothers => ?_
  have hembed : Turns (fun _ => True) (fun _ => True) (others.2.embedFor step) := by
    cases others.2.embedFor step <;> trivial
  exact hembed.bind fun embed _ => ⟨rfl, htaken.1, hothers⟩

theorem addSlot (h : assembly.Fresh setting) (step : Plan.Step) {slot : Slot}
    (hslot : ∀ stage, slot = .owned (some stage) → stage.Fresh setting true) :
    (assembly.addSlot step slot).Fresh setting := by
  refine ⟨fun entry hentry stage hstage => ?_, h.junctions⟩
  rcases List.mem_append.mp hentry with hold | hnew
  · exact h.slots entry hold stage hstage
  · rw [List.mem_singleton.mp hnew] at hstage
    exact hslot stage hstage

theorem addJunction (h : assembly.Fresh setting) {junction : Junction Stage}
    (hjunction : junction.upstream.Fresh setting true) :
    (assembly.addJunction junction).Fresh setting := by
  refine ⟨h.slots, fun held hheld => ?_⟩
  rcases List.mem_append.mp hheld with hold | hnew
  · exact h.junctions held hold
  · rw [List.mem_singleton.mp hnew]
    exact hjunction

end Fresh

end Assembly

/-- What has been built as the module with an id is its own stage, and fresh; a split has none. -/
def Built.Fresh (setting : Setting) (id : ModuleId) : Built → Prop
  | .single stage => stage.MadeFor setting id ∧ stage.Fresh setting false
  | .fork _ upstream => upstream.Fresh setting true

namespace Assembly.Fresh

variable {assembly : Assembly Factory}

theorem addBuilt (h : assembly.Fresh setting) (step : Plan.Step) {built : Built}
    (hbuilt : built.Fresh setting step.id) : (assembly.addBuilt step built).Fresh setting := by
  cases built with
  | single stage =>
      have htagged := Stage.fresh_tagged hbuilt.1 hbuilt.2
      unfold Assembly.addBuilt
      dsimp only
      split
      · refine (h.addJunction ?_).addSlot step nofun
        exact htagged
      · refine h.addSlot step ?_
        rintro _ ⟨⟩
        exact htagged
  | fork branches upstream =>
      refine (h.addJunction ?_).addSlot step nofun
      exact hbuilt

theorem bind (h : assembly.Fresh setting) (context : RunContext) (step : Plan.Step)
    (factory : Factory) :
    Turns (fun _ => True) (Assembly.Fresh setting) (assembly.bind context step factory) := by
  have hembed : Turns (fun _ => True) (fun _ => True) (assembly.embedFor step) := by
    cases assembly.embedFor step <;> trivial
  exact hembed.bind fun nested _ => ⟨h.slots, h.junctions⟩

theorem takeOutput (h : assembly.Fresh setting) :
    Turns (fun _ => True) (fun taken => taken.1.Fresh setting true) assembly.takeOutput := by
  refine (h.take assembly.output).bind fun taken htaken => ?_
  refine Stage.fresh_closed ?_ htaken.1
  intro junction hjunction
  obtain ⟨held, hheld, rfl⟩ := List.mem_map.mp hjunction
  rw [Assembly.Twin.upstream_closeJunction]
  exact htaken.2.junctions held hheld

end Assembly.Fresh

/-- Every factory that the workshop's registry may give for a pipe builds what is fresh. -/
structure Workshop.BuildsFresh (setting : Setting) (known : Pipe → Prop)
    (workshop : Workshop Run Factory) : Prop where
  closes : workshop.registry.Closes known
  build : ∀ factory args, factory.Among known → args.input.Fresh setting true →
    ∀ world built later, (workshop.build factory args).run world = some (.ok built, later) →
      built.Fresh setting args.id

namespace Workshop.BuildsFresh

variable {workshop : Workshop Run Factory} {assembly : Assembly Factory}

theorem buildStep (h : workshop.BuildsFresh setting known) (hassembly : assembly.Fresh setting)
    (step : Plan.Step) {factory : Factory} (hfactory : factory.Among known) :
    Ends True (fun _ => True) (Assembly.Fresh setting)
      (workshop.buildStep assembly step factory) := by
  refine Workshop.ends_buildStep (hassembly.arguments workshop.context step)
    (fun _ => .trivial _) ?_
  rintro args rest ⟨hid, hinput, hrest⟩ world
  have hbuilt := h.build factory args hfactory hinput world
  generalize (workshop.build factory args).run world = reached at hbuilt ⊢
  rcases reached with _ | ⟨_ | built, later⟩
  · trivial
  · trivial
  · exact hrest.addBuilt step (hid ▸ hbuilt built later rfl)

theorem addStep (h : workshop.BuildsFresh setting known) (hassembly : assembly.Fresh setting)
    (step : Plan.Step)
    (hstep : ∀ factory, workshop.registry.get step.type = .ok factory → factory.Among known) :
    Ends True (fun _ => True) (Assembly.Fresh setting) (workshop.addStep assembly step) := by
  have hget : Turns (fun _ => True) (fun factory => factory.Among known)
      (workshop.registry.get step.type) := by
    cases hfactory : workshop.registry.get step.type with
    | error error => trivial
    | ok factory => exact hstep factory hfactory
  unfold Workshop.addStep
  refine Ends.bind (.of_turns hget) fun factory hfactory => ?_
  split
  · exact .of_turns (hassembly.bind workshop.context step factory)
  · exact h.buildStep hassembly step hfactory

theorem addSteps (h : workshop.BuildsFresh setting known) (steps : List Plan.Step)
    (hassembly : assembly.Fresh setting)
    (hsteps : ∀ step ∈ steps, ∀ factory, workshop.registry.get step.type = .ok factory →
      factory.Among known) :
    Ends True (fun _ => True) (Assembly.Fresh setting) (workshop.addSteps assembly steps) := by
  induction steps generalizing assembly with
  | nil => exact fun _ => hassembly
  | cons step rest ih =>
      refine (h.addStep hassembly step (hsteps step List.mem_cons_self)).bind fun next hnext => ?_
      exact ih hnext fun later hlater => hsteps later (List.mem_cons_of_mem step hlater)

theorem assemble (h : workshop.BuildsFresh setting known) {pipe : Pipe} (hpipe : known pipe) :
    Ends True (fun _ => True) (Assembly.Fresh setting) (workshop.assemble pipe) := by
  unfold Workshop.assemble
  split
  · exact fun _ => trivial
  next last _ =>
    have hsteps := h.addSteps pipe.plan.steps (.start last.id) (h.closes pipe hpipe)
    refine hsteps.bind fun assembly hassembly => ?_
    exact (Ends.trivial _).bind fun _ _ _ => hassembly

/-- The stage of the output is fresh. -/
theorem output (h : workshop.BuildsFresh setting known) {pipe : Pipe} (hpipe : known pipe) :
    Ends True (fun _ => True) (Stage.Fresh setting true) (workshop.output pipe) := by
  unfold Workshop.output
  refine (h.assemble hpipe).bind fun assembly hassembly => ?_
  refine Ends.bind (.of_turns hassembly.takeOutput) fun taken htaken => ?_
  exact (Ends.trivial _).bind fun _ _ _ => htaken

end Workshop.BuildsFresh

namespace Builtin

variable {args : Arguments Factory} {mode : Mode} {built : Built}

theorem fresh_of_buildInput {kind : FieldType} {world later : World}
    (h : (buildInput kind args).run world = some (.ok built, later)) :
    ∃ stage, built = .single stage ∧ stage.Fresh setting false := by
  unfold buildInput at h
  split at h
  · cases h
  next input _ =>
    obtain ⟨value, middle, -, hpure⟩ := run_bind_eq_some_iff.mp h
    cases hrecord : input.record kind value with
    | error error =>
        rw [hrecord] at hpure
        cases hpure
    | ok record =>
        rw [hrecord] at hpure
        cases hpure
        exact ⟨_, rfl, fun _ _ _ => .constant ..⟩

theorem fresh_of_buildLoop (hinput : args.input.Fresh setting true)
    (h : buildLoop mode args = .ok built) :
    ∃ stage, built = .single stage ∧ stage.Fresh setting false := by
  unfold buildLoop at h
  split at h
  · cases h
  · obtain ⟨rule, -, hpure⟩ := bind_eq_ok_iff.mp h
    cases hpure
    exact ⟨_, rfl, Stage.fresh_batches hinput _⟩

theorem fresh_of_buildFetch (hinput : args.input.Fresh setting true)
    (h : buildFetch mode args = .ok built) :
    ∃ stage, built = .single stage ∧ stage.Fresh setting false := by
  obtain ⟨_, -, hpure⟩ := bind_eq_ok_iff.mp h
  cases hpure
  exact ⟨_, rfl, Stage.fresh_batches hinput _⟩

/-- Of a fresh input the built-in types build a fresh stage, or a split of the input. -/
theorem fresh_of_build (hinput : args.input.Fresh setting true) (type : Builtin)
    {world later : World} (h : (type.build mode args).run world = some (.ok built, later)) :
    (∃ branches, built = .fork branches args.input) ∨
      ∃ stage, built = .single stage ∧ stage.Fresh setting false := by
  cases type with
  | split =>
      cases h
      exact .inl ⟨_, rfl⟩
  | output =>
      cases h
      exact .inr ⟨_, rfl, hinput.opened⟩
  | count =>
      cases h
      exact .inr ⟨_, rfl, Stage.fresh_tally hinput⟩
  | dateBuilder =>
      cases h
      exact .inr ⟨_, rfl, Stage.fresh_mapped hinput _⟩
  | exchangeRate =>
      cases h
      exact .inr ⟨_, rfl, Stage.fresh_mapped hinput _⟩
  | loop => exact .inr (fresh_of_buildLoop hinput (congrArg Prod.fst (Option.some.inj h)))
  | fetch => exact .inr (fresh_of_buildFetch hinput (congrArg Prod.fst (Option.some.inj h)))
  | textInput | numberInput | urlInput | privateInput => exact .inr (fresh_of_buildInput h)

end Builtin

section Setting

variable {mode : Mode} {depth : Nat} {args : Arguments Factory} {world later : World} {built : Built}

theorem Factory.build_fresh_builtin (type : Builtin) (hinput : args.input.Fresh setting true)
    (h : ((Factory.builtin type).build setting mode depth args).run world =
      some (.ok built, later)) : built.Fresh setting args.id := by
  have hbuild := h
  rw [Factory.build] at hbuild
  rcases Builtin.fresh_of_build hinput type hbuild with ⟨branches, rfl⟩ | ⟨stage, rfl, hstage⟩
  · exact hinput
  · exact ⟨.intro rfl h rfl, hstage⟩

/-- A single consumer gets what has been built, with the first branch of a split handed out. -/
theorem Built.Fresh.single? {id : ModuleId} {stage : Stage} (h : built.Fresh setting id)
    (hsingle : built.single? id = .ok stage) : stage.Fresh setting false := by
  cases built with
  | single own =>
      cases hsingle
      exact h.2
  | fork branches upstream =>
      obtain ⟨⟨index, rest⟩, hattach, hclosed⟩ := bind_eq_ok_iff.mp hsingle
      cases hclosed
      refine Stage.fresh_closed ?_ fun _ _ _ => .branch ..
      have hrest := (Fork.start id upstream branches).attach_upstream
      rw [hattach] at hrest
      intro junction hjunction
      rw [List.mem_singleton.mp hjunction, Junction.upstream, hrest]
      exact h

variable (hcloses : setting.registry.Closes known)

include hcloses

/-- The induction is on how deep pipes may still be nested: the modules of a pipe that runs as a
module are built one level deeper. -/
theorem Factory.build_fresh (depth : Nat) {factory : Factory} {args : Arguments Factory}
    (hfactory : factory.Among known) (hinput : args.input.Fresh setting true)
    {world later : World} {built : Built}
    (h : (factory.build setting mode depth args).run world = some (.ok built, later)) :
    built.Fresh setting args.id := by
  induction depth generalizing factory args world built later with
  | zero =>
      cases factory with
      | builtin type => exact build_fresh_builtin type hinput h
      | fixture fixture => exact hfactory.elim
      | pipe inner => cases h
  | succ depth ih =>
      cases factory with
      | builtin type => exact build_fresh_builtin type hinput h
      | fixture fixture => exact hfactory.elim
      | pipe inner =>
          have hworkshop : ∀ context : RunContext, Workshop.BuildsFresh setting known
              ⟨setting.registry, Factory.build setting mode depth, Run.report, mode, context⟩ :=
            fun context => ⟨hcloses, fun _ _ hamong hargs _ _ _ hbuild => ih hamong hargs hbuild⟩
          have hbuild := h
          rw [Factory.build] at hbuild
          obtain ⟨outcome, middle, houtput, hpure⟩ := run_bind_eq_some_iff.mp hbuild
          have hstage := ((hworkshop _).output hfactory).outcome houtput
          cases outcome with
          | error error => cases hpure
          | ok stage =>
              cases hpure
              -- The output of the pipe is sealed; its module tags it all the same.
              exact ⟨.intro rfl h rfl, hstage.opened⟩

/-- What a loop embeds is built of a stage for one record. -/
theorem Embed.instantiate_fresh {embed : Embed Factory} (hembed : embed.Among known)
    {item : Record} {stage : Stage}
    (h : (embed.instantiate setting mode item).run world = some (.ok stage, later)) :
    stage.Fresh setting true := by
  obtain ⟨hfactory, -⟩ := hembed
  unfold Embed.instantiate at h
  obtain ⟨outcome, middle, hbuild, hpure⟩ := run_bind_eq_some_iff.mp h
  cases outcome with
  | error error => cases hpure
  | ok built =>
      have hbuilt := Factory.build_fresh hcloses _ hfactory (fun _ _ _ => .once ..) hbuild
      have hstage : (built.single? embed.id).map (Stage.tagged embed.id 0) = .ok stage :=
        congrArg Prod.fst (Option.some.inj hpure)
      cases hsingle : built.single? embed.id with
      | error error =>
          rw [hsingle] at hstage
          cases hstage
      | ok own =>
          rw [hsingle] at hstage
          cases hstage
          exact Stage.fresh_tagged (.intro rfl hbuild hsingle) (hbuilt.single? hsingle)

theorem Setting.workshop_buildsFresh (mode : Mode) (context : RunContext) :
    (setting.workshop mode context).BuildsFresh setting known :=
  ⟨hcloses, fun _ _ hamong hargs _ _ _ hbuild =>
    Factory.build_fresh hcloses _ hamong hargs hbuild⟩

end Setting

end Pipework
