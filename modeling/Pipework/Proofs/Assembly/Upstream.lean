import Pipework.Proofs.Assembly.Ends
import Pipework.Proofs.Assembly.Factories
import Pipework.Proofs.Plan.Bindings

/-! # Upstreams that are there

A plan names the modules that feed a step, and each of them has a step before. Its stage is there to
be taken unless a loop owns the module: embedded modules are bound and never built. So assembling
goes through exactly if no step is fed by an embedded module.
-/

namespace Pipework

namespace Plan

/-- The modules that feed a step, its default input before its named ones. -/
def Step.sources (step : Plan.Step) : List ModuleId :=
  step.bindings.map Binding.source

theorem Step.sources_eq (step : Plan.Step) : step.sources =
    (match step.input with
      | .module source => [source]
      | _ => []) ++ step.inputs.map Prod.snd := by
  rw [sources, bindings, List.map_append, List.map_map, mainBinding?]
  cases step.input <;> rfl

/-- Whether a module is embedded according to its step. -/
def isInner (steps : List Plan.Step) (id : ModuleId) : Bool :=
  steps.any fun step => step.id == id && step.embedded

/-- The first embedded module that feeds one of the steps `rest` of a plan. -/
def strayAmong (steps rest : List Plan.Step) : Option ModuleId :=
  (rest.flatMap Step.sources).find? (isInner steps)

/-- The first embedded module that feeds a step. -/
def stray? (plan : Plan) : Option ModuleId :=
  strayAmong plan.steps plan.steps

theorem strayAmong_cons (steps : List Plan.Step) (step : Plan.Step) (rest : List Plan.Step) :
    strayAmong steps (step :: rest) =
      (step.sources.find? (isInner steps)).or (strayAmong steps rest) := by
  rw [strayAmong, List.flatMap_cons, List.find?_append]
  rfl

/-- Whether a module is embedded is what its only step says. -/
theorem isInner_eq {steps : List Plan.Step} (hnodup : (steps.map Step.id).Nodup)
    {step : Plan.Step} (h : step ∈ steps) : isInner steps step.id = step.embedded := by
  rw [isInner, Bool.eq_iff_iff, List.any_eq_true]
  constructor
  · rintro ⟨other, hother, hsame⟩
    rw [Bool.and_eq_true, beq_iff_eq] at hsame
    rw [← List.inj_on_of_nodup_map hnodup hother h hsame.1]
    exact hsame.2
  · intro hembedded
    exact ⟨step, h, by rw [hembedded, beq_self_eq_true]; rfl⟩

/-- Whatever a step refers to has a step before it. -/
structure Grounded (steps : List Plan.Step) : Prop where
  nodup : (steps.map Step.id).Nodup
  /-- Only an embedded module is fed by a loop's record, and nothing else feeds it. -/
  fed : ∀ step ∈ steps, step.embedded = false → step.input ≠ .record
  inner : ∀ step ∈ steps, step.embedded = true → step.sources = []
  sources : ∀ before step after, steps = before ++ step :: after →
    ∀ id ∈ step.sources, ∃ source ∈ before, source.id = id
  embeds : ∀ before step after, steps = before ++ step :: after → ∀ id, step.embed = some id →
    ∃ inner ∈ before, inner.id = id ∧ inner.embedded = true

end Plan

namespace Diagram

variable {diagram : Diagram}

/-- What feeds a step is executed before it. -/
theorem source_before {order : List ModuleId} (hexecution : diagram.IsExecutionOrder order)
    {last : Option ModuleId} {steps before after : List Plan.Step} {step : Plan.Step}
    (hsteps : diagram.stepsOf last order = .ok steps) (hsplit : steps = before ++ step :: after)
    {id : ModuleId} (hid : id ∈ step.sources) : ∃ source ∈ before, source.id = id := by
  obtain ⟨hids, hmem⟩ := stepsOf_eq_ok hsteps
  obtain ⟨module, -, hdescribes⟩ := hmem step (by simp [hsplit])
  have hprecedes : diagram.Precedes id step.id := by
    obtain ⟨binding, hbinding, rfl⟩ := List.mem_map.mp hid
    rw [hdescribes.bindings_eq] at hbinding
    split at hbinding
    · cases hbinding
    · obtain ⟨wire, hwire, rfl⟩ := List.mem_map.mp hbinding
      obtain ⟨hmemWire, htarget⟩ := target_of_mem_boundWires hwire
      exact .inr ⟨wire, hmemWire, rfl, htarget⟩
  have horder : order = before.map Plan.Step.id ++ step.id :: after.map Plan.Step.id := by
    rw [← hids, hsplit, List.map_append, List.map_cons]
  exact List.mem_map.mp (hexecution.mem_before horder hprecedes)

/-- A plan that has been compiled refers to earlier steps only. -/
theorem grounded_of_compile {pipe : Pipe} (hcoherent : Coherent diagram.modules)
    (h : diagram.compile = .ok pipe) : Plan.Grounded pipe.plan.steps := by
  obtain ⟨hexecution, hsteps, -⟩ := compile_eq_execution hcoherent h
  obtain ⟨hids, hmem⟩ := stepsOf_eq_ok hsteps
  refine ⟨hids ▸ hexecution.nodup, ?fed, ?inner,
    fun before step after hsplit id => source_before hexecution hsteps hsplit,
    fun before step after hsplit id => embed_before hcoherent hexecution hsteps hsplit⟩
  case fed =>
    intro step hstep hembedded
    obtain ⟨module, -, hdescribes⟩ := hmem step hstep
    exact feedOf_ne_record hdescribes.input_eq (hdescribes.embedded_eq ▸ hembedded)
  case inner =>
    intro step hstep hembedded
    obtain ⟨module, -, hdescribes⟩ := hmem step hstep
    rw [Plan.Step.sources, hdescribes.bindings_eq, if_pos hembedded]
    rfl

end Diagram

/-- An error that says that nothing is left of a stage. -/
def PipeError.IsScarce : PipeError → Prop
  | .stageTaken _ => True
  | .noBranchLeft _ _ => True
  | _ => False

theorem PipeError.IsScarce.isShortage {error : PipeError} (h : error.IsScarce) :
    error.IsShortage :=
  match error, h with
  | .stageTaken _, _ => trivial
  | .noBranchLeft _ _, _ => trivial

/-- The error that a module has no stage. -/
def PipeError.unassembled (id : ModuleId) : PipeError :=
  .malformed ("/modules/" ++ id.name) .notAssembled

/-- An error is as a predicate says, or it is that the given module has no stage. -/
def PipeError.OrUnassembled (fails : PipeError → Prop) (lacking : Option ModuleId)
    (error : PipeError) : Prop :=
  fails error ∨ ∃ id, lacking = some id ∧ error = .unassembled id

/-- What a step is built from agrees with the step. -/
structure Arguments.Fits {φ : Type} (args : Arguments φ) (context : RunContext)
    (step : Plan.Step) : Prop where
  id_eq : args.id = step.id
  context_eq : args.context = context
  conf_eq : args.conf = step.conf
  inputs_eq : args.inputs.map Prod.fst = step.inputs.map Prod.fst
  embed_eq : args.embed.map Embed.id = step.embed
  branches_eq : args.branches = step.branches

namespace Assembly

variable {φ : Type} {assembly : Assembly φ} {done rest steps : List Plan.Step} {step : Plan.Step}

/-- Whether a module has no slot. -/
def lacks (assembly : Assembly φ) (id : ModuleId) : Bool :=
  (assembly.slots.lookup id).isNone

/-- Modules are taken unless one of them has no slot, and no slot is added or removed. -/
def Supplied {α : Type} (assembly : Assembly φ) (ids : List ModuleId) (post : α → Prop) :
    Except PipeError (α × Assembly φ) → Prop :=
  Turns (PipeError.OrUnassembled PipeError.IsScarce (ids.find? assembly.lacks))
    fun taken => ids.find? assembly.lacks = none ∧ assembly.Keeps taken.2 ∧ post taken.1

theorem Keeps.lacks_eq {before after : Assembly φ} (h : before.Keeps after) :
    after.lacks = before.lacks := by
  funext id
  rw [lacks, lacks, Bool.eq_iff_iff, Option.isNone_iff_eq_none, Option.isNone_iff_eq_none]
  exact h.lookup_none id

theorem take_supplied (assembly : Assembly φ) (id : ModuleId) :
    assembly.Supplied [id] (fun _ => True) (assembly.take id) := by
  have hfound {slot : Slot} (h : assembly.slots.lookup id = some slot) :
      [id].find? assembly.lacks = none := by
    simp [lacks, h]
  match hslot : assembly.slots.lookup id with
  | none =>
      simp only [Assembly.take, hslot]
      exact .inr ⟨id, by simp [lacks, hslot], rfl⟩
  | some (.owned none) =>
      simp only [Assembly.take, hslot]
      exact .inl trivial
  | some (.owned (some stage)) =>
      simp only [Assembly.take, hslot]
      exact ⟨hfound hslot, keeps_setSlot assembly id _, trivial⟩
  | some (.tap junction) =>
      simp only [Assembly.take, hslot]
      exact ⟨hfound hslot, .refl assembly, trivial⟩
  | some (.fork junction) =>
      simp only [Assembly.take, hslot, takeBranch]
      split
      next fork hfork =>
        rw [Fork.attach]
        split
        · exact ⟨hfound hslot, ⟨rfl, rfl, fun _ => Iff.rfl⟩, trivial⟩
        · exact .inl trivial
      · exact .inl trivial

theorem Supplied.bind {α β : Type} {ids more : List ModuleId} {mid : α → Prop} {post : β → Prop}
    {first : Except PipeError (α × Assembly φ)}
    {next : α × Assembly φ → Except PipeError (β × Assembly φ)} (hfirst : assembly.Supplied ids mid first)
    (hnext : ∀ value left, mid value → assembly.Keeps left → left.Supplied more post (next (value, left))) :
    assembly.Supplied (ids ++ more) post (first >>= next) := by
  cases first with
  | error error =>
      rcases hfirst with hscarce | ⟨id, hid, rfl⟩
      · exact .inl hscarce
      · exact .inr ⟨id, by rw [List.find?_append, hid]; rfl, rfl⟩
  | ok taken =>
      obtain ⟨value, left⟩ := taken
      obtain ⟨hids, hkeeps, hmid⟩ := hfirst
      refine Turns.imp (hnext value left hmid hkeeps) ?_ ?_
      · rintro error (hscarce | ⟨id, hid, rfl⟩)
        · exact .inl hscarce
        · exact .inr ⟨id, by rw [List.find?_append, hids, Option.none_or, ← hkeeps.lacks_eq, hid], rfl⟩
      · rintro last ⟨hmore, hlater, hpost⟩
        refine ⟨?_, hkeeps.trans hlater, hpost⟩
        rw [List.find?_append, hids, Option.none_or, ← hkeeps.lacks_eq, hmore]

theorem takeInputs_supplied (assembly : Assembly φ) (inputs : List (String × ModuleId)) :
    assembly.Supplied (inputs.map Prod.snd)
      (fun stages => stages.map Prod.fst = inputs.map Prod.fst) (assembly.takeInputs inputs) := by
  induction inputs generalizing assembly with
  | nil => exact ⟨rfl, .refl assembly, rfl⟩
  | cons input rest ih =>
      obtain ⟨name, source⟩ := input
      refine (assembly.take_supplied source).bind fun stage left _ _ => ?_
      rw [← List.append_nil (rest.map Prod.snd)]
      refine (ih left).bind fun stages final hnames _ => ?_
      exact ⟨rfl, .refl final, congrArg (List.cons name) hnames⟩

/-- What a step embeds is found if it is bound. -/
theorem embedFor_eq_ok (hbound : ∀ id, step.embed = some id →
      ∃ embed, assembly.embeds.lookup id = some embed ∧ embed.id = id) :
    ∃ embed, assembly.embedFor step = .ok embed ∧ embed.map Embed.id = step.embed := by
  unfold embedFor
  cases hstep : step.embed with
  | none => exact ⟨none, rfl, rfl⟩
  | some id =>
      obtain ⟨embed, hlookup, rfl⟩ := hbound id hstep
      refine ⟨some embed, ?_, rfl⟩
      simp only [Assembly.embed, hlookup]
      rfl

/-- Everything that a step is built from is there if its sources have slots and what it embeds is
bound. -/
theorem arguments_supplied {context : RunContext} (hfed : step.input ≠ .record)
    (hbound : ∀ id, step.embed = some id →
      ∃ embed, assembly.embeds.lookup id = some embed ∧ embed.id = id) :
    assembly.Supplied step.sources (fun args => args.Fits context step)
      (assembly.arguments context step) := by
  have hinput : assembly.Supplied (match step.input with
      | .module source => [source]
      | _ => []) (fun _ => True) (assembly.takeInput step) := by
    unfold takeInput
    cases hstep : step.input with
    | sentinel => exact ⟨rfl, .refl assembly, trivial⟩
    | module source => exact assembly.take_supplied source
    | record => exact absurd hstep hfed
  rw [Plan.Step.sources_eq]
  refine hinput.bind fun input left _ hkeeps => ?_
  rw [← List.append_nil (step.inputs.map Prod.snd)]
  refine (left.takeInputs_supplied step.inputs).bind fun stages final hnames hlater => ?_
  rw [← (hkeeps.trans hlater).embeds_eq] at hbound
  obtain ⟨embed, hfound, hid⟩ := embedFor_eq_ok hbound
  simp only [hfound]
  exact ⟨rfl, .refl final, rfl, rfl, rfl, hnames, hid, rfl⟩

/-- The steps that have been added have slots or are bound. -/
structure Filed (assembly : Assembly φ) (done : List Plan.Step) : Prop where
  lacks_iff : ∀ step ∈ done, assembly.lacks step.id = step.embedded
  bound : ∀ step ∈ done, step.embedded = true →
    ∃ embed, assembly.embeds.lookup step.id = some embed ∧ embed.id = step.id
  fresh : ∀ id, (∀ step ∈ done, step.id ≠ id) →
    assembly.slots.lookup id = none ∧ assembly.embeds.lookup id = none

theorem Filed.start (output : ModuleId) : (start output : Assembly φ).Filed [] where
  lacks_iff := nofun
  bound := nofun
  fresh := fun _ _ => ⟨rfl, rfl⟩

theorem Filed.of_keeps {next : Assembly φ} (h : assembly.Filed done) (hkeeps : assembly.Keeps next) :
    next.Filed done where
  lacks_iff := by
    rw [hkeeps.lacks_eq]
    exact h.lacks_iff
  bound := by
    rw [hkeeps.embeds_eq]
    exact h.bound
  fresh := by
    intro id hid
    rw [hkeeps.lookup_none, hkeeps.embeds_eq]
    exact h.fresh id hid

/-- A step whose module is built gets a slot. -/
theorem Filed.addBuilt (h : assembly.Filed done) (hnew : ∀ other ∈ done, other.id ≠ step.id)
    (hembedded : step.embedded = false) (built : Built) :
    (assembly.addBuilt step built).Filed (done ++ [step]) := by
  -- Shared or not, the module gets one more slot, and nothing is bound.
  have hshape : ∃ slot, (assembly.addBuilt step built).slots = assembly.slots ++ [(step.id, slot)] ∧
      (assembly.addBuilt step built).embeds = assembly.embeds := by
    cases built with
    | single stage =>
        rw [Assembly.addBuilt]
        split
        · exact ⟨_, rfl, rfl⟩
        · exact ⟨_, rfl, rfl⟩
    | fork branches upstream => exact ⟨_, rfl, rfl⟩
  obtain ⟨slot, hslots, hembeds⟩ := hshape
  refine ⟨fun other hother => ?_, fun other hother hisEmbedded => ?_, fun id hid => ?_⟩
  · rw [lacks, hslots, List.lookup_append]
    rcases List.mem_append.mp hother with hother | hother
    · rw [← h.lacks_iff other hother, lacks]
      have hne : (other.id == step.id) = false := beq_eq_false_iff_ne.mpr (hnew other hother)
      simp [List.lookup_cons, hne]
    · rw [List.mem_singleton.mp hother, hembedded]
      simp
  · rw [hembeds]
    rcases List.mem_append.mp hother with hother | hother
    · exact h.bound other hother hisEmbedded
    · rw [List.mem_singleton.mp hother, hembedded] at hisEmbedded
      cases hisEmbedded
  · obtain ⟨hslot, hembed⟩ := h.fresh id fun other hother => hid other (by simp [hother])
    have hne : (id == step.id) = false := beq_eq_false_iff_ne.mpr (hid step (by simp)).symm
    rw [hslots, hembeds, List.lookup_append, hslot]
    exact ⟨by simp [List.lookup_cons, hne], hembed⟩

/-- A step whose module a loop owns is bound. -/
theorem Filed.bind (h : assembly.Filed done) (hnew : ∀ other ∈ done, other.id ≠ step.id)
    (hembedded : step.embedded = true) {context : RunContext} {factory : φ}
    (hbound : ∀ id, step.embed = some id →
      ∃ embed, assembly.embeds.lookup id = some embed ∧ embed.id = id) :
    ∃ next, assembly.bind context step factory = .ok next ∧ next.Filed (done ++ [step]) := by
  obtain ⟨nested, hnested, -⟩ := embedFor_eq_ok hbound
  let embed : Embed φ := { id := step.id, factory, context, conf := step.conf, nested }
  have hbind : assembly.bind context step factory =
      .ok { assembly with embeds := assembly.embeds ++ [(step.id, embed)] } := by
    rw [Assembly.bind, hnested]
    rfl
  obtain ⟨hslot, hembed⟩ := h.fresh step.id hnew
  refine ⟨_, hbind, fun other hother => ?_, fun other hother hisEmbedded => ?_, fun id hid => ?_⟩
  · rcases List.mem_append.mp hother with hother | hother
    · exact h.lacks_iff other hother
    · rw [List.mem_singleton.mp hother, hembedded, lacks, hslot]
      rfl
  · rcases List.mem_append.mp hother with hother | hother
    · obtain ⟨found, hfound, hid⟩ := h.bound other hother hisEmbedded
      exact ⟨found, by rw [List.lookup_append, hfound]; rfl, hid⟩
    · rw [List.mem_singleton.mp hother, List.lookup_append, hembed]
      exact ⟨embed, by simp, rfl⟩
  · obtain ⟨hfree, hunbound⟩ := h.fresh id fun other hother => hid other (by simp [hother])
    have hne : (id == step.id) = false := beq_eq_false_iff_ne.mpr (hid step (by simp)).symm
    refine ⟨hfree, ?_⟩
    rw [List.lookup_append, hunbound]
    simp [List.lookup_cons, hne]

end Assembly

/-- Building the modules of steps, from what fits them, comes to nothing or to an error only as the
parameters allow. -/
structure Workshop.Supports {φ : Type} (workshop : Workshop Run φ) (lost : Prop)
    (fails : PipeError → Prop) (steps : List Plan.Step) : Prop where
  known : ∀ step ∈ steps, ∀ error, workshop.registry.get step.type = .error error → fails error
  builds : ∀ step ∈ steps, step.embedded = false →
    ∀ factory, workshop.registry.get step.type = .ok factory →
      ∀ args, args.Fits workshop.context step → ∀ world,
        match (workshop.build factory args).run world with
        | none => lost
        | some (.error error, _) => fails (error.whileBuilding step.id)
        | some (.ok _, _) => True
  scarce : ∀ error, error.IsScarce → fails error
  reports : ∀ event world, (workshop.report event).run world = none → lost

theorem Workshop.Supports.report {φ : Type} {workshop : Workshop Run φ} {lost : Prop}
    {fails wider : PipeError → Prop} {steps : List Plan.Step} (h : workshop.Supports lost fails steps)
    (event : Event) : Ends lost wider (fun _ => True) (ExceptT.lift (workshop.report event)) := by
  refine .lift fun world => ?_
  have hreports := h.reports event world
  generalize (workshop.report event).run world = reached at hreports ⊢
  cases reached with
  | none => exact hreports rfl
  | some => trivial

namespace Workshop

variable {φ : Type} {workshop : Workshop Run φ} {assembly : Assembly φ} {lost : Prop}
  {fails : PipeError → Prop} {done rest steps : List Plan.Step} {step : Plan.Step}

/-- Building a step that no loop owns fails for want of a source or as building may. -/
theorem buildStep_ends (hsupports : workshop.Supports lost fails steps) (hstep : step ∈ steps)
    {factory : φ} (hfactory : workshop.registry.get step.type = .ok factory)
    (hembedded : step.embedded = false)
    (hfiled : assembly.Filed done) (hnew : ∀ other ∈ done, other.id ≠ step.id)
    (hfed : step.input ≠ .record)
    (hbound : ∀ id, step.embed = some id →
      ∃ embed, assembly.embeds.lookup id = some embed ∧ embed.id = id) :
    Ends lost (PipeError.OrUnassembled fails (step.sources.find? assembly.lacks))
      (fun next => step.sources.find? assembly.lacks = none ∧ next.Filed (done ++ [step]))
      (workshop.buildStep assembly step factory) := by
  have harguments : assembly.Supplied step.sources (fun args => args.Fits workshop.context step)
      (assembly.arguments workshop.context step) := Assembly.arguments_supplied hfed hbound
  refine ends_buildStep (harguments.imp ?_ fun _ => id) (fun event => hsupports.report event) ?_
  · rintro error (hscarce | hlacking)
    · exact .inl (hsupports.scarce error hscarce)
    · exact .inr hlacking
  rintro args rest ⟨hnone, hkeeps, hfits⟩ world
  have hbuilds := hsupports.builds step hstep hembedded factory hfactory args hfits world
  generalize (workshop.build factory args).run world = reached at hbuilds ⊢
  rcases reached with _ | ⟨error | built, _⟩
  · exact hbuilds
  · exact .inl hbuilds
  · exact ⟨hnone, (hfiled.of_keeps hkeeps).addBuilt hnew hembedded built⟩

/-- The modules that feed a step lack a slot if a loop owns them. -/
theorem find?_lacks_eq (hgrounded : Plan.Grounded steps) (hsplit : steps = done ++ step :: rest)
    (hfiled : assembly.Filed done) :
    step.sources.find? assembly.lacks = step.sources.find? (Plan.isInner steps) := by
  refine List.find?_congr fun id hid => ?_
  obtain ⟨source, hsource, rfl⟩ := hgrounded.sources done step rest hsplit id hid
  rw [hfiled.lacks_iff source hsource, Plan.isInner_eq hgrounded.nodup (by simp [hsplit, hsource])]

/-- Adding a step fails if an embedded module feeds it. -/
theorem addStep_ends (hsupports : workshop.Supports lost fails steps)
    (hgrounded : Plan.Grounded steps) (hsplit : steps = done ++ step :: rest)
    (hfiled : assembly.Filed done) :
    Ends lost (PipeError.OrUnassembled fails (step.sources.find? (Plan.isInner steps)))
      (fun next => step.sources.find? (Plan.isInner steps) = none ∧ next.Filed (done ++ [step]))
      (workshop.addStep assembly step) := by
  have hstep : step ∈ steps := by simp [hsplit]
  have hnew : ∀ other ∈ done, other.id ≠ step.id := by
    have hnodup := hgrounded.nodup
    rw [hsplit, List.map_append, List.map_cons] at hnodup
    exact fun other hother => (List.nodup_append.mp hnodup).2.2 _ (List.mem_map_of_mem hother) _
      List.mem_cons_self
  have hbound : ∀ id, step.embed = some id →
      ∃ embed, assembly.embeds.lookup id = some embed ∧ embed.id = id := by
    intro id hid
    obtain ⟨inner, hinner, rfl, hembedded⟩ := hgrounded.embeds done step rest hsplit id hid
    exact hfiled.bound inner hinner hembedded
  have hfactory : Turns (PipeError.OrUnassembled fails (step.sources.find? (Plan.isInner steps)))
      (fun factory => workshop.registry.get step.type = .ok factory)
      (workshop.registry.get step.type) := by
    cases hget : workshop.registry.get step.type with
    | error error => exact .inl (hsupports.known step hstep error hget)
    | ok factory => rfl
  unfold addStep
  refine Ends.bind (.of_turns hfactory) fun factory hget => ?_
  split
  next hembedded =>
    -- A step that a loop owns takes nothing, so that it cannot lack a source.
    obtain ⟨next, hbind, hnext⟩ : ∃ next, assembly.bind workshop.context step factory = .ok next ∧
        next.Filed (done ++ [step]) := hfiled.bind hnew hembedded hbound
    rw [hbind]
    exact fun _ => ⟨by rw [hgrounded.inner step hstep hembedded]; rfl, hnext⟩
  next hembedded =>
    have hembedded := Bool.eq_false_of_not_eq_true hembedded
    rw [← find?_lacks_eq hgrounded hsplit hfiled]
    exact buildStep_ends hsupports hstep hget hembedded hfiled hnew
      (hgrounded.fed step hstep hembedded) hbound

theorem addSteps_ends (hsupports : workshop.Supports lost fails steps)
    (hgrounded : Plan.Grounded steps) (hsplit : steps = done ++ rest)
    (hfiled : assembly.Filed done) :
    Ends lost (PipeError.OrUnassembled fails (Plan.strayAmong steps rest))
      (fun _ => Plan.strayAmong steps rest = none) (workshop.addSteps assembly rest) := by
  induction rest generalizing assembly done with
  | nil => exact fun _ => rfl
  | cons step rest ih =>
      rw [Plan.strayAmong_cons]
      have hstep := addStep_ends hsupports hgrounded hsplit hfiled
      refine (hstep.imp ?_ fun _ => id).bind ?_
      · rintro error (hfails | ⟨id, hid, rfl⟩)
        · exact .inl hfails
        · exact .inr ⟨id, by rw [hid]; rfl, rfl⟩
      · rintro next ⟨hnone, hnext⟩
        rw [hnone, Option.none_or]
        exact ih (hsplit.trans (List.append_cons done step rest)) hnext

/-- Assembling fails if an embedded module feeds a step, and otherwise as building may. -/
theorem assemble_ends {pipe : Pipe} (hsupports : workshop.Supports lost fails pipe.plan.steps)
    (hgrounded : Plan.Grounded pipe.plan.steps)
    (hempty : pipe.plan.steps = [] → fails .emptyPipe) :
    Ends lost (PipeError.OrUnassembled fails pipe.plan.stray?)
      (fun _ => pipe.plan.stray? = none) (workshop.assemble pipe) := by
  unfold assemble
  split
  next hlast => exact fun _ => .inl (hempty (List.getLast?_eq_none_iff.mp hlast))
  next last hlast =>
    have hsteps := addSteps_ends hsupports hgrounded (List.nil_append _).symm (.start last.id)
    refine hsteps.bind fun final hnone => ?_
    exact (hsupports.report _).bind fun _ _ _ => hnone

/-- The types of steps are known, and whatever is built from what fits them is built. -/
structure Completes (workshop : Workshop Run φ) (steps : List Plan.Step) : Prop where
  builds : ∀ step ∈ steps, ∃ factory, workshop.registry.get step.type = .ok factory ∧
    (step.embedded = false → ∀ args, args.Fits workshop.context step → ∀ world, ∃ built later,
      (workshop.build factory args).run world = some (.ok built, later))
  reports : ∀ event world, ∃ later, (workshop.report event).run world = some ((), later)

/-- Only assembling itself calls a description malformed. -/
theorem supports_malformed (workshop : Workshop Run φ) (steps : List Plan.Step) :
    workshop.Supports True (fun error => ∀ path defect, error ≠ .malformed path defect) steps where
  known := by
    intro step _ error hget
    unfold Registry.get at hget
    split at hget
    · cases hget
    · cases hget
      exact nofun
  builds := by
    intro step _ _ factory _ args _ world
    split
    · trivial
    next error later _ => cases error <;> exact nofun
    · trivial
  scarce := by
    rintro error hscarce path defect rfl
    exact hscarce
  reports := fun _ _ _ => trivial

theorem Completes.supports (h : workshop.Completes steps) {fails : PipeError → Prop}
    (hscarce : ∀ error, error.IsScarce → fails error) : workshop.Supports False fails steps where
  known := by
    intro step hstep error hget
    obtain ⟨factory, hfactory, -⟩ := h.builds step hstep
    cases hget.symm.trans hfactory
  builds := by
    intro step hstep hembedded factory hget args hfits world
    obtain ⟨found, hfound, hbuild⟩ := h.builds step hstep
    cases hget.symm.trans hfound
    obtain ⟨built, later, hrun⟩ := hbuild hembedded args hfits world
    rw [hrun]
    trivial
  scarce := hscarce
  reports := by
    intro event world hnone
    obtain ⟨later, hrun⟩ := h.reports event world
    rw [hrun] at hnone
    cases hnone

/-- Where everything is built, assembling fails exactly if an embedded module feeds a step. -/
theorem assemble_outcome {pipe : Pipe} (hgrounded : Plan.Grounded pipe.plan.steps)
    (hplan : ∀ last, pipe.plan.last? = some last → Plan.Provident pipe.plan.steps last.id)
    (hregular : workshop.Regular) (hcompletes : workshop.Completes pipe.plan.steps)
    (world : World) : ∃ outcome later,
      (workshop.assemble pipe).run.run world = some (outcome, later) ∧
      match pipe.plan.stray? with
      | some id => outcome = .error (.unassembled id)
      | none => pipe.plan.steps ≠ [] → ∃ assembly, outcome = .ok assembly := by
  have hsupports : workshop.Supports False
      (fun error => error.IsScarce ∨ pipe.plan.steps = []) pipe.plan.steps :=
    hcompletes.supports fun _ => .inl
  obtain ⟨outcome, later, hrun, hturns⟩ :=
    (assemble_ends hsupports hgrounded .inr).exists_outcome world
  have hsettled := assemble_suffices hregular hplan world _ later hrun
  refine ⟨outcome, later, hrun, ?_⟩
  cases outcome with
  | ok assembly =>
      rw [show pipe.plan.stray? = none from hturns]
      exact fun _ => ⟨assembly, rfl⟩
  | error error =>
      rcases hturns with (hscarce | hnil) | ⟨id, hid, rfl⟩
      -- Stages and branches have been counted when the pipe was compiled.
      · exact absurd hscarce.isShortage hsettled
      · rw [Plan.stray?, hnil]
        exact fun hne => absurd rfl hne
      · rw [hid]

end Workshop

/-- A step that is built of the standard types whatever its inputs are. -/
def Plan.Step.IsSimple (step : Plan.Step) : Bool :=
  step.type == Builtin.output.name ||
    step.type == TypeName.loop && step.embed.isSome && (LoopRule.ofConf step.conf).isOk

theorem Registry.get_standard_name {type : Builtin} :
    standard.get type.name = .ok (.builtin type) := by
  cases type <;> rfl

/-- A loop that embeds something and whose rule can be read is built. -/
theorem buildLoop_eq_ok (mode : Mode) {args : Arguments Factory} {context : RunContext}
    {step : Plan.Step} (hfits : args.Fits context step) (hembed : step.embed.isSome = true)
    (hrule : (LoopRule.ofConf step.conf).isOk = true) :
    ∃ built, Builtin.buildLoop mode args = .ok built := by
  obtain ⟨id, hid⟩ := Option.isSome_iff_exists.mp hembed
  obtain ⟨embed, hargs, -⟩ := Option.map_eq_some_iff.mp (hfits.embed_eq.trans hid)
  cases hconf : LoopRule.ofConf step.conf with
  | error error =>
      rw [hconf] at hrule
      cases hrule
  | ok rule =>
      rw [Builtin.buildLoop, hargs, hfits.conf_eq]
      simp only [hconf]
      exact ⟨_, rfl⟩

/-- Outputs and readable loops are built. -/
theorem Setting.completes {setting : Setting} (hsetting : setting.registry = .standard)
    {steps : List Plan.Step} (hsimple : steps.all Plan.Step.IsSimple = true) (mode : Mode)
    (context : RunContext) : (setting.workshop mode context).Completes steps where
  builds := by
    intro step hstep
    have hshape := List.all_eq_true.mp hsimple step hstep
    rw [Plan.Step.IsSimple, Bool.or_eq_true, Bool.and_eq_true, Bool.and_eq_true, beq_iff_eq,
      beq_iff_eq] at hshape
    rcases hshape with htype | ⟨⟨htype, hembed⟩, hrule⟩
    · refine ⟨.builtin .output, ?_, fun _ args _ world => ⟨.single args.input, world, rfl⟩⟩
      rw [htype]
      exact (congrArg (Registry.get · _) hsetting).trans Registry.get_standard_name
    · refine ⟨.builtin .loop, ?_, fun _ args hfits world => ?_⟩
      · rw [htype]
        exact (congrArg (Registry.get · _) hsetting).trans Registry.get_standard_name
      · obtain ⟨built, hbuilt⟩ := buildLoop_eq_ok mode hfits hembed hrule
        exact ⟨built, world, congrArg (fun outcome => some (outcome, world)) hbuilt⟩
  reports := fun event world => ⟨_, rfl⟩

namespace Pipe

/-- Whenever a description is compiled, all modules that feed a step have earlier steps, and a
malformed description is found while assembling only where an embedded module feeds a step: then
the first such module has no stage to be taken. If all types are known and everything is built,
assembling always has an outcome. It is this error if an embedded module feeds a step, and otherwise
an assembly, unless there are no steps. -/
theorem assembles_unless_stray {description : Value} {name : String} {pipe : Pipe}
    (hcompile : compile description name = .ok pipe) :
    (∀ before step after, pipe.plan.steps = before ++ step :: after →
      ∀ id ∈ step.sources, ∃ source ∈ before, source.id = id) ∧
    ∀ {φ : Type} (workshop : Workshop Run φ),
      (∀ world path defect later, (workshop.assemble pipe).run.run world =
          some (.error (.malformed path defect), later) →
        ∃ id, pipe.plan.stray? = some id ∧ path = "/modules/" ++ id.name ∧
          defect = .notAssembled) ∧
      (workshop.Regular → workshop.Completes pipe.plan.steps → ∀ world, ∃ outcome later,
        (workshop.assemble pipe).run.run world = some (outcome, later) ∧
        match pipe.plan.stray? with
        | some id => outcome = .error (.malformed ("/modules/" ++ id.name) .notAssembled)
        | none => pipe.plan.steps ≠ [] → ∃ assembly, outcome = .ok assembly) := by
  obtain ⟨diagram, hparse, hcompile⟩ := bind_eq_ok_iff.mp hcompile
  have hcoherent := Diagram.coherent_of_parse hparse
  have hgrounded := Diagram.grounded_of_compile hcoherent hcompile
  refine ⟨hgrounded.sources, fun workshop => ⟨?malformed, ?complete⟩⟩
  case malformed =>
    intro world path defect later hrun
    have hends := Workshop.assemble_ends (workshop.supports_malformed pipe.plan.steps) hgrounded
      fun _ => nofun
    rcases hends.outcome hrun with hother | ⟨id, hid, herror⟩
    · exact absurd rfl (hother path defect)
    · cases herror
      exact ⟨id, hid, rfl, rfl⟩
  case complete =>
    exact fun hregular hcompletes => Workshop.assemble_outcome hgrounded
      (fun last hlast => Diagram.provident_of_compile hcoherent hcompile hlast) hregular hcompletes

theorem assembles_unless_stray_of_twiceFed : ∃ pipe,
    compile Diagram.twiceFed "pipe" = .ok pipe ∧ pipe.plan.stray? = none ∧
    ∀ setting : Setting, setting.registry = .standard → ∀ world, ∃ assembly later,
      ((setting.workshop .sync .testing).assemble pipe).run.run world =
        some (.ok assembly, later) := by
  have hok : (compile Diagram.twiceFed "pipe").map (fun pipe => (pipe.plan.stray?,
      pipe.plan.steps.all Plan.Step.IsSimple, pipe.plan.steps.isEmpty)) =
        .ok (none, true, false) := by cbv
  obtain ⟨pipe, hpipe, hshape⟩ := map_eq_ok_iff.mp hok
  obtain ⟨hstray, hshape⟩ := Prod.mk.inj hshape
  obtain ⟨hsimple, hsteps⟩ := Prod.mk.inj hshape
  refine ⟨pipe, hpipe, hstray, fun setting hsetting world => ?_⟩
  obtain ⟨-, hends⟩ := assembles_unless_stray hpipe
  obtain ⟨outcome, later, hrun, houtcome⟩ := (hends (setting.workshop .sync .testing)).2
    (setting.regular_standard hsetting .sync .testing)
    (setting.completes hsetting hsimple .sync .testing) world
  rw [hstray] at houtcome
  obtain ⟨assembly, rfl⟩ := houtcome (List.isEmpty_eq_false_iff.mp hsteps)
  exact ⟨assembly, later, hrun⟩

/-- A loop, and a wire from what it embeds to another module. -/
def poached : Value :=
  .object ⟨[
    ("modules", .list [Diagram.loopModule "each" (Diagram.plainModule "body" "output"),
      Diagram.plainModule "sink" "output"]),
    ("wires", .list [Diagram.plainWire "first" "body" "sink"])]⟩

/-- An embedded module that feeds a step passes unnoticed while compiling and is missed while
assembling. -/
theorem poached_unassembled : ∃ pipe, compile poached "pipe" = .ok pipe ∧
    (∃ step ∈ pipe.plan.steps, ∃ source ∈ pipe.plan.steps,
      step.input = .module source.id ∧ source.embedded = true) ∧
    ∀ setting : Setting, setting.registry = .standard → ∀ world, ∃ later,
      ((setting.workshop .sync .testing).assemble pipe).run.run world =
        some (.error (.malformed "/modules/body" .notAssembled), later) := by
  have hok : (compile poached "pipe").map (fun pipe => (pipe.plan.stray?,
      pipe.plan.steps.all Plan.Step.IsSimple, pipe.plan.steps.any fun step =>
        pipe.plan.steps.any fun source => step.input == .module source.id && source.embedded)) =
          .ok (some ⟨"body"⟩, true, true) := by cbv
  obtain ⟨pipe, hpipe, hshape⟩ := map_eq_ok_iff.mp hok
  obtain ⟨hstray, hshape⟩ := Prod.mk.inj hshape
  obtain ⟨hsimple, hfed⟩ := Prod.mk.inj hshape
  refine ⟨pipe, hpipe, by simpa using hfed, fun setting hsetting world => ?_⟩
  obtain ⟨diagram, hparse, hcompile⟩ := bind_eq_ok_iff.mp hpipe
  have hcoherent := Diagram.coherent_of_parse hparse
  obtain ⟨outcome, later, hrun, houtcome⟩ := Workshop.assemble_outcome
    (Diagram.grounded_of_compile hcoherent hcompile)
    (fun last hlast => Diagram.provident_of_compile hcoherent hcompile hlast)
    (setting.regular_standard hsetting .sync .testing)
    (setting.completes hsetting hsimple .sync .testing) world
  rw [hstray] at houtcome
  subst houtcome
  exact ⟨later, hrun⟩

end Pipe

end Pipework
