import Pipework.Proofs.Assembly.Supply

/-! # Assembling never runs short

Steps of a provident plan are added one after the other. At each point every slot can still be taken
as often as the steps to come and the output need it, and every embedded module so far is bound.
-/

namespace Pipework

namespace Assembly

variable {φ : Type} {assembly : Assembly φ} {output : ModuleId} {done rest : List Plan.Step}

/-- What an assembly keeps to while steps are added. -/
structure Stocked (assembly : Assembly φ) (output : ModuleId) (done rest : List Plan.Step) :
    Prop where
  output_eq : assembly.output = output
  serves : assembly.Serves fun id => Plan.demand rest id + Plan.outputDemand output id
  bound : ∀ step ∈ done, step.embedded = true → (assembly.embeds.lookup step.id).isSome = true

theorem Stocked.start (output : ModuleId) (steps : List Plan.Step) :
    Stocked (.start output : Assembly φ) output [] steps where
  output_eq := rfl
  serves := ⟨nofun, nofun⟩
  bound := nofun

theorem demand_cons (step : Plan.Step) (rest : List Plan.Step) (id : ModuleId) :
    Plan.demand (step :: rest) id = step.demand id + Plan.demand rest id := by
  simp [Plan.demand]

theorem demand_le_append (done rest : List Plan.Step) (id : ModuleId) :
    Plan.demand rest id ≤ Plan.demand (done ++ rest) id := by
  simp [Plan.demand]

theorem lookup_addSlot (assembly : Assembly φ) (step : Plan.Step) (slot : Slot) (id : ModuleId) :
    (assembly.addSlot step slot).slots.lookup id =
      (assembly.slots.lookup id).or (if id = step.id then some slot else none) := by
  rw [addSlot, List.lookup_append]
  by_cases heq : id = step.id
  · simp [heq]
  · simp [heq, List.lookup_cons, beq_eq_false_iff_ne.mpr heq]

/-- A new slot serves what it supplies itself. -/
theorem Serves.addSlot {need : ModuleId → Nat} {step : Plan.Step} {slot : Slot}
    (h : assembly.Serves need) (hslot : assembly.Supplies (need step.id) slot)
    (hnew : ∀ id junction, slot = .fork junction →
      assembly.slots.lookup id ≠ some (.fork junction)) :
    (assembly.addSlot step slot).Serves need := by
  have hlookup : ∀ id held, (assembly.addSlot step slot).slots.lookup id = some held →
      assembly.slots.lookup id = some held ∨ id = step.id ∧ held = slot := by
    intro id held hheld
    rw [lookup_addSlot, Option.or_eq_some_iff] at hheld
    rcases hheld with hold | ⟨-, hheld⟩
    · exact .inl hold
    · split at hheld
      next heq => exact .inr ⟨heq, (Option.some.inj hheld).symm⟩
      · cases hheld
  refine ⟨fun id held hheld => ?_, fun first second junction hfirst hsecond => ?_⟩
  · rcases hlookup id held hheld with hold | ⟨rfl, rfl⟩
    · exact h.supplied id held hold
    · exact hslot
  · rcases hlookup first _ hfirst with hfirst | ⟨rfl, hforkFirst⟩
    · rcases hlookup second _ hsecond with hsecond | ⟨-, hfork⟩
      · exact h.apart first second junction hfirst hsecond
      · exact absurd hfirst (hnew first junction hfork.symm)
    · rcases hlookup second _ hsecond with hsecond | ⟨rfl, -⟩
      · exact absurd hsecond (hnew second junction hforkFirst.symm)
      · rfl

theorem Serves.addJunction {need : ModuleId → Nat} {junction : Junction Stage}
    (h : assembly.Serves need) : (assembly.addJunction junction).Serves need := by
  refine ⟨fun id slot hslot => ?_, h.apart⟩
  match slot, h.supplied id slot hslot with
  | .owned none, hsupplied => exact hsupplied
  | .owned (some _), hsupplied => exact hsupplied
  | .tap _, _ => trivial
  | .fork place, ⟨fork, hfork, hbranches⟩ =>
      exact ⟨fork, List.getElem?_append_left (List.getElem?_eq_some_iff.mp hfork).1 ▸ hfork,
        hbranches⟩

/-- A place behind all junctions is that of no slot. -/
theorem Serves.fork_ne {need : ModuleId → Nat} (h : assembly.Serves need) (id : ModuleId) :
    assembly.slots.lookup id ≠ some (.fork assembly.junctions.length) := by
  intro hslot
  obtain ⟨fork, hfork, -⟩ := h.supplied id _ hslot
  exact absurd (List.getElem?_eq_some_iff.mp hfork).1 (Nat.lt_irrefl _)

/-- What has been built can be taken as often as it was counted. -/
theorem Serves.addBuilt {need : ModuleId → Nat} {step : Plan.Step} {built : Built}
    (h : assembly.Serves need) (hconsumers : need step.id ≤ step.consumers)
    (hbranches : ∀ branches upstream, built = .fork branches upstream →
      need step.id ≤ branches) : (assembly.addBuilt step built).Serves need := by
  match built with
  | .single stage =>
      rw [Assembly.addBuilt]
      split
      · exact h.addJunction.addSlot trivial nofun
      next hsingle => exact h.addSlot (hconsumers.trans (Nat.le_of_not_lt hsingle)) nofun
  | .fork branches upstream =>
      have hsupplies : (assembly.addJunction (.fork (.start step.id upstream branches))).Supplies
          (need step.id) (.fork assembly.junctions.length) := by
        refine ⟨.start step.id upstream branches, List.getElem?_concat_length, ?_⟩
        simpa [Fork.start, Fork.branches] using hbranches branches upstream rfl
      refine h.addJunction.addSlot hsupplies fun id junction hjunction => ?_
      cases hjunction
      exact h.fork_ne id

end Assembly

/-- A split is built as a split, and a module of any other type as a single stage. -/
structure Workshop.Regular {φ : Type} (workshop : Workshop Run φ) : Prop where
  split : ∀ factory, workshop.registry.get TypeName.split = .ok factory →
    ∀ args world outcome later, (workshop.build factory args).run world = some (outcome, later) →
      outcome = .ok (.fork (args.branches.getD Diagram.usualBranches) args.input)
  single : ∀ type factory, type ≠ TypeName.split → workshop.registry.get type = .ok factory →
    ∀ args world built later,
      (workshop.build factory args).run world = some (.ok built, later) → ∃ stage, built = .single stage

namespace Workshop

variable {φ : Type} {workshop : Workshop Run φ} {assembly : Assembly φ} {output : ModuleId}
  {done rest : List Plan.Step} {step : Plan.Step}

theorem registry_settled (type : String) : Settled (fun factory =>
    workshop.registry.get type = .ok factory) (workshop.registry.get type) := by
  unfold Registry.get
  split
  · rfl
  · exact id

theorem throw_suffices {α : Type} {post : α → Prop} {error : PipeError}
    (h : ¬ error.IsShortage) : Suffices post (throw error) := by
  intro world outcome later hrun
  cases hrun
  exact h

theorem not_isShortage_whileBuilding (id : ModuleId) (error : PipeError) :
    ¬ (error.whileBuilding id).IsShortage := by
  cases error <;> exact not_false

/-- Binding an embedded module uses up nothing. -/
theorem bind_settled {context : RunContext} {factory : φ}
    (hbound : ∀ id, step.embed = some id → (assembly.embeds.lookup id).isSome = true)
    (h : assembly.Stocked output done (step :: rest)) :
    Settled (fun next => next.Stocked output (done ++ [step]) rest)
      (assembly.bind context step factory) := by
  refine Settled.bind (Assembly.embedFor_settled hbound) fun nested _ => ?_
  refine ⟨h.output_eq, ?_, fun other hother hembedded => ?_⟩
  · have hserves : assembly.Serves fun id =>
        Plan.demand rest id + Plan.outputDemand output id := by
      refine h.serves.mono fun id => ?_
      rw [Assembly.demand_cons, Nat.add_assoc]
      exact Nat.le_add_left _ _
    exact ⟨hserves.supplied, hserves.apart⟩
  · rw [List.lookup_append, Option.isSome_or, Bool.or_eq_true]
    rcases List.mem_append.mp hother with hother | hother
    · exact .inl (h.bound other hother hembedded)
    · rw [List.mem_singleton.mp hother]
      exact .inr (by simp)

/-- What a step that is built can be asked for covers what is needed of it. -/
theorem need_le_built {factory : φ} {args : Arguments φ} {world later : World} {built : Built}
    (hregular : workshop.Regular) (hplan : Plan.Provident (done ++ step :: rest) output)
    (hfactory : workshop.registry.get step.type = .ok factory)
    (hargs : args.branches = step.branches)
    (hbuild : (workshop.build factory args).run world = some (.ok built, later)) :
    Plan.demand rest step.id + Plan.outputDemand output step.id ≤ step.consumers ∧
      ∀ branches upstream, built = .fork branches upstream →
        Plan.demand rest step.id + Plan.outputDemand output step.id ≤ branches := by
  have hmem : step ∈ done ++ step :: rest := by simp
  have hneed : Plan.demand rest step.id + Plan.outputDemand output step.id ≤
      Plan.demand (done ++ step :: rest) step.id + Plan.outputDemand output step.id := by
    have hrest := Assembly.demand_le_append (done ++ [step]) rest step.id
    rw [List.append_assoc] at hrest
    exact Nat.add_le_add_right hrest _
  refine ⟨hneed.trans (hplan.consumers step hmem), ?_⟩
  rintro branches upstream rfl
  by_cases htype : step.type = TypeName.split
  · have hsplit := hregular.split factory (htype ▸ hfactory) args world _ later hbuild
    cases hsplit
    rw [hargs]
    exact hneed.trans (hplan.branches step hmem htype)
  · obtain ⟨stage, hsingle⟩ :=
      hregular.single step.type factory htype hfactory args world _ later hbuild
    cases hsingle

theorem addBuilt_stocked {built : Built} (h : assembly.Stocked output done rest)
    (hembedded : step.embedded = false)
    (hserves : (assembly.addBuilt step built).Serves fun id =>
      Plan.demand rest id + Plan.outputDemand output id) :
    (assembly.addBuilt step built).Stocked output (done ++ [step]) rest := by
  have hsame : (assembly.addBuilt step built).output = assembly.output ∧
      (assembly.addBuilt step built).embeds = assembly.embeds := by
    cases built with
    | single stage =>
        rw [Assembly.addBuilt]
        split
        · exact ⟨rfl, rfl⟩
        · exact ⟨rfl, rfl⟩
    | fork branches upstream => exact ⟨rfl, rfl⟩
  refine ⟨hsame.1.trans h.output_eq, hserves, fun other hother hisEmbedded => ?_⟩
  rw [hsame.2]
  rcases List.mem_append.mp hother with hother | hother
  · exact h.bound other hother hisEmbedded
  · rw [List.mem_singleton.mp hother, hembedded] at hisEmbedded
    cases hisEmbedded

/-- Building a module uses up what it takes and supplies what it was counted for. -/
theorem buildStep_suffices {factory : φ} (hregular : workshop.Regular)
    (hplan : Plan.Provident (done ++ step :: rest) output)
    (hbound : ∀ id, step.embed = some id → (assembly.embeds.lookup id).isSome = true)
    (hfactory : workshop.registry.get step.type = .ok factory) (hembedded : step.embedded = false)
    (h : assembly.Stocked output done (step :: rest)) :
    Suffices (fun next => next.Stocked output (done ++ [step]) rest)
      (workshop.buildStep assembly step factory) := by
  have hserves : assembly.Serves fun id => step.demand id +
      (Plan.demand rest id + Plan.outputDemand output id) :=
    h.serves.mono fun id => by rw [Assembly.demand_cons, Nat.add_assoc]
  unfold buildStep
  refine Suffices.bind (.of_settled
    (hserves.arguments (hplan.fed step (by simp) hembedded) hbound)) ?_
  rintro ⟨args, next⟩ ⟨⟨hargs, hnext⟩, hkeeps⟩
  have hstocked : next.Stocked output done rest :=
    ⟨hkeeps.output_eq.trans h.output_eq, hnext, hkeeps.embeds_eq ▸ h.bound⟩
  have hlift : Suffices (fun outcome => ∃ world later,
      (workshop.build factory args).run world = some (outcome, later))
        (ExceptT.lift (workshop.build factory args)) :=
    .lift fun world outcome later hbuild => ⟨world, later, hbuild⟩
  have hbuilt : ∀ built, (∃ world later,
      (workshop.build factory args).run world = some (.ok built, later)) →
        Suffices (fun final => final.Stocked output (done ++ [step]) rest)
          (pure (next.addBuilt step built)) := by
    rintro built ⟨world, later, hbuild⟩
    obtain ⟨hconsumers, hbranches⟩ := need_le_built hregular hplan hfactory hargs hbuild
    have hsettled : Settled (fun final => final.Stocked output (done ++ [step]) rest)
        (.ok (next.addBuilt step built)) :=
      addBuilt_stocked hstocked hembedded (hnext.addBuilt hconsumers hbranches)
    exact .of_settled hsettled
  simp only
  split
  · have hreport : Suffices (fun _ => True)
        (ExceptT.lift (workshop.report (.building step.callForm))) := .lift fun _ _ _ _ => trivial
    refine hreport.bind fun _ _ => hlift.bind fun outcome houtcome => ?_
    cases outcome with
    | error error => exact throw_suffices (not_isShortage_whileBuilding step.id error)
    | ok built => exact hbuilt built houtcome
  · refine hlift.bind fun outcome houtcome => ?_
    cases outcome with
    | error error => exact throw_suffices (not_isShortage_whileBuilding step.id error)
    | ok built => exact hbuilt built houtcome

/-- Adding a step leaves enough for the steps behind it. -/
theorem addStep_suffices (hregular : workshop.Regular)
    (hplan : Plan.Provident (done ++ step :: rest) output)
    (h : assembly.Stocked output done (step :: rest)) :
    Suffices (fun next => next.Stocked output (done ++ [step]) rest)
      (workshop.addStep assembly step) := by
  have hbound : ∀ id, step.embed = some id → (assembly.embeds.lookup id).isSome = true := by
    intro id hid
    obtain ⟨inner, hinner, rfl, hembedded⟩ := hplan.embeds done step rest rfl id hid
    exact h.bound inner hinner hembedded
  unfold addStep
  refine Suffices.bind (.of_settled (registry_settled step.type)) fun factory hfactory => ?_
  split
  next hembedded => exact .of_settled (bind_settled hbound h)
  next hembedded =>
    exact buildStep_suffices hregular hplan hbound hfactory (Bool.eq_false_of_not_eq_true hembedded) h

theorem addSteps_suffices (hregular : workshop.Regular)
    (hplan : Plan.Provident (done ++ rest) output) (h : assembly.Stocked output done rest) :
    Suffices (fun final => final.Stocked output (done ++ rest) [])
      (workshop.addSteps assembly rest) := by
  induction rest generalizing assembly done with
  | nil =>
      have hsettled : Settled (fun final => final.Stocked output (done ++ []) [])
          (.ok assembly) := by
        rw [List.append_nil]
        exact h
      exact .of_settled hsettled
  | cons step rest ih =>
      refine (addStep_suffices hregular hplan h).bind fun next hnext => ?_
      rw [List.append_cons] at hplan ⊢
      exact ih hplan hnext

theorem reports_suffice (warnings : List Event) : Suffices (fun _ => True)
    (warnings.forM fun warning => ExceptT.lift (workshop.report warning)) := by
  induction warnings with
  | nil => exact .of_settled (show Settled (fun _ => True) (.ok PUnit.unit) from trivial)
  | cons warning rest ih =>
      have hreport : Suffices (fun _ => True) (ExceptT.lift (workshop.report warning)) :=
        .lift fun _ _ _ _ => trivial
      exact hreport.bind fun _ _ => ih

/-- Assembling the steps of a provident plan never runs short. -/
theorem assemble_suffices (hregular : workshop.Regular) {pipe : Pipe}
    (hplan : ∀ last, pipe.plan.last? = some last → Plan.Provident pipe.plan.steps last.id) :
    Suffices (fun final => ∃ last, final.Stocked last pipe.plan.steps [])
      (workshop.assemble pipe) := by
  unfold assemble
  split
  · exact throw_suffices not_false
  next last hlast =>
    have hsteps : Suffices (fun final => final.Stocked last.id pipe.plan.steps [])
        (workshop.addSteps (.start last.id) pipe.plan.steps) := by
      have hlastPlan : Plan.Provident ([] ++ pipe.plan.steps) last.id := hplan last hlast
      exact addSteps_suffices hregular hlastPlan (.start last.id pipe.plan.steps)
    refine hsteps.bind fun final hfinal => ?_
    have hreport : Suffices (fun _ => True) (ExceptT.lift
        (workshop.report (.assembled workshop.mode final.size pipe.diagram.name))) :=
      .lift fun _ _ _ _ => trivial
    refine hreport.bind fun _ _ => ?_
    exact .of_settled (show Settled _ (.ok final) from ⟨last.id, hfinal⟩)

/-- Assembling the steps of a provident plan and taking the output never runs short. -/
theorem output_suffices (hregular : workshop.Regular) {pipe : Pipe}
    (hplan : ∀ last, pipe.plan.last? = some last → Plan.Provident pipe.plan.steps last.id) :
    Suffices (fun _ => True) (workshop.output pipe) := by
  refine (assemble_suffices hregular hplan).bind ?_
  rintro final ⟨last, hfinal⟩
  have htake : Settled (fun _ => True) final.takeOutput := by
    have hserves : final.Serves fun id => (if id = final.output then 1 else 0) + 0 := by
      refine hfinal.serves.mono fun id => ?_
      rw [hfinal.output_eq, Nat.add_zero, ← Plan.outputDemand]
      exact Nat.le_add_left _ _
    refine Settled.bind (Assembly.Serves.take hserves) ?_
    rintro ⟨stage, left⟩ _
    trivial
  refine (Suffices.of_settled htake).bind ?_
  rintro ⟨stage, warnings⟩ _
  refine (reports_suffice warnings).bind fun _ _ => ?_
  exact .of_settled (show Settled (fun _ => True) (.ok stage) from trivial)

end Workshop

end Pipework
