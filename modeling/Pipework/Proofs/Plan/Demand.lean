import Mathlib
import Pipework.Proofs.Order.Execution

/-! # What a plan takes

The steps of a plan take the stages of other steps, once for each wire that feeds them. A plan that
has been compiled counts its consumers so that no stage is taken more often than it can be, binds
each embedded module before its loop, and ends with a module that nothing needs.
-/

namespace Pipework

theorem countP_add_countP_le {α : Type} {p q r : α → Bool}
    (hdisjoint : ∀ item, p item = true → ¬ q item = true) (hp : ∀ item, p item = true → r item = true)
    (hq : ∀ item, q item = true → r item = true) (list : List α) :
    list.countP p + list.countP q ≤ list.countP r := by
  induction list with
  | nil => exact Nat.le_refl _
  | cons head rest ih =>
      have hhead : (if p head = true then 1 else 0) + (if q head = true then 1 else 0) ≤
          if r head = true then 1 else 0 := by
        by_cases hpHead : p head = true
        · simp [hpHead, hdisjoint head hpHead, hp head hpHead]
        · by_cases hqHead : q head = true
          · simp [hpHead, hqHead, hq head hqHead]
          · simp [hpHead, hqHead]
      rw [List.countP_cons, List.countP_cons, List.countP_cons]
      omega

namespace Plan

/-- How often a step takes the stage of a module. -/
def Step.demand (step : Plan.Step) (id : ModuleId) : Nat :=
  (if step.input = .module id then 1 else 0) + step.inputs.countP fun input => input.2 == id

/-- How often steps take the stage of a module. -/
def demand (steps : List Plan.Step) (id : ModuleId) : Nat :=
  (steps.map fun step => step.demand id).sum

/-- How often the output is the stage of a module. -/
def outputDemand (output id : ModuleId) : Nat :=
  if id = output then 1 else 0

/-- The steps can be assembled without running short of anything. -/
structure Provident (steps : List Plan.Step) (output : ModuleId) : Prop where
  nodup : (steps.map Step.id).Nodup
  /-- Only an embedded module is fed by a loop's record. -/
  fed : ∀ step ∈ steps, step.embedded = false → step.input ≠ .record
  /-- A stage is counted at least as many consumers as take it. -/
  consumers : ∀ step ∈ steps, demand steps step.id + outputDemand output step.id ≤ step.consumers
  /-- A split has at least as many branches as are taken. -/
  branches : ∀ step ∈ steps, step.type = TypeName.split →
    demand steps step.id + outputDemand output step.id ≤
      step.branches.getD Diagram.usualBranches
  /-- What a loop embeds is bound before it. -/
  embeds : ∀ before step after, steps = before ++ step :: after → ∀ id, step.embed = some id →
    ∃ inner ∈ before, inner.id = id ∧ inner.embedded = true

end Plan

namespace Diagram

variable {diagram : Diagram}

theorem wireSource_eq_ok {wire : Wire} {source : ModuleId}
    (h : diagram.wireSource wire = .ok source) : source = wire.source.module := by
  unfold wireSource at h
  split at h
  · exact (Except.ok.inj h).symm
  · cases h

/-- A module whose stage is the default input is at the other end of a wire to it. -/
theorem feedOf_eq_module {module : Module} {source : ModuleId}
    (h : diagram.feedOf module = .ok (.module source)) :
    ∃ wire ∈ diagram.wires, wire.feeds module.id = true ∧ wire.source.module = source := by
  unfold feedOf at h
  split at h
  · cases h
  · split at h
    next wire hwire =>
      cases hsource : diagram.wireSource wire with
      | error error =>
          rw [hsource] at h
          cases h
      | ok found =>
          rw [hsource] at h
          cases h
          exact ⟨wire, List.mem_of_find?_eq_some hwire,
            List.find?_some (p := fun wire : Wire => wire.feeds module.id) hwire,
            (wireSource_eq_ok hsource).symm⟩
    · cases h

theorem feedOf_ne_record {module : Module} {feed : Feed} (h : diagram.feedOf module = .ok feed)
    (hinner : module.isInner = false) : feed ≠ .record := by
  rintro rfl
  unfold feedOf at h
  rw [if_neg (by simp [hinner])] at h
  split at h
  next wire hwire =>
    cases hsource : diagram.wireSource wire with
    | error error =>
        rw [hsource] at h
        cases h
    | ok found =>
        rw [hsource] at h
        cases h
  · cases h

/-- There are as many named inputs from a module as there are wires for them. -/
theorem countP_addNamedFeeds {module : Module} {found inputs : List (String × ModuleId)}
    {wires : List Wire} (h : diagram.addNamedFeeds module found wires = .ok inputs)
    (id : ModuleId) : (inputs.countP fun input => input.2 == id) =
      (found.countP fun input => input.2 == id) +
        wires.countP fun wire => wire.source.module == id := by
  induction wires generalizing found with
  | nil =>
      cases h
      simp
  | cons wire rest ih =>
      rw [addNamedFeeds] at h
      split at h
      · cases h
      next source hsource =>
        obtain rfl := wireSource_eq_ok hsource
        simp only at h
        split at h
        · cases h
        · rw [ih h, List.countP_append, List.countP_singleton, List.countP_cons, Nat.add_right_comm,
            Nat.add_assoc]

/-- A step takes a stage no more often than wires lead from there to it. -/
theorem demand_le {module : Module} {step : Plan.Step}
    (hinput : diagram.feedOf module = .ok step.input)
    (hinputs : diagram.namedFeeds module = .ok step.inputs) (source : ModuleId) :
    step.demand source ≤ diagram.wires.countP fun wire =>
      (wire.source.module == source && wire.source.terminal.isOutput) &&
        wire.target.module == module.id := by
  have hmain : (if step.input = .module source then 1 else 0) ≤ diagram.wires.countP fun wire =>
      wire.feeds module.id && wire.source.module == source := by
    split
    next heq =>
      rw [heq] at hinput
      obtain ⟨wire, hmem, hfeeds, hsource⟩ := feedOf_eq_module hinput
      exact List.countP_pos_iff.mpr ⟨wire, hmem, by simp [hfeeds, hsource]⟩
    · exact Nat.zero_le _
  have hnamed : (step.inputs.countP fun input => input.2 == source) ≤
      diagram.wires.countP fun wire => wire.source.module == source && wire.feedsByName module.id := by
    unfold namedFeeds at hinputs
    split at hinputs
    · rw [← Except.ok.inj hinputs]
      exact Nat.zero_le _
    · rw [countP_addNamedFeeds hinputs, namedWires, List.countP_filter]
      exact Nat.le_of_eq (Nat.zero_add _)
  refine (Nat.add_le_add hmain hnamed).trans (countP_add_countP_le ?_ ?_ ?_ diagram.wires)
  · intro wire hfeeds
    simp only [Wire.feeds, Bool.and_eq_true] at hfeeds
    simp [Wire.feedsByName, hfeeds]
  · intro wire hfeeds
    simp only [Wire.feeds, Bool.and_eq_true] at hfeeds
    simp [hfeeds]
  · intro wire hfeeds
    simp only [Wire.feedsByName, Bool.and_eq_true] at hfeeds
    simp [hfeeds]

/-- Wires to different modules are different wires. -/
theorem sum_countP_le {wires : List Wire} {ids : List ModuleId} (hnodup : ids.Nodup)
    (p : Wire → Bool) : (ids.map fun id => wires.countP fun wire =>
      p wire && wire.target.module == id).sum ≤ wires.countP p := by
  induction ids generalizing p with
  | nil => exact Nat.zero_le _
  | cons id rest ih =>
      obtain ⟨hnew, hrest⟩ := List.nodup_cons.mp hnodup
      have hothers := ih hrest fun wire => p wire && wire.target.module != id
      have hsame : (rest.map fun other => wires.countP fun wire =>
          (p wire && wire.target.module != id) && wire.target.module == other) =
          rest.map fun other => wires.countP fun wire => p wire && wire.target.module == other := by
        refine List.map_congr_left fun other hother => List.countP_congr fun wire _ => ?_
        have hne : other ≠ id := ne_of_mem_of_not_mem hother hnew
        simp only [Bool.and_eq_true, beq_iff_eq, bne_iff_ne]
        constructor
        · rintro ⟨⟨hp, -⟩, htarget⟩
          exact ⟨hp, htarget⟩
        · rintro ⟨hp, rfl⟩
          exact ⟨⟨hp, hne⟩, rfl⟩
      rw [hsame] at hothers
      rw [List.map_cons, List.sum_cons]
      refine (Nat.add_le_add_left hothers _).trans (countP_add_countP_le ?_ ?_ ?_ wires)
      · intro wire hwire
        simp only [Bool.and_eq_true, beq_iff_eq] at hwire
        simp [hwire]
      · intro wire hwire
        simp only [Bool.and_eq_true] at hwire
        exact hwire.1
      · intro wire hwire
        simp only [Bool.and_eq_true] at hwire
        exact hwire.1

/-- What a step has of its module. -/
structure Describes (diagram : Diagram) (isLast : Bool) (module : Module) (step : Plan.Step) :
    Prop where
  id_eq : step.id = module.id
  type_eq : step.type = module.type
  embedded_eq : step.embedded = module.isInner
  input_eq : diagram.feedOf module = .ok step.input
  inputs_eq : diagram.namedFeeds module = .ok step.inputs
  embed_eq : diagram.embed module = .ok step.embed
  branches_eq : step.branches = diagram.branches module
  consumers_eq : step.consumers = diagram.consumers module isLast

theorem stepOf_eq_ok {module : Module} {isLast : Bool} {step : Plan.Step}
    (h : diagram.stepOf module isLast = .ok step) : diagram.Describes isLast module step := by
  obtain ⟨input, hinput, h⟩ := bind_eq_ok_iff.mp h
  obtain ⟨inputs, hinputs, h⟩ := bind_eq_ok_iff.mp h
  obtain ⟨embed, hembed, h⟩ := bind_eq_ok_iff.mp h
  cases h
  exact ⟨rfl, rfl, rfl, hinput, hinputs, hembed, rfl, rfl⟩

/-- The step of a loop embeds something. -/
theorem Describes.exists_embed {isLast : Bool} {module : Module} {step : Plan.Step}
    (h : diagram.Describes isLast module step) (htype : step.type = TypeName.loop) :
    ∃ id, step.embed = some id := by
  have hembed := h.embed_eq
  rw [embed, if_pos (h.type_eq ▸ htype)] at hembed
  split at hembed
  next id hid => exact ⟨id, (Except.ok.inj hembed).symm⟩
  · cases hembed

/-- The steps are those of the modules with the given ids. -/
theorem stepsOf_eq_ok {last : Option ModuleId} {ids : List ModuleId} {steps : List Plan.Step}
    (h : diagram.stepsOf last ids = .ok steps) : steps.map Plan.Step.id = ids ∧
      ∀ step ∈ steps, ∃ module ∈ diagram.modules,
        diagram.Describes (last == some step.id) module step := by
  induction ids generalizing steps with
  | nil =>
      cases h
      exact ⟨rfl, fun _ hmem => absurd hmem List.not_mem_nil⟩
  | cons id rest ih =>
      rw [stepsOf] at h
      split at h
      · cases h
      next module hmodule =>
        obtain ⟨step, hstep, h⟩ := bind_eq_ok_iff.mp h
        obtain ⟨others, hothers, h⟩ := bind_eq_ok_iff.mp h
        cases h
        obtain ⟨hids, hmem⟩ := ih hothers
        obtain ⟨hmemModule, rfl⟩ := Roster.mem_of_module? hmodule
        have hdescribes := stepOf_eq_ok hstep
        refine ⟨by rw [List.map_cons, hids, hdescribes.id_eq], fun other hother => ?_⟩
        rcases List.mem_cons.mp hother with rfl | hother
        · exact ⟨module, hmemModule, hdescribes.id_eq ▸ hdescribes⟩
        · exact hmem other hother

/-- All steps together take a stage no more often than wires lead out of its module. -/
theorem demand_steps_le {last : Option ModuleId} {ids : List ModuleId} {steps : List Plan.Step}
    (h : diagram.stepsOf last ids = .ok steps) (hnodup : ids.Nodup) (source : ModuleId) :
    Plan.demand steps source ≤ diagram.wires.countP fun wire =>
      wire.source.module == source && wire.source.terminal.isOutput := by
  obtain ⟨hids, hmem⟩ := stepsOf_eq_ok h
  refine le_trans ?_ (sum_countP_le (hids ▸ hnodup : (steps.map Plan.Step.id).Nodup) _)
  rw [Plan.demand, List.map_map]
  refine List.sum_le_sum fun step hstep => ?_
  obtain ⟨module, -, hdescribes⟩ := hmem step hstep
  rw [Function.comp_apply, hdescribes.id_eq]
  exact demand_le hdescribes.input_eq hdescribes.inputs_eq source

/-- Nothing needs the last module of an order of execution. -/
theorem IsExecutionOrder.last_sink {order : List ModuleId} (h : diagram.IsExecutionOrder order)
    {last : ModuleId} (hlast : order.getLast? = some last) (target : ModuleId) :
    ¬ diagram.Precedes last target := by
  intro hprecedes
  have hbefore := h.precedes last target hprecedes
  have htarget : target ∈ order := (h.mem_iff target).mpr ⟨last, .inr hprecedes⟩
  obtain ⟨front, rfl⟩ := List.getLast?_eq_some_iff.mp hlast
  have hnew : last ∉ front := fun hmem =>
    (List.nodup_append.mp h.nodup).2.2 last hmem last (List.mem_singleton_self last) rfl
  have hplace : (front ++ [last]).idxOf last = front.length := by
    rw [List.idxOf_append_of_notMem hnew, List.idxOf_cons_self, Nat.add_zero]
  have hlength := List.idxOf_lt_length_iff.mpr htarget
  rw [List.length_append, List.length_singleton] at hlength
  omega

/-- What a module needs is before it in an order of execution. -/
theorem IsExecutionOrder.mem_before {order before after : List ModuleId} {source target : ModuleId}
    (h : diagram.IsExecutionOrder order) (hsplit : order = before ++ target :: after)
    (hprecedes : diagram.Precedes source target) : source ∈ before := by
  have hbefore := h.precedes source target hprecedes
  have hnew : target ∉ before := by
    intro hmem
    have hnodup := h.nodup
    rw [hsplit] at hnodup
    exact (List.nodup_append.mp hnodup).2.2 target hmem target List.mem_cons_self rfl
  by_contra hnot
  rw [hsplit, List.idxOf_append_of_notMem hnew, List.idxOf_append_of_notMem hnot,
    List.idxOf_cons_self] at hbefore
  omega

/-- What has been compiled keeps the order of execution. -/
theorem compile_eq_execution {pipe : Pipe} (hcoherent : Coherent diagram.modules)
    (h : diagram.compile = .ok pipe) : diagram.IsExecutionOrder pipe.order ∧
      diagram.stepsOf pipe.order.getLast? pipe.order = .ok pipe.plan.steps ∧
      pipe.diagram = diagram := by
  obtain ⟨dependencies, hdependencies, horder, hsteps, hdiagram⟩ := compile_eq_ok h
  have hbound := wiresBound_of_dependencies hdependencies
  obtain ⟨found, hfound, hcharts⟩ := exists_dependencies hcoherent hbound
  cases hdependencies.symm.trans hfound
  exact ⟨(hcharts.sortModules hcoherent hbound horder).1, hsteps, hdiagram⟩

theorem outgoing_eq_zero_of_last {order : List ModuleId} (h : diagram.IsExecutionOrder order)
    {last : ModuleId} (hlast : order.getLast? = some last) :
    (diagram.wires.countP fun wire => wire.source.module == last) = 0 := by
  rw [List.countP_eq_zero]
  intro wire hwire hsource
  exact h.last_sink hlast wire.target.module
    (.inr ⟨wire, hwire, beq_iff_eq.mp hsource, rfl⟩)

/-- The body of a loop is a step before it. -/
theorem embed_before {order : List ModuleId} (hcoherent : Coherent diagram.modules)
    (h : diagram.IsExecutionOrder order) {last : Option ModuleId} {steps before after : List Plan.Step}
    {step : Plan.Step} (hsteps : diagram.stepsOf last order = .ok steps)
    (hsplit : steps = before ++ step :: after) {id : ModuleId} (hid : step.embed = some id) :
    ∃ inner ∈ before, inner.id = id ∧ inner.embedded = true := by
  obtain ⟨hids, hmem⟩ := stepsOf_eq_ok hsteps
  obtain ⟨module, hmodule, hdescribes⟩ := hmem step (by simp [hsplit])
  obtain ⟨inner, hinner, hinnerId, hparent⟩ : ∃ inner ∈ diagram.modules, inner.id = id ∧
      inner.parent = some module.id := by
    have hembed := hdescribes.embed_eq
    rw [hid, embed] at hembed
    split at hembed
    next hloop =>
      obtain ⟨inner, hinner, hbody, hparent⟩ := hcoherent.body module hmodule hloop
      rw [hbody] at hembed
      split at hembed
      next found hfound =>
        obtain ⟨hsome, -⟩ := Option.filter_eq_some_iff.mp hfound
        cases hsome
        cases hembed
        exact ⟨inner, hinner, rfl, hparent⟩
      · cases hembed
    · cases hembed
  have hprecedes : diagram.Precedes id step.id := by
    rw [hdescribes.id_eq]
    exact .inl ⟨inner, hinner, hinnerId, hparent⟩
  have horder : order = before.map Plan.Step.id ++ step.id :: after.map Plan.Step.id := by
    rw [← hids, hsplit, List.map_append, List.map_cons]
  obtain ⟨earlier, hearlier, hearlierId⟩ := List.mem_map.mp (h.mem_before horder hprecedes)
  refine ⟨earlier, hearlier, hearlierId, ?_⟩
  obtain ⟨owned, howned, hearlierDescribes⟩ := hmem earlier (by simp [hsplit, hearlier])
  have hsame : owned = inner := List.inj_on_of_nodup_map hcoherent.nodup howned hinner
    (hearlierDescribes.id_eq.symm.trans (hearlierId.trans hinnerId.symm))
  rw [hearlierDescribes.embedded_eq, hsame, Module.isInner, hparent]
  rfl

/-- The last step of a plan is of a module that no loop owns and no wire leaves. -/
theorem last_step {order : List ModuleId} (h : diagram.IsExecutionOrder order) {steps : List Plan.Step}
    (hsteps : diagram.stepsOf order.getLast? order = .ok steps) {last : Plan.Step}
    (hlast : steps.getLast? = some last) : last.embedded = false ∧
      ∀ wire ∈ diagram.wires, wire.source.module ≠ last.id := by
  obtain ⟨hids, hmem⟩ := stepsOf_eq_ok hsteps
  have horder : order.getLast? = some last.id := by
    rw [← hids, List.getLast?_map, hlast]
    rfl
  constructor
  · obtain ⟨module, hmodule, hdescribes⟩ := hmem last (List.mem_of_getLast? hlast)
    rw [hdescribes.embedded_eq, Module.isInner]
    cases hparent : module.parent with
    | none => rfl
    | some owner =>
        refine absurd ?_ (h.last_sink horder owner)
        exact .inl ⟨module, hmodule, hdescribes.id_eq.symm, hparent⟩
  · rintro wire hwire hsource
    exact h.last_sink horder wire.target.module (.inr ⟨wire, hwire, hsource, rfl⟩)

/-- A plan that has been compiled can be assembled without running short of anything. -/
theorem provident_of_compile {pipe : Pipe} (hcoherent : Coherent diagram.modules)
    (h : diagram.compile = .ok pipe) {last : Plan.Step} (hlast : pipe.plan.last? = some last) :
    Plan.Provident pipe.plan.steps last.id := by
  obtain ⟨hexecution, hsteps, -⟩ := compile_eq_execution hcoherent h
  obtain ⟨hids, hmem⟩ := stepsOf_eq_ok hsteps
  have horder : pipe.order.getLast? = some last.id := by
    rw [← hids, List.getLast?_map, ← Plan.last?, hlast]
    rfl
  have hdemand := demand_steps_le hsteps hexecution.nodup
  refine ⟨hids ▸ hexecution.nodup, ?fed, ?consumers, ?branches, ?embeds⟩
  case fed =>
    intro step hstep hembedded
    obtain ⟨module, -, hdescribes⟩ := hmem step hstep
    exact feedOf_ne_record hdescribes.input_eq (hdescribes.embedded_eq ▸ hembedded)
  case consumers =>
    intro step hstep
    obtain ⟨module, -, hdescribes⟩ := hmem step hstep
    have hstepDemand := hdemand step.id
    rw [hdescribes.consumers_eq, consumers, Plan.outputDemand, ← hdescribes.id_eq, horder]
    by_cases heq : step.id = last.id
    · simp only [heq, if_true, beq_self_eq_true, Bool.toNat_true] at hstepDemand ⊢
      omega
    · rw [if_neg heq]
      omega
  case branches =>
    intro step hstep htype
    obtain ⟨module, -, hdescribes⟩ := hmem step hstep
    have hstepDemand := hdemand step.id
    have houtputs : (diagram.wires.countP fun wire =>
        wire.source.module == step.id && wire.source.terminal.isOutput) ≤
          diagram.wires.countP fun wire => wire.source.module == step.id := by
      refine List.countP_mono_left fun wire _ hwire => ?_
      exact (Bool.and_eq_true _ _ ▸ hwire).1
    rw [hdescribes.branches_eq, branches, if_pos (hdescribes.type_eq ▸ htype),
      ← hdescribes.id_eq, Option.getD_some, Plan.outputDemand]
    by_cases heq : step.id = last.id
    · have hnone := outgoing_eq_zero_of_last hexecution horder
      rw [← heq] at hnone
      rw [if_pos heq, if_pos hnone, usualBranches]
      omega
    · rw [if_neg heq]
      split
      · omega
      · omega
  case embeds =>
    intro before step after hsplit id hid
    exact embed_before hcoherent hexecution hsteps hsplit hid

end Diagram

end Pipework
