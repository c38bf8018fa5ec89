import Pipework.Proofs.Assembly.Calls
import Pipework.Proofs.Stage.Junction

/-! # What assembling keeps

Stages are taken of an assembly, and what has been built of them is added to it. What is taken is
what a slot offers, and nothing that consumers can tell is changed of the junctions by that. So
whatever holds of an assembly without modules and is kept by taking, by adding what has been built
of offered stages and by binding holds of the assembly whose output is taken.
-/

namespace Pipework

/-- The stages that may be taken of a slot. -/
inductive Slot.Offers : Slot → Stage → Prop
  | owned (stage : Stage) : Offers (.owned (some stage)) stage
  | tap (place : Nat) : Offers (.tap place) (.tap place)
  | branch (place index : Nat) : Offers (.fork place) (.branch place index)

/-- The same upstream, and no consumer finds more in the buffers. -/
structure Junction.Slackens (before after : Junction Stage) : Prop where
  upstream_eq : after.upstream = before.upstream
  dry_eq : after.dry = before.dry
  empty : ∀ index, before.waitingFor index = [] → after.waitingFor index = []

theorem Junction.Slackens.refl (junction : Junction Stage) : junction.Slackens junction :=
  ⟨rfl, rfl, fun _ => id⟩

theorem Junction.Slackens.trans {first second third : Junction Stage} (h : first.Slackens second)
    (hnext : second.Slackens third) : first.Slackens third :=
  ⟨hnext.upstream_eq.trans h.upstream_eq, hnext.dry_eq.trans h.dry_eq,
    fun index hempty => hnext.empty index (h.empty index hempty)⟩

/-- Handing out a branch is not noticed by those who have one. -/
theorem Fork.attach_slackens {fork next : Fork Stage} {index : Nat}
    (h : fork.attach = .ok (index, next)) : (Junction.fork fork).Slackens (.fork next) := by
  unfold attach at h
  split at h
  · cases h
    exact ⟨rfl, rfl, fun _ hempty => hempty⟩
  · cases h

/-- Branches that nobody has taken have no buffers any more. -/
theorem Assembly.closeJunction_slackens (junction : Junction Stage) :
    junction.Slackens (closeJunction junction) := by
  cases junction with
  | tap tap => exact .refl _
  | fork fork =>
      refine ⟨rfl, rfl, fun index hempty => ?_⟩
      simp only [closeJunction, Fork.close, Junction.waitingFor, Fork.buffer?,
        List.getElem?_mapIdx] at hempty ⊢
      cases hbuffer : fork.buffers[index]? with
      | none => rfl
      | some buffer =>
          rw [hbuffer] at hempty
          rw [Option.map_some]
          split
          · exact hempty
          · rfl

namespace Assembly

variable {φ : Type} {assembly rest : Assembly φ} {id : ModuleId} {stage : Stage} {step : Plan.Step}

/-- The stages that may be taken as that of a module. -/
def Offers (assembly : Assembly φ) (id : ModuleId) (stage : Stage) : Prop :=
  ∃ slot, assembly.slots.lookup id = some slot ∧ slot.Offers stage

/-- One assembly is what is left of another from which stages have been taken. -/
structure Spends (before after : Assembly φ) : Prop where
  output_eq : after.output = before.output
  offers : ∀ id stage, after.Offers id stage → before.Offers id stage
  junctions : List.Forall₂ Junction.Slackens before.junctions after.junctions

theorem Spends.refl (assembly : Assembly φ) : assembly.Spends assembly :=
  ⟨rfl, fun _ _ => id, List.forall₂_same.mpr fun _ _ => .refl _⟩

theorem Spends.trans {first second third : Assembly φ} (h : first.Spends second)
    (hnext : second.Spends third) : first.Spends third where
  output_eq := hnext.output_eq.trans h.output_eq
  offers id stage hoffers := h.offers id stage (hnext.offers id stage hoffers)
  junctions := by
    refine List.forall₂_iff_get.mpr ⟨h.junctions.length_eq.trans hnext.junctions.length_eq, ?_⟩
    intro place hfirst hthird
    have hsecond := h.junctions.length_eq ▸ hfirst
    exact (h.junctions.get hfirst hsecond).trans (hnext.junctions.get hsecond hthird)

theorem setSlot_spends (assembly : Assembly φ) (id : ModuleId) :
    assembly.Spends (assembly.setSlot id (.owned none)) where
  output_eq := rfl
  offers := by
    rintro other stage ⟨slot, hslot, hoffers⟩
    rw [lookup_setSlot] at hslot
    split at hslot
    · obtain ⟨held, -, rfl⟩ := Option.map_eq_some_iff.mp hslot
      cases hoffers
    · exact ⟨slot, hslot, hoffers⟩
  junctions := (Spends.refl assembly).junctions

theorem takeBranch_eq_ok {place : Nat} (h : assembly.takeBranch id place = .ok (stage, rest)) :
    (Slot.fork place).Offers stage ∧ assembly.Spends rest := by
  unfold takeBranch at h
  split at h
  next fork hfork =>
    obtain ⟨⟨index, next⟩, hattach, hpure⟩ := bind_eq_ok_iff.mp h
    cases hpure
    refine ⟨.branch place index, rfl, fun _ _ h => h, ?_⟩
    refine List.forall₂_iff_get.mpr ⟨List.length_set.symm, fun other hother _ => ?_⟩
    simp only [List.get_eq_getElem, List.getElem_set]
    split
    next heq =>
      subst heq
      have hat : assembly.junctions[place] = .fork fork :=
        (List.getElem?_eq_some_iff.mp hfork).2
      rw [hat]
      exact Fork.attach_slackens hattach
    · exact .refl _
  · cases h

/-- What is taken as the stage of a module is offered by its slot. -/
theorem take_eq_ok (h : assembly.take id = .ok (stage, rest)) :
    assembly.Offers id stage ∧ assembly.Spends rest := by
  unfold take at h
  split at h
  · cases h
  · cases h
  next held hslot =>
    cases h
    exact ⟨⟨_, hslot, .owned stage⟩, assembly.setSlot_spends id⟩
  next place hslot =>
    cases h
    exact ⟨⟨_, hslot, .tap place⟩, .refl assembly⟩
  next place hslot =>
    obtain ⟨hoffers, hspends⟩ := takeBranch_eq_ok h
    exact ⟨⟨_, hslot, hoffers⟩, hspends⟩

theorem takeInput_eq_ok (h : assembly.takeInput step = .ok (stage, rest)) :
    (step.input = .sentinel ∧ stage = .sentinel ∨
      ∃ source, step.input = .module source ∧ assembly.Offers source stage) ∧
        assembly.Spends rest := by
  unfold takeInput at h
  split at h
  next hinput =>
    cases h
    exact ⟨.inl ⟨hinput, rfl⟩, .refl assembly⟩
  next source hinput =>
    obtain ⟨hoffers, hspends⟩ := take_eq_ok h
    exact ⟨.inr ⟨source, hinput, hoffers⟩, hspends⟩
  · cases h

theorem takeInputs_eq_ok {inputs : List (String × ModuleId)} {stages : List (String × Stage)}
    (h : assembly.takeInputs inputs = .ok (stages, rest)) :
    (∀ entry ∈ stages, ∃ source, assembly.Offers source entry.2) ∧ assembly.Spends rest := by
  induction inputs generalizing assembly stages with
  | nil =>
      cases h
      exact ⟨nofun, .refl _⟩
  | cons input others ih =>
      obtain ⟨⟨stage, left⟩, htake, h⟩ := bind_eq_ok_iff.mp h
      obtain ⟨⟨more, last⟩, hmore, hpure⟩ := bind_eq_ok_iff.mp h
      cases hpure
      obtain ⟨hoffers, hspends⟩ := take_eq_ok htake
      obtain ⟨hlater, hrest⟩ := ih hmore
      refine ⟨fun entry hentry => ?_, hspends.trans hrest⟩
      rcases List.mem_cons.mp hentry with rfl | hentry
      · exact ⟨_, hoffers⟩
      · obtain ⟨source, hsource⟩ := hlater entry hentry
        exact ⟨source, hspends.offers _ _ hsource⟩

/-- The stages that a step is built from are offered by the assembly. -/
structure Feeds (assembly : Assembly φ) (step : Plan.Step) (args : Arguments φ) : Prop where
  id_eq : args.id = step.id
  conf_eq : args.conf = step.conf
  input : step.input = .sentinel ∧ args.input = .sentinel ∨
    ∃ source, step.input = .module source ∧ assembly.Offers source args.input
  inputs : ∀ entry ∈ args.inputs, ∃ source, assembly.Offers source entry.2

theorem feeds_of_arguments {context : RunContext} {args : Arguments φ}
    (h : assembly.arguments context step = .ok (args, rest)) :
    assembly.Feeds step args ∧ assembly.Spends rest := by
  obtain ⟨⟨input, left⟩, hinput, h⟩ := bind_eq_ok_iff.mp h
  obtain ⟨⟨inputs, last⟩, hinputs, h⟩ := bind_eq_ok_iff.mp h
  obtain ⟨embed, -, hpure⟩ := bind_eq_ok_iff.mp h
  cases hpure
  obtain ⟨hoffers, hspends⟩ := takeInput_eq_ok hinput
  obtain ⟨hothers, hrest⟩ := takeInputs_eq_ok hinputs
  refine ⟨⟨rfl, rfl, hoffers, fun entry hentry => ?_⟩, hspends.trans hrest⟩
  obtain ⟨source, hsource⟩ := hothers entry hentry
  exact ⟨source, hspends.offers _ _ hsource⟩

end Assembly

/-- The slot of what has been built as a step, and the junctions that are added for it behind so
many others. -/
inductive Built.Files (step : Plan.Step) (size : Nat) : Built → Slot → List (Junction Stage) → Prop
  | owned (own : Stage) :
      Files step size (.single own) (.owned (some (.tagged step.id 0 own))) []
  | shared (own : Stage) :
      Files step size (.single own) (.tap size) [.tap (.start (.tagged step.id 0 own))]
  | fork (branches : Nat) (upstream : Stage) :
      Files step size (.fork branches upstream) (.fork size)
        [.fork (.start step.id upstream branches)]

namespace Assembly

variable {φ : Type} {assembly : Assembly φ} {step : Plan.Step}

theorem offers_addSlot {slot : Slot} {id : ModuleId} {stage : Stage}
    (h : (assembly.addSlot step slot).Offers id stage) :
    assembly.Offers id stage ∨ id = step.id ∧ slot.Offers stage := by
  obtain ⟨held, hheld, hoffers⟩ := h
  rw [lookup_addSlot, Option.or_eq_some_iff] at hheld
  rcases hheld with hold | ⟨-, hnew⟩
  · exact .inl ⟨held, hold, hoffers⟩
  · split at hnew
    next heq =>
      cases hnew
      exact .inr ⟨heq, hoffers⟩
    · cases hnew

/-- One assembly is another to which something has been added that was built as a step. -/
structure Grows (before : Assembly φ) (step : Plan.Step) (slot : Slot)
    (added : List (Junction Stage)) (after : Assembly φ) : Prop where
  output_eq : after.output = before.output
  junctions_eq : after.junctions = before.junctions ++ added
  offers : ∀ id stage, after.Offers id stage →
    before.Offers id stage ∨ id = step.id ∧ slot.Offers stage

theorem addBuilt_grows (assembly : Assembly φ) (step : Plan.Step) (built : Built) :
    ∃ slot added, built.Files step assembly.junctions.length slot added ∧
      assembly.Grows step slot added (assembly.addBuilt step built) := by
  cases built with
  | single own =>
      rw [addBuilt]
      split
      · exact ⟨_, _, .shared own, rfl, rfl, fun _ _ => offers_addSlot⟩
      · exact ⟨_, _, .owned own, rfl, (List.append_nil _).symm, fun _ _ => offers_addSlot⟩
  | fork branches upstream =>
      exact ⟨_, _, .fork branches upstream, rfl, rfl, fun _ _ => offers_addSlot⟩

theorem takeOutput_eq_ok {stage : Stage} {warnings : List Event}
    (h : assembly.takeOutput = .ok (stage, warnings)) :
    ∃ out rest, assembly.Offers assembly.output out ∧ assembly.Spends rest ∧
      stage = .closed (rest.junctions.map closeJunction) out := by
  obtain ⟨⟨out, rest⟩, htake, hpure⟩ := bind_eq_ok_iff.mp h
  cases hpure
  obtain ⟨hoffers, hspends⟩ := take_eq_ok htake
  exact ⟨out, rest, hoffers, hspends, rfl⟩

end Assembly

namespace Workshop

variable {φ : Type} {workshop : Workshop Run φ} {assembly : Assembly φ} {steps : List Plan.Step}

/-- What holds of assemblies is kept by what the steps of a plan do to them. -/
structure Keeps (workshop : Workshop Run φ) (holds : Assembly φ → Prop)
    (steps : List Plan.Step) : Prop where
  build : ∀ step ∈ steps, ∀ factory assembly args rest world built later,
    workshop.registry.get step.type = .ok factory → holds assembly →
    assembly.Feeds step args → assembly.Spends rest →
    (workshop.build factory args).run world = some (.ok built, later) →
    holds (rest.addBuilt step built)
  bind : ∀ assembly embeds, holds assembly → holds { assembly with embeds }

namespace Keeps

variable {holds : Assembly φ → Prop}

/-- The assembly is of a pipe with an output, and something holds of it. -/
def Has (holds : Assembly φ → Prop) (output : ModuleId) (assembly : Assembly φ) : Prop :=
  assembly.output = output ∧ holds assembly

theorem addStep (h : workshop.Keeps holds steps) {output : ModuleId}
    (hassembly : Has holds output assembly) {step : Plan.Step} (hstep : step ∈ steps) :
    Ends True (fun _ => True) (Has holds output) (workshop.addStep assembly step) := by
  have hget : Turns (fun _ => True) (fun factory => workshop.registry.get step.type = .ok factory)
      (workshop.registry.get step.type) := by
    cases workshop.registry.get step.type with
    | error error => trivial
    | ok factory => rfl
  unfold Workshop.addStep
  refine Ends.bind (.of_turns hget) fun factory hfactory => ?_
  split
  · refine .of_turns ?_
    have hembed : Turns (fun _ => True) (fun _ => True) (assembly.embedFor step) := by
      cases assembly.embedFor step <;> trivial
    exact hembed.bind fun nested _ => ⟨hassembly.1, h.bind assembly _ hassembly.2⟩
  · have harguments : Turns (fun _ => True)
        (fun taken => assembly.Feeds step taken.1 ∧ assembly.Spends taken.2)
        (assembly.arguments workshop.context step) := by
      cases htaken : assembly.arguments workshop.context step with
      | error error => trivial
      | ok taken => exact Assembly.feeds_of_arguments htaken
    refine Workshop.ends_buildStep harguments (fun _ => .trivial _) ?_
    rintro args rest ⟨hfeeds, hspends⟩ world
    cases hbuild : (workshop.build factory args).run world with
    | none => trivial
    | some reached =>
        obtain ⟨outcome, later⟩ := reached
        cases outcome with
        | error error => trivial
        | ok built =>
            obtain ⟨_, _, -, hgrows⟩ := rest.addBuilt_grows step built
            exact ⟨hgrows.output_eq.trans (hspends.output_eq.trans hassembly.1),
              h.build step hstep factory assembly args rest world built later hfactory hassembly.2
                hfeeds hspends hbuild⟩

theorem addSteps (h : workshop.Keeps holds steps) {output : ModuleId}
    (hassembly : Has holds output assembly) {rest : List Plan.Step} (hrest : rest ⊆ steps) :
    Ends True (fun _ => True) (Has holds output) (workshop.addSteps assembly rest) := by
  induction rest generalizing assembly with
  | nil => exact fun _ => hassembly
  | cons step later ih =>
      obtain ⟨hstep, hlater⟩ := List.cons_subset.mp hrest
      exact (h.addStep hassembly hstep).bind fun next hnext => ih hnext hlater

/-- What is kept holds of the assembly whose output is taken. -/
theorem output {pipe : Pipe} (h : workshop.Keeps holds pipe.plan.steps)
    (hstart : ∀ output, holds (.start output)) :
    Ends True (fun _ => True) (fun stage => ∃ last assembly warnings,
      pipe.plan.last? = some last ∧ Has holds last.id assembly ∧
        assembly.takeOutput = .ok (stage, warnings)) (workshop.output pipe) := by
  have hassemble : Ends True (fun _ => True) (fun assembly => ∃ last,
      pipe.plan.last? = some last ∧ Has holds last.id assembly) (workshop.assemble pipe) := by
    unfold Workshop.assemble
    split
    · exact fun _ => trivial
    next last hlast =>
      have hsteps : Ends True (fun _ => True) (Has holds last.id)
          (workshop.addSteps (.start last.id) pipe.plan.steps) :=
        h.addSteps ⟨rfl, hstart last.id⟩ (List.Subset.refl pipe.plan.steps)
      refine hsteps.bind fun assembly hassembly => ?_
      exact (Ends.trivial _).bind fun _ _ _ => ⟨last, hlast, hassembly⟩
  unfold Workshop.output
  refine hassemble.bind ?_
  rintro assembly ⟨last, hlast, hassembly⟩
  have htaken : Turns (fun _ => True) (fun taken => assembly.takeOutput = .ok taken)
      assembly.takeOutput := by
    cases assembly.takeOutput with
    | error error => trivial
    | ok taken => rfl
  refine Ends.bind (.of_turns htaken) fun taken htake => ?_
  exact (Ends.trivial _).bind fun _ _ _ => ⟨last, assembly, taken.2, hlast, hassembly, htake⟩

end Keeps

end Workshop

end Pipework
