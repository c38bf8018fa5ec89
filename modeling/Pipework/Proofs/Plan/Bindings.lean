import Mathlib
import Pipework.Proofs.Plan.Demand

/-! # Wires and what they bind

A wire from an output is there to bind an input of the module that it leads to. Compiling binds each
named input to the only wire into it and a default input to the first of its wires. The further
wires into a default input bind nothing, and no other wire is lost.
-/

namespace Pipework

/-- A list is made up of what it has of each key. -/
theorem perm_flatMap_filter {α κ : Type} [DecidableEq κ] (key : α → κ) {keys : List κ}
    {list : List α} (hnodup : keys.Nodup) (hkeys : ∀ item ∈ list, key item ∈ keys) :
    list.Perm (keys.flatMap fun wanted => list.filter fun item => key item == wanted) := by
  induction keys generalizing list with
  | nil =>
      rw [List.eq_nil_iff_forall_not_mem.mpr fun item hitem => List.not_mem_nil (hkeys item hitem)]
      exact .nil
  | cons first rest ih =>
      obtain ⟨hnew, hrest⟩ := List.nodup_cons.mp hnodup
      rw [List.flatMap_cons]
      -- The items of the first key come off; the keys of the others are among the rest.
      refine (List.filter_append_perm (fun item => key item == first) list).symm.trans
        (.append_left _ ?_)
      have hothers : ∀ item ∈ list.filter fun item => !(key item == first), key item ∈ rest := by
        intro item hitem
        obtain ⟨hmem, hne⟩ := List.mem_filter.mp hitem
        exact (List.mem_cons.mp (hkeys item hmem)).resolve_left (by simpa using hne)
      refine (ih hrest hothers).trans (.of_eq ?_)
      refine List.flatMap_congr fun wanted hwanted => ?_
      have hne : wanted ≠ first := ne_of_mem_of_not_mem hwanted hnew
      rw [List.filter_filter]
      refine List.filter_congr fun item _ => ?_
      by_cases hkey : key item = wanted
      · simp [hkey, hne]
      · simp [hkey]

/-- An input of a module and what it is bound to. -/
structure Binding where
  target : ModuleId
  /-- The normalized name of the input; the default input has none. -/
  input : Option String
  source : ModuleId
deriving DecidableEq

namespace Binding

/-- The input that is bound. -/
def slot (binding : Binding) : ModuleId × Option String :=
  (binding.target, binding.input)

end Binding

/-- What a wire is there to bind. -/
def Wire.binding (wire : Wire) : Binding where
  target := wire.target.module
  input := if wire.target.terminal.isMain then none else some (normalize wire.target.terminal.name)
  source := wire.source.module

namespace Plan

/-- The binding of a step's default input, if it is fed by a module. -/
def Step.mainBinding? (step : Plan.Step) : Option Binding :=
  match step.input with
  | .module source => some ⟨step.id, none, source⟩
  | _ => none

/-- The bindings of a step's default input and of its named inputs. -/
def Step.bindings (step : Plan.Step) : List Binding :=
  step.mainBinding?.toList ++ step.inputs.map fun input => ⟨step.id, some input.1, input.2⟩

theorem Step.of_mainBinding? {step : Plan.Step} {binding : Binding}
    (h : step.mainBinding? = some binding) : binding.target = step.id ∧ binding.input = none := by
  unfold mainBinding? at h
  split at h
  · cases h
    exact ⟨rfl, rfl⟩
  · cases h

theorem Step.target_eq_of_mem {step : Plan.Step} {binding : Binding}
    (h : binding ∈ step.bindings) : binding.target = step.id := by
  rcases List.mem_append.mp h with hmain | hnamed
  · exact (of_mainBinding? (Option.mem_toList.mp hmain)).1
  · obtain ⟨input, -, rfl⟩ := List.mem_map.mp hnamed
    rfl

/-- The bindings of all steps. -/
def bindings (plan : Plan) : List Binding :=
  plan.steps.flatMap Step.bindings

/-- The steps of the modules that no loop owns. -/
def outer (plan : Plan) : List Plan.Step :=
  plan.steps.filter fun step => !step.embedded

end Plan

namespace Diagram

/-- The wires from outputs into modules that no loop owns. -/
def arrivals (diagram : Diagram) : List Wire :=
  diagram.wires.filter fun wire => wire.source.terminal.isOutput &&
    !(diagram.module? wire.target.module).any Module.isInner

/-- The wires that bind an input of a module: the first into its default input and those into its
named inputs. -/
def boundWires (diagram : Diagram) (id : ModuleId) : List Wire :=
  (diagram.wires.filter fun wire => wire.feeds id).take 1
    ++ diagram.wires.filter fun wire => wire.feedsByName id

/-- The wires into the default input of a module behind the first. -/
def surplusWires (diagram : Diagram) (id : ModuleId) : List Wire :=
  (diagram.wires.filter fun wire => wire.feeds id).drop 1

variable {diagram : Diagram}

/-- Every wire from an output to a module binds an input or comes too late for the default one. -/
theorem bound_append_surplus_perm (id : ModuleId) :
    (diagram.boundWires id ++ diagram.surplusWires id).Perm (diagram.wires.filter fun wire =>
      wire.source.terminal.isOutput && wire.target.module == id) := by
  have hmain : (diagram.wires.filter fun wire => wire.feeds id) =
      (diagram.wires.filter fun wire => wire.source.terminal.isOutput &&
        wire.target.module == id).filter fun wire => wire.target.terminal.isMain := by
    rw [List.filter_filter]
    refine List.filter_congr fun wire _ => ?_
    rw [Wire.feeds]
    grind
  have hnamed : (diagram.wires.filter fun wire => wire.feedsByName id) =
      (diagram.wires.filter fun wire => wire.source.terminal.isOutput &&
        wire.target.module == id).filter fun wire => !wire.target.terminal.isMain := by
    rw [List.filter_filter]
    refine List.filter_congr fun wire _ => ?_
    rw [Wire.feedsByName]
    grind
  refine .trans ?_ (List.filter_append_perm (fun wire => wire.target.terminal.isMain) _)
  rw [← hmain, ← hnamed, boundWires, surplusWires, List.append_assoc]
  refine (List.perm_append_comm.append_left _).trans ?_
  rw [← List.append_assoc, List.take_append_drop]

/-- A wire that binds an input of a module leads there. -/
theorem target_of_mem_boundWires {id : ModuleId} {wire : Wire} (h : wire ∈ diagram.boundWires id) :
    wire ∈ diagram.wires ∧ wire.target.module = id := by
  rcases List.mem_append.mp h with hmain | hnamed
  · obtain ⟨hmem, hfeeds⟩ := List.mem_filter.mp (List.mem_of_mem_take hmain)
    simp only [Wire.feeds, Bool.and_eq_true, beq_iff_eq] at hfeeds
    exact ⟨hmem, hfeeds.1.1⟩
  · obtain ⟨hmem, hfeeds⟩ := List.mem_filter.mp hnamed
    simp only [Wire.feedsByName, Bool.and_eq_true, beq_iff_eq] at hfeeds
    exact ⟨hmem, hfeeds.1.1⟩

/-- The names of the inputs that have been found are those of the wires, each once. -/
theorem addNamedFeeds_eq_ok {module : Module} {found inputs : List (String × ModuleId)}
    {wires : List Wire} (h : diagram.addNamedFeeds module found wires = .ok inputs) :
    inputs = found ++ wires.map (fun wire =>
        (normalize wire.target.terminal.name, wire.source.module)) ∧
      ((found.map Prod.fst).Nodup → (inputs.map Prod.fst).Nodup) := by
  induction wires generalizing found with
  | nil =>
      cases h
      simp
  | cons wire rest ih =>
      rw [addNamedFeeds] at h
      split at h
      · cases h
      next source hsource =>
        obtain rfl := wireSource_eq_ok hsource
        simp only at h
        split at h
        · cases h
        next hnew =>
          obtain ⟨hinputs, hnodup⟩ := ih h
          refine ⟨by rw [hinputs, List.map_cons, List.append_assoc, List.singleton_append],
            fun hfound => hnodup ?_⟩
          rw [List.map_append, List.map_singleton]
          refine List.nodup_append.mpr ⟨hfound, List.nodup_singleton _, ?_⟩
          rintro name hname other hother rfl
          obtain ⟨input, hinput, rfl⟩ := List.mem_map.mp hname
          -- Had the name been found before, the wire would have been refused.
          exact hnew (List.any_eq_true.mpr ⟨input, hinput,
            beq_iff_eq.mpr (List.mem_singleton.mp hother)⟩)

namespace Describes

variable {isLast : Bool} {module : Module} {step : Plan.Step}

/-- The default input of a module that no loop owns is bound by the first wire into it. -/
theorem mainBinding?_eq (h : diagram.Describes isLast module step)
    (hembedded : step.embedded = false) : step.mainBinding?.toList =
      ((diagram.wires.filter fun wire => wire.feeds step.id).take 1).map Wire.binding := by
  have hinput := h.input_eq
  rw [feedOf, if_neg (by simp [← h.embedded_eq, hembedded])] at hinput
  rw [h.id_eq, Plan.Step.mainBinding?, List.take_one, List.head?_filter]
  split at hinput
  next wire hwire =>
    cases hsource : diagram.wireSource wire with
    | error error =>
        rw [hsource] at hinput
        cases hinput
    | ok source =>
        rw [hsource] at hinput
        obtain rfl := wireSource_eq_ok hsource
        have hfeeds := List.find?_some (p := fun wire : Wire => wire.feeds module.id) hwire
        simp only [Wire.feeds, Bool.and_eq_true, beq_iff_eq] at hfeeds
        rw [← Except.ok.inj hinput, hwire, h.id_eq]
        simp [Wire.binding, hfeeds]
  next hnone =>
    rw [← Except.ok.inj hinput, hnone]
    rfl

/-- The bindings of a step are those of the wires that bind an input of its module. -/
theorem bindings_eq (h : diagram.Describes isLast module step) : step.bindings =
    if step.embedded then [] else (diagram.boundWires step.id).map Wire.binding := by
  have hinputs := h.inputs_eq
  rw [namedFeeds, ← h.embedded_eq] at hinputs
  cases hembedded : step.embedded with
  | true =>
      have hfeed := h.input_eq
      rw [feedOf, if_pos (h.embedded_eq ▸ hembedded)] at hfeed
      rw [if_pos hembedded] at hinputs
      rw [if_pos rfl, Plan.Step.bindings, Plan.Step.mainBinding?, ← Except.ok.inj hfeed,
        ← Except.ok.inj hinputs]
      rfl
  | false =>
      rw [if_neg (by simp [hembedded])] at hinputs
      rw [if_neg (by simp), Plan.Step.bindings, h.mainBinding?_eq hembedded, boundWires,
        List.map_append, (addNamedFeeds_eq_ok hinputs).1, List.nil_append, List.map_map, namedWires,
        h.id_eq]
      congr 1
      refine List.map_congr_left fun wire hwire => ?_
      have hfeeds := (List.mem_filter.mp hwire).2
      simp only [Wire.feedsByName, Bool.and_eq_true, beq_iff_eq, Bool.not_eq_true'] at hfeeds
      simp [Wire.binding, hfeeds]

/-- No two named inputs of a step have one name. -/
theorem inputs_nodup (h : diagram.Describes isLast module step) :
    (step.inputs.map Prod.fst).Nodup := by
  have hinputs := h.inputs_eq
  rw [namedFeeds] at hinputs
  split at hinputs
  · rw [← Except.ok.inj hinputs]
    exact List.nodup_nil
  · exact (addNamedFeeds_eq_ok hinputs).2 List.nodup_nil

/-- No two bindings of a step are for one input. -/
theorem slots_nodup (h : diagram.Describes isLast module step) :
    (step.bindings.map Binding.slot).Nodup := by
  have hnames := h.inputs_nodup
  have hnamed : ((step.inputs.map fun input => (⟨step.id, some input.1, input.2⟩ : Binding)).map
      Binding.slot) = (step.inputs.map Prod.fst).map fun name => (step.id, some name) := by
    rw [List.map_map, List.map_map]
    rfl
  rw [Plan.Step.bindings, List.map_append, hnamed]
  have hinjective : Function.Injective fun name : String => (step.id, some name) :=
    fun name other heq => Option.some.inj (Prod.mk.inj heq).2
  match hmain : step.mainBinding? with
  | none => exact hnames.map hinjective
  | some binding =>
      refine List.nodup_cons.mpr ⟨fun hmem => ?_, hnames.map hinjective⟩
      obtain ⟨name, -, hname⟩ := List.mem_map.mp hmem
      have hnone : some name = binding.input := (Prod.mk.inj hname).2
      rw [(Plan.Step.of_mainBinding? hmain).2] at hnone
      cases hnone

end Describes

/-- No two bindings of the steps are for one input. -/
theorem slots_nodup_of_stepsOf {last : Option ModuleId} {ids : List ModuleId}
    {steps : List Plan.Step} (h : diagram.stepsOf last ids = .ok steps) (hnodup : ids.Nodup) :
    ((steps.flatMap Plan.Step.bindings).map Binding.slot).Nodup := by
  obtain ⟨hids, hmem⟩ := stepsOf_eq_ok h
  rw [List.map_flatMap, List.nodup_flatMap]
  constructor
  · intro step hstep
    obtain ⟨module, -, hdescribes⟩ := hmem step hstep
    exact hdescribes.slots_nodup
  · rw [← hids] at hnodup
    refine (List.pairwise_map.mp hnodup).imp ?_
    rintro first second hne slot hfirst hsecond
    obtain ⟨binding, hbinding, rfl⟩ := List.mem_map.mp hfirst
    obtain ⟨other, hother, heq⟩ := List.mem_map.mp hsecond
    refine hne ?_
    rw [← Plan.Step.target_eq_of_mem hbinding, ← Plan.Step.target_eq_of_mem hother]
    exact (Prod.mk.inj heq).1.symm

/-- A step is embedded if its module is. -/
theorem inner_of_step (hcoherent : Coherent diagram.modules) {last : Option ModuleId}
    {ids : List ModuleId} {steps : List Plan.Step} (h : diagram.stepsOf last ids = .ok steps) :
    ∀ step ∈ steps, (diagram.module? step.id).any Module.isInner = step.embedded := by
  intro step hstep
  obtain ⟨module, hmodule, hdescribes⟩ := (stepsOf_eq_ok h).2 step hstep
  rw [hdescribes.id_eq, Roster.module?_of_mem hcoherent.nodup hmodule, hdescribes.embedded_eq]
  rfl

/-- The wires from outputs into modules that no loop owns are those that bind an input of such a
module and those that come too late. -/
theorem arrivals_perm (hcoherent : Coherent diagram.modules) {order : List ModuleId}
    (hexecution : diagram.IsExecutionOrder order) {last : Option ModuleId} {plan : Plan}
    (h : diagram.stepsOf last order = .ok plan.steps) :
    diagram.arrivals.Perm ((plan.outer.map Plan.Step.id).flatMap fun id =>
      diagram.boundWires id ++ diagram.surplusWires id) := by
  obtain ⟨hids, -⟩ := stepsOf_eq_ok h
  have hinner := inner_of_step hcoherent h
  have hnodup : (plan.outer.map Plan.Step.id).Nodup := by
    refine List.Nodup.sublist (List.filter_sublist.map _) ?_
    rw [hids]
    exact hexecution.nodup
  -- What a wire leads to is in the order because of the wire itself.
  have hkeys : ∀ wire ∈ diagram.arrivals, wire.target.module ∈ plan.outer.map Plan.Step.id := by
    intro wire hwire
    obtain ⟨hmem, harrives⟩ := List.mem_filter.mp hwire
    have horder : wire.target.module ∈ order :=
      (hexecution.mem_iff _).mpr ⟨wire.source.module, .inr (.inr ⟨wire, hmem, rfl, rfl⟩)⟩
    rw [← hids] at horder
    obtain ⟨step, hstep, hid⟩ := List.mem_map.mp horder
    rw [← hid, hinner step hstep, Bool.and_eq_true] at harrives
    exact List.mem_map.mpr ⟨step, List.mem_filter.mpr ⟨hstep, harrives.2⟩, hid⟩
  refine (perm_flatMap_filter (fun wire => wire.target.module) hnodup hkeys).trans ?_
  refine List.Perm.flatMap_left _ fun id hid => ?_
  obtain ⟨step, hstep, rfl⟩ := List.mem_map.mp hid
  obtain ⟨hmem, hembedded⟩ := List.mem_filter.mp hstep
  refine .trans (.of_eq ?_) (bound_append_surplus_perm step.id).symm
  rw [arrivals, List.filter_filter]
  refine List.filter_congr fun wire _ => ?_
  by_cases htarget : wire.target.module = step.id
  · rw [htarget, hinner step hmem, hembedded, beq_self_eq_true]
    rfl
  · have hne : (wire.target.module == step.id) = false := beq_eq_false_iff_ne.mpr htarget
    rw [hne, Bool.and_false, Bool.false_and]

end Diagram

namespace Plan

/-- If the bindings of each step are those of some wires and embedded steps have none, then the
bindings of a plan are those of these wires. -/
theorem bindings_eq_map {plan : Plan} {wiresOf : ModuleId → List Wire}
    (h : ∀ step ∈ plan.steps, step.bindings =
      if step.embedded then [] else (wiresOf step.id).map Wire.binding) :
    plan.bindings = ((plan.outer.map Step.id).flatMap wiresOf).map Wire.binding := by
  rw [bindings, outer]
  generalize plan.steps = steps at h
  induction steps with
  | nil => rfl
  | cons step rest ih =>
      rw [List.flatMap_cons, h step List.mem_cons_self,
        ih fun other hother => h other (List.mem_cons_of_mem _ hother)]
      cases hembedded : step.embedded with
      | true => simp [hembedded]
      | false => simp [hembedded]

end Plan

namespace Pipe

/-- The account of the wires. Whenever a description is compiled, no two bindings of its plan are
for one input, and the bindings of a step whose module no loop owns are those of the first wire into
its default input and of all wires into its named inputs. The wires from outputs into such modules
are these and the further wires into default inputs, so that wires and bindings correspond exactly
if no default input has a second wire. -/
theorem bindings_account {description : Value} {name : String} {pipe : Pipe}
    (hcompile : compile description name = .ok pipe) :
    (pipe.plan.bindings.map Binding.slot).Nodup ∧
    (∀ step ∈ pipe.plan.steps, step.bindings =
      if step.embedded then [] else (pipe.diagram.boundWires step.id).map Wire.binding) ∧
    pipe.diagram.arrivals.Perm ((pipe.plan.outer.map Plan.Step.id).flatMap fun id =>
      pipe.diagram.boundWires id ++ pipe.diagram.surplusWires id) ∧
    (pipe.plan.bindings.Perm (pipe.diagram.arrivals.map Wire.binding) ↔
      ∀ step ∈ pipe.plan.outer, (pipe.diagram.wires.countP fun wire => wire.feeds step.id) ≤ 1) := by
  obtain ⟨diagram, hparse, hcompile⟩ := bind_eq_ok_iff.mp hcompile
  have hcoherent := Diagram.coherent_of_parse hparse
  obtain ⟨hexecution, hsteps, rfl⟩ := Diagram.compile_eq_execution hcoherent hcompile
  have hbindings : ∀ step ∈ pipe.plan.steps, step.bindings =
      if step.embedded then [] else (pipe.diagram.boundWires step.id).map Wire.binding := by
    intro step hstep
    obtain ⟨module, -, hdescribes⟩ := (Diagram.stepsOf_eq_ok hsteps).2 step hstep
    exact hdescribes.bindings_eq
  have harrivals := Diagram.arrivals_perm hcoherent hexecution hsteps
  refine ⟨Diagram.slots_nodup_of_stepsOf hsteps hexecution.nodup, hbindings, harrivals, ?exact⟩
  case exact =>
    -- What all wires would bind is what the plan binds, and what the wires that come too late would.
    have hlost : (pipe.diagram.arrivals.map Wire.binding).Perm (pipe.plan.bindings ++
        ((pipe.plan.outer.map Plan.Step.id).flatMap pipe.diagram.surplusWires).map Wire.binding) := by
      rw [Plan.bindings_eq_map hbindings, ← List.map_append]
      exact (harrivals.trans (List.flatMap_append_perm _ _ _).symm).map _
    have hnone : (pipe.plan.outer.map Plan.Step.id).flatMap pipe.diagram.surplusWires = [] ↔
        ∀ step ∈ pipe.plan.outer,
          (pipe.diagram.wires.countP fun wire => wire.feeds step.id) ≤ 1 := by
      rw [List.flatMap_eq_nil_iff, List.forall_mem_map]
      refine forall₂_congr fun step _ => ?_
      rw [Diagram.surplusWires, List.drop_eq_nil_iff, List.countP_eq_length_filter]
    rw [← hnone]
    constructor
    · intro hperm
      have hlength := (hperm.trans hlost).length_eq
      rw [List.length_append, List.length_map] at hlength
      exact List.length_eq_zero_iff.mp (by omega)
    · intro hempty
      rw [hempty, List.map_nil, List.append_nil] at hlost
      exact hlost.symm

/-- The description of a wire from an output to a named input. -/
def namedWire (id source target input : String) : Value :=
  .object ⟨[
    ("id", .text id),
    ("src", .object ⟨[("id", .text "_OUTPUT"), ("moduleid", .text source)]⟩),
    ("tgt", .object ⟨[("id", .text input), ("moduleid", .text target)]⟩)]⟩

/-- Two modules that feed a third one over the given wires. -/
def meeting (wires : List Value) : Value :=
  .object ⟨[
    ("modules", .list [Diagram.plainModule "left" "output", Diagram.plainModule "right" "output",
      Diagram.plainModule "both" "output"]),
    ("wires", .list wires)]⟩

/-- One of the modules feeds a named input, so that both wires are kept. -/
def partners : Value :=
  meeting [Diagram.plainWire "first" "left" "both", namedWire "second" "right" "both" "other"]

/-- Both modules feed the default input. -/
def rivals : Value :=
  meeting [Diagram.plainWire "first" "left" "both", Diagram.plainWire "second" "right" "both"]

theorem bindings_account_of_partners : ∃ pipe, compile partners "pipe" = .ok pipe ∧
    (pipe.plan.bindings.map Binding.slot).Nodup ∧
    pipe.plan.bindings.Perm (pipe.diagram.arrivals.map Wire.binding) := by
  have hok : (compile partners "pipe").map (fun pipe => pipe.plan.outer.map fun step =>
      pipe.diagram.wires.countP fun wire => wire.feeds step.id) = .ok [0, 0, 1] := by cbv
  obtain ⟨pipe, hpipe, hcounts⟩ := map_eq_ok_iff.mp hok
  obtain ⟨hnodup, -, -, hexact⟩ := bindings_account hpipe
  refine ⟨pipe, hpipe, hnodup, hexact.mpr fun step hstep => ?_⟩
  have hmem := hcounts ▸ List.mem_map_of_mem hstep
  simp only [List.mem_cons, List.not_mem_nil, or_false] at hmem
  omega

/-- Of two wires into one default input the second is lost: compiling accepts them and binds nothing
to the second one's source. -/
theorem rival_lost : ∃ pipe, compile rivals "pipe" = .ok pipe ∧
    pipe.plan.bindings = [⟨⟨"both"⟩, none, ⟨"left"⟩⟩] ∧
    pipe.diagram.arrivals.map Wire.binding =
      [⟨⟨"both"⟩, none, ⟨"left"⟩⟩, ⟨⟨"both"⟩, none, ⟨"right"⟩⟩] ∧
    ¬ pipe.plan.bindings.Perm (pipe.diagram.arrivals.map Wire.binding) := by
  have hok : (compile rivals "pipe").map (fun pipe =>
      (pipe.plan.bindings, pipe.diagram.arrivals.map Wire.binding)) =
        .ok ([⟨⟨"both"⟩, none, ⟨"left"⟩⟩],
          [⟨⟨"both"⟩, none, ⟨"left"⟩⟩, ⟨⟨"both"⟩, none, ⟨"right"⟩⟩]) := by cbv
  obtain ⟨pipe, hpipe, hfound⟩ := map_eq_ok_iff.mp hok
  obtain ⟨hbindings, harrivals⟩ := Prod.mk.inj hfound
  refine ⟨pipe, hpipe, hbindings, harrivals, fun hperm => ?_⟩
  rw [hbindings, harrivals] at hperm
  exact absurd hperm.length_eq (by decide)

end Pipe

end Pipework
