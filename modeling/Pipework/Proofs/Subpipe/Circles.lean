import Pipework.Proofs.Subpipe.Deepening

/-! # Pipes that run one another in a circle

Nothing keeps a pipe from running itself as a module, directly or through others. A pipe from which
one does not come to such a circle is built one way or another, and a pipe from which one does is
never built without an error.
-/

namespace Pipework

/-- A new key makes one more entry. -/
theorem Dict.insertEntry_perm {α : Type} {key : String} {value : α} {entries : List (String × α)}
    (h : findEntry key entries = none) :
    (insertEntry key value entries).Perm ((key, value) :: entries) := by
  induction entries with
  | nil => exact .refl _
  | cons entry rest ih =>
      obtain ⟨head, held⟩ := entry
      rw [findEntry] at h
      split at h
      · cases h
      next hne =>
        rw [insertEntry, if_neg hne]
        split
        · exact .refl _
        · exact ((ih h).cons _).trans (.swap _ _ _)

namespace Registry

/-- The registered pipes. -/
def pipes (registry : Registry Factory) : List Pipe :=
  registry.factories.entries.filterMap fun entry =>
    match entry.2 with
    | .pipe inner => some inner
    | _ => none

/-- Running one pipe, a module of it runs the other. A loop runs what it embeds only later. -/
def Uses (registry : Registry Factory) (pipe inner : Pipe) : Prop :=
  ∃ step ∈ pipe.plan.steps, step.embedded = false ∧ registry.get step.type = .ok (.pipe inner)

/-- From a pipe one comes to pipes that run one another in a circle. -/
def Circular (registry : Registry Factory) (pipe : Pipe) : Prop :=
  ∃ inner, Relation.ReflTransGen registry.Uses pipe inner ∧
    Relation.TransGen registry.Uses inner inner

variable {registry next : Registry Factory} {name : String} {pipe inner : Pipe}

theorem pipes_standard : standard.pipes = [] := by rfl

/-- A pipe that is registered is one more among the registered pipes. -/
theorem pipes_addPipe (h : registry.addPipe name inner = .ok next) :
    next.pipes.Perm (inner :: registry.pipes) := by
  unfold addPipe register at h
  split at h
  · cases h
  next hnew =>
    cases h
    have hnone : registry.factories.get? (TypeName.ofPipe name) = none := by
      simpa [contains, Dict.contains] using hnew
    exact (Dict.insertEntry_perm hnone).filterMap _

theorem get_addPipe (h : registry.addPipe name inner = .ok next) (type : String) :
    next.get type =
      if type = TypeName.ofPipe name then .ok (.pipe inner) else registry.get type := by
  unfold addPipe register at h
  split at h
  · cases h
  · cases h
    rw [get, get, Dict.get?_insert]
    by_cases heq : type = TypeName.ofPipe name
    · rw [if_pos heq, if_pos heq]
    · rw [if_neg heq, if_neg heq]

theorem mem_pipes_of_get {type : String} (h : registry.get type = .ok (.pipe inner)) :
    inner ∈ registry.pipes := by
  unfold get at h
  split at h
  next factory hfactory =>
    cases h
    exact List.mem_filterMap.mpr ⟨(type, .pipe inner), Dict.mem_entries_of_get? hfactory, rfl⟩
  · cases h

theorem mem_pipes_of_transGen (h : Relation.TransGen registry.Uses pipe inner) :
    inner ∈ registry.pipes := by
  obtain ⟨middle, -, step, -, -, hget⟩ := Relation.TransGen.tail'_iff.mp h
  exact mem_pipes_of_get hget

theorem Circular.of_reaches (hreaches : Relation.ReflTransGen registry.Uses pipe inner)
    (h : registry.Circular inner) : registry.Circular pipe := by
  obtain ⟨turn, hrest, hcircle⟩ := h
  exact ⟨turn, hreaches.trans hrest, hcircle⟩

/-- One of the pipes that a pipe runs is one from which one comes to a circle as well. -/
theorem Circular.exists_uses (h : registry.Circular pipe) :
    ∃ inner, registry.Uses pipe inner ∧ registry.Circular inner := by
  obtain ⟨turn, hreaches, hcircle⟩ := h
  rcases Relation.ReflTransGen.cases_head hreaches with rfl | ⟨inner, huses, hrest⟩
  · obtain ⟨inner, huses, hrest⟩ := Relation.TransGen.head'_iff.mp hcircle
    exact ⟨inner, huses, pipe, hrest, hcircle⟩
  · exact ⟨inner, huses, turn, hrest, hcircle⟩

open scoped Classical in
/-- The registered pipes from which one comes to no circle. -/
noncomputable def straight (registry : Registry Factory) : Finset Pipe :=
  registry.pipes.toFinset.filter fun inner => ¬ registry.Circular inner

open scoped Classical in
/-- The registered pipes from which one comes to a circle. -/
noncomputable def turning (registry : Registry Factory) : Finset Pipe :=
  registry.pipes.toFinset.filter fun inner => registry.Circular inner

theorem mem_straight :
    inner ∈ registry.straight ↔ inner ∈ registry.pipes ∧ ¬ registry.Circular inner := by
  simp only [straight, Finset.mem_filter, List.mem_toFinset]

theorem mem_turning :
    inner ∈ registry.turning ↔ inner ∈ registry.pipes ∧ registry.Circular inner := by
  simp only [turning, Finset.mem_filter, List.mem_toFinset]

theorem card_turning_add_straight (registry : Registry Factory) :
    registry.turning.card + registry.straight.card ≤ registry.pipes.length := by
  classical
  rw [turning, straight, Finset.card_filter_add_card_filter_not]
  exact registry.pipes.toFinset_card_le

/-- A step of a pipe is the first to run a pipe from which one comes to a circle. -/
structure Turns (registry : Registry Factory) (pipe : Pipe) (step : Plan.Step) (inner : Pipe) :
    Prop where
  first : ∃ before behind, pipe.plan.steps = before ++ step :: behind ∧
    ∀ earlier ∈ before, earlier.embedded = false → ∀ other,
      registry.get earlier.type = .ok (.pipe other) → ¬ registry.Circular other
  embedded : step.embedded = false
  registered : registry.get step.type = .ok (.pipe inner)
  circular : registry.Circular inner

theorem Circular.exists_turns (h : registry.Circular pipe) :
    ∃ step inner, registry.Turns pipe step inner := by
  classical
  let turns (step : Plan.Step) : Prop := step.embedded = false ∧ ∃ other,
    registry.get step.type = .ok (.pipe other) ∧ registry.Circular other
  obtain ⟨inner, ⟨step, hstep, hembedded, hget⟩, hinner⟩ := h.exists_uses
  obtain ⟨first, hfirst⟩ := Option.isSome_iff_exists.mp
    (List.find?_isSome (p := fun step => decide (turns step)).mpr
      ⟨step, hstep, decide_eq_true (⟨hembedded, inner, hget, hinner⟩ : turns step)⟩)
  obtain ⟨hturns, before, behind, hsplit, hbefore⟩ := List.find?_eq_some_iff_append.mp hfirst
  obtain ⟨hembedded, inner, hget, hinner⟩ := of_decide_eq_true hturns
  refine ⟨first, inner, ⟨before, behind, hsplit, ?_⟩, hembedded, hget, hinner⟩
  intro earlier hearlier hearlierEmbedded other hother hcircular
  have hnot := hbefore earlier hearlier
  simp only [Bool.not_eq_true', decide_eq_false_iff_not] at hnot
  exact hnot ⟨hearlierEmbedded, other, hother, hcircular⟩

end Registry

section Settling

variable {setting : Setting} {mode : Mode} {inner : Pipe}

/-- A pipe from which one comes to no circle is built one way or another, if pipes may be nested as
deep as there are pipes that one comes to. Each of them is left behind where it is run. -/
theorem Factory.settles_within (pool : Finset Pipe) {depth : Nat}
    (hcircular : ¬ setting.registry.Circular inner)
    (hpool : ∀ other, Relation.ReflTransGen setting.registry.Uses inner other → other ∈ pool)
    (hdepth : pool.card ≤ depth) (args : Arguments Factory) :
    ((Factory.pipe inner).build setting mode depth args).Settles := by
  classical
  induction depth generalizing inner pool args with
  | zero =>
      rw [Finset.card_eq_zero.mp (Nat.le_zero.mp hdepth)] at hpool
      exact absurd (hpool inner .refl) (Finset.notMem_empty inner)
  | succ depth ih =>
      rw [build_pipe]
      refine Run.Settles.bind ?_ fun _ => .pure _
      refine Run.Settles.congruence.output depth depth _ ?_ rfl
      intro step hstep hembedded factory hget args
      refine build_settles setting mode ?_
      rintro next rfl
      have huses : setting.registry.Uses inner next := ⟨step, hstep, hembedded, hget⟩
      have hnext : ¬ setting.registry.Circular next :=
        fun h => hcircular (h.of_reaches (.single huses))
      refine ih (pool.erase inner) hnext ?_ ?_ args
      · intro other hreaches
        refine Finset.mem_erase.mpr ⟨?_, hpool other (.head huses hreaches)⟩
        rintro rfl
        exact hcircular ⟨other, .refl, .head' huses hreaches⟩
      · rw [Finset.card_erase_of_mem (hpool inner .refl)]
        omega

/-- If a step is added, its factory has built its module. -/
theorem Setting.exists_built_of_addStep {depth : Nat} {context : RunContext} {step : Plan.Step}
    {assembly next : Assembly Factory} {world later : World}
    (h : ((setting.workshopAt mode depth context).addStep assembly step).run.run world =
      some (.ok next, later)) (hembedded : step.embedded = false) {factory : Factory}
    (hget : setting.registry.get step.type = .ok factory) : ∃ args here built after,
      (factory.build setting mode depth args).run here = some (.ok built, after) := by
  rw [run_addStep hget hembedded] at h
  split at h
  · cases h
  next args rest _ =>
    obtain ⟨⟨outcome, after⟩, hbuild, hreached⟩ := Option.map_eq_some_iff.mp h
    cases outcome with
    | error error => cases hreached
    | ok built => exact ⟨args, _, built, after, hbuild⟩

theorem Setting.exists_built_of_addSteps {depth : Nat} {context : RunContext}
    {steps : List Plan.Step} {assembly next : Assembly Factory} {world later : World}
    (h : ((setting.workshopAt mode depth context).addSteps assembly steps).run.run world =
      some (.ok next, later)) {step : Plan.Step} (hstep : step ∈ steps)
    (hembedded : step.embedded = false) {factory : Factory}
    (hget : setting.registry.get step.type = .ok factory) : ∃ args here built after,
      (factory.build setting mode depth args).run here = some (.ok built, after) := by
  induction steps generalizing assembly world with
  | nil => cases hstep
  | cons head rest ih =>
      rcases run_run_bind_eq_some_iff.mp h with ⟨_, -, hok⟩ | ⟨reached, middle, hhead, hrest⟩
      · cases hok
      rcases List.mem_cons.mp hstep with rfl | hstep
      · exact exists_built_of_addStep hhead hembedded hget
      · exact ih hrest hstep

/-- A pipe whose output is taken has all its steps added. -/
theorem Setting.addSteps_of_output {depth : Nat} {context : RunContext} {stage : Stage}
    {world later : World}
    (h : ((setting.workshopAt mode depth context).output inner).run.run world =
      some (.ok stage, later)) : ∃ start next after,
      ((setting.workshopAt mode depth context).addSteps start inner.plan.steps).run.run world =
        some (.ok next, after) := by
  unfold Workshop.output Workshop.assemble at h
  rcases run_run_bind_eq_some_iff.mp h with ⟨_, -, hok⟩ | ⟨assembly, middle, hassemble, -⟩
  · cases hok
  split at hassemble
  · cases hassemble
  next last _ =>
    rcases run_run_bind_eq_some_iff.mp hassemble with ⟨_, -, hok⟩ | ⟨next, after, hsteps, -⟩
    · cases hok
    · exact ⟨.start last.id, next, after, hsteps⟩

/-- Where a pipe is built and no error comes of it one comes from it to no circle. -/
theorem Factory.not_circular_of_built {depth : Nat} {args : Arguments Factory} {world later : World}
    {built : Built}
    (h : ((Factory.pipe inner).build setting mode depth args).run world = some (.ok built, later)) :
    ¬ setting.registry.Circular inner := by
  induction depth generalizing inner args world built later with
  | zero => cases h
  | succ depth ih =>
      intro hcircular
      obtain ⟨next, ⟨step, hstep, hembedded, hget⟩, hnext⟩ := hcircular.exists_uses
      rw [build_pipe] at h
      obtain ⟨outcome, middle, houtput, hpure⟩ := run_bind_eq_some_iff.mp h
      cases outcome with
      | error error => cases hpure
      | ok stage =>
          obtain ⟨start, added, after, hsteps⟩ := Setting.addSteps_of_output houtput
          obtain ⟨args, here, built, later, hbuilt⟩ :=
            Setting.exists_built_of_addSteps hsteps hstep hembedded hget
          exact ih hbuilt hnext

theorem Factory.settles_of_not_circular {depth : Nat} (hinner : inner ∈ setting.registry.pipes)
    (hcircular : ¬ setting.registry.Circular inner)
    (hdepth : setting.registry.straight.card ≤ depth) (args : Arguments Factory) :
    ((Factory.pipe inner).build setting mode depth args).Settles := by
  refine settles_within setting.registry.straight hcircular (fun other hreaches => ?_) hdepth args
  refine Registry.mem_straight.mpr ⟨?_, fun h => hcircular (h.of_reaches hreaches)⟩
  rcases Relation.reflTransGen_iff_eq_or_transGen.mp hreaches with rfl | hreaches
  · exact hinner
  · exact setting.registry.mem_pipes_of_transGen hreaches

end Settling

end Pipework
