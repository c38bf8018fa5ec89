import Mathlib
import Pipework.Proofs.Diagram.Grammar
import Pipework.Proofs.Order.Widening
import Pipework.Proofs.Plan.Demand

/-! # Orphans

A module that is no loop and that no wire names can stand anywhere in a description. The modules
behind it move by one place, and nothing else changes: the order, the steps and the dependencies of
the connected modules stay as they are.
-/

namespace Pipework

namespace Diagram

/-- The edge of a module to the loop that owns it. -/
def OwnEdges (diagram : Diagram) (start : Nat) (module : Module) (own : List (Nat × Nat)) : Prop :=
  match module.parent with
  | none => own = []
  | some parent => ∃ owner, diagram.position? parent = some owner ∧ own = [(start, owner)]

theorem embedEdges_cons {diagram : Diagram} {start : Nat} {module : Module} {rest : List Module}
    {edges : List (Nat × Nat)} : diagram.embedEdges start (module :: rest) = .ok edges ↔
      ∃ own others, diagram.OwnEdges start module own ∧
        diagram.embedEdges (start + 1) rest = .ok others ∧ edges = own ++ others := by
  rw [embedEdges, bind_eq_ok_iff]
  unfold OwnEdges
  cases module.parent with
  | none =>
      constructor
      · rintro ⟨_, hothers, hedges⟩
        cases hedges
        exact ⟨[], edges, rfl, hothers, rfl⟩
      · rintro ⟨_, others, rfl, hothers, rfl⟩
        exact ⟨_, hothers, rfl⟩
  | some parent =>
      dsimp only
      cases diagram.position? parent with
      | none =>
          constructor
          · rintro ⟨_, _, hedges⟩
            cases hedges
          · rintro ⟨_, _, ⟨_, howner, _⟩, _⟩
            cases howner
      | some owner =>
          constructor
          · rintro ⟨others, hothers, hedges⟩
            cases hedges
            exact ⟨[(start, owner)], others, ⟨owner, rfl, rfl⟩, hothers, rfl⟩
          · rintro ⟨_, others, ⟨_, howner, rfl⟩, hothers, rfl⟩
            cases howner
            exact ⟨others, hothers, rfl⟩

theorem embedEdges_append {diagram : Diagram} {start : Nat} {first second : List Module}
    {edges : List (Nat × Nat)} : diagram.embedEdges start (first ++ second) = .ok edges ↔
      ∃ owned others, diagram.embedEdges start first = .ok owned ∧
        diagram.embedEdges (start + first.length) second = .ok others ∧
        edges = owned ++ others := by
  induction first generalizing start edges with
  | nil =>
      constructor
      · exact fun h => ⟨[], edges, rfl, h, rfl⟩
      · rintro ⟨_, others, ⟨⟩, h, rfl⟩
        exact h
  | cons module rest ih =>
      have hlength : start + (module :: rest).length = start + 1 + rest.length := by
        rw [List.length_cons]
        omega
      simp only [List.cons_append, embedEdges_cons, ih, hlength]
      constructor
      · rintro ⟨own, _, hown, ⟨owned, others, howned, hothers, rfl⟩, rfl⟩
        exact ⟨own ++ owned, others, ⟨own, owned, hown, howned, rfl⟩, hothers,
          (List.append_assoc _ _ _).symm⟩
      · rintro ⟨_, others, ⟨own, owned, hown, howned, rfl⟩, hothers, rfl⟩
        exact ⟨own, owned ++ others, hown, ⟨owned, others, howned, hothers, rfl⟩,
          List.append_assoc _ _ _⟩

/-- A diagram with an orphan more, put behind some of its modules. -/
structure Adopts (diagram grown : Diagram) (front back : List Module) (orphan : Module) : Prop where
  before : diagram.modules = front ++ back
  after : grown.modules = front ++ orphan :: back
  wires : grown.wires = diagram.wires
  outer : orphan.parent = none
  coherent : Coherent diagram.modules
  new : orphan.id ∉ diagram.modules.map Module.id
  unwired : ∀ wire ∈ diagram.wires,
    wire.source.module ≠ orphan.id ∧ wire.target.module ≠ orphan.id

namespace Adopts

variable {diagram grown : Diagram} {front back : List Module} {orphan : Module}

theorem ne_of_mem (h : Adopts diagram grown front back orphan) {id : ModuleId}
    (hid : id ∈ diagram.modules.map Module.id) : id ≠ orphan.id :=
  ne_of_mem_of_not_mem hid h.new

theorem nodup_grown (h : Adopts diagram grown front back orphan) :
    (grown.modules.map Module.id).Nodup := by
  rw [h.after, (List.perm_middle.map _).nodup_iff, List.map_cons, ← h.before]
  exact List.nodup_cons.mpr ⟨h.new, h.coherent.nodup⟩

theorem ne_of_contains (h : Adopts diagram grown front back orphan) {id : ModuleId}
    (hid : diagram.contains id = true) : id ≠ orphan.id := by
  obtain ⟨module, hmem, rfl⟩ := Roster.contains_iff.mp hid
  exact h.ne_of_mem (List.mem_map_of_mem hmem)

theorem module?_of_ne (h : Adopts diagram grown front back orphan) {id : ModuleId}
    (hid : id ≠ orphan.id) : grown.module? id = diagram.module? id := by
  have hother : (orphan.id == id) = false := by simpa using hid.symm
  rw [Roster.module?_eq_find? h.nodup_grown, Roster.module?_eq_find? h.coherent.nodup, h.before,
    h.after, List.find?_append, List.find?_append, List.find?_cons_of_neg (by simp [hother])]

theorem contains_of_ne (h : Adopts diagram grown front back orphan) {id : ModuleId}
    (hid : id ≠ orphan.id) : grown.contains id = diagram.contains id := by
  rw [Bool.eq_iff_iff, Roster.contains_iff, Roster.contains_iff, h.before, h.after]
  simp [or_and_right, exists_or, hid.symm]

theorem module?_orphan (h : Adopts diagram grown front back orphan) :
    grown.module? orphan.id = some orphan := by
  apply Roster.module?_of_mem h.nodup_grown
  rw [h.after]
  exact List.mem_append_right _ List.mem_cons_self

/-- The modules behind the orphan have moved. -/
theorem position?_of_ne (h : Adopts diagram grown front back orphan) {id : ModuleId}
    (hid : id ≠ orphan.id) :
    grown.position? id = (diagram.position? id).map (makeRoom front.length) := by
  have hother : (orphan.id == id) = false := by simpa using hid.symm
  rw [Roster.position?_eq_findIdx? h.nodup_grown, Roster.position?_eq_findIdx? h.coherent.nodup,
    h.before, h.after, List.findIdx?_append, List.findIdx?_append, List.findIdx?_cons, hother]
  cases hfront : front.findIdx? fun module => module.id == id with
  | some place =>
      obtain ⟨hlt, -⟩ := List.findIdx?_eq_some_iff_getElem.mp hfront
      simp [makeRoom_of_lt hlt]
  | none =>
      cases back.findIdx? fun module => module.id == id with
      | none => rfl
      | some place => simp [makeRoom_of_le, Nat.add_right_comm]

theorem idAt_makeRoom (h : Adopts diagram grown front back orphan) (place : Nat) :
    grown.idAt (makeRoom front.length place) = diagram.idAt place := by
  rw [idAt, idAt, h.before, h.after]
  by_cases hlt : place < front.length
  · rw [makeRoom_of_lt hlt, List.getElem?_append_left hlt, List.getElem?_append_left hlt]
  · have hle : front.length ≤ place := Nat.le_of_not_lt hlt
    rw [makeRoom_of_le hle, List.getElem?_append_right hle,
      List.getElem?_append_right (hle.trans (Nat.le_succ place)), Nat.succ_sub hle,
      List.getElem?_cons_succ]

/-- An edge moves with its positions. -/
def moved (front : List Module) (edge : Nat × Nat) : Nat × Nat :=
  (makeRoom front.length edge.1, makeRoom front.length edge.2)

theorem ownEdges (h : Adopts diagram grown front back orphan) {start : Nat} {module : Module}
    {own : List (Nat × Nat)} (hown : diagram.OwnEdges start module own) :
    grown.OwnEdges (makeRoom front.length start) module (own.map (moved front)) := by
  unfold OwnEdges at *
  cases hparent : module.parent with
  | none =>
      rw [hparent] at hown
      exact congrArg _ hown
  | some parent =>
      rw [hparent] at hown
      obtain ⟨owner, howner, rfl⟩ := hown
      obtain ⟨held, hheld, hid⟩ := diagram.leads _ _ howner
      have hmem : parent ∈ diagram.modules.map Module.id :=
        hid ▸ List.mem_map_of_mem (List.mem_of_getElem? hheld)
      exact ⟨makeRoom front.length owner, by rw [h.position?_of_ne (h.ne_of_mem hmem), howner]; rfl,
        rfl⟩

/-- The edges of neighbouring modules move with the modules. -/
theorem embedEdges (h : Adopts diagram grown front back orphan) {start later : Nat}
    {list : List Module} {edges : List (Nat × Nat)}
    (hplaces : ∀ place < list.length, makeRoom front.length (start + place) = later + place)
    (hedges : diagram.embedEdges start list = .ok edges) :
    grown.embedEdges later list = .ok (edges.map (moved front)) := by
  induction list generalizing start later edges with
  | nil =>
      cases hedges
      rfl
  | cons module rest ih =>
      obtain ⟨own, others, hown, hothers, rfl⟩ := embedEdges_cons.mp hedges
      have hhere : makeRoom front.length start = later := hplaces 0 (Nat.succ_pos _)
      have hnext : ∀ place < rest.length,
          makeRoom front.length (start + 1 + place) = later + 1 + place := by
        intro place hplace
        have hmoved := hplaces (place + 1) (Nat.succ_lt_succ hplace)
        rwa [Nat.add_assoc, Nat.add_assoc, Nat.add_comm 1 place]
      refine embedEdges_cons.mpr ⟨own.map (moved front), others.map (moved front), ?_,
        ih hnext hothers, List.map_append⟩
      exact hhere ▸ h.ownEdges hown

theorem endPosition (h : Adopts diagram grown front back orphan) {wire : Wire} {wireEnd : WireEnd}
    {place : Nat} (hplace : diagram.endPosition wire wireEnd = .ok place) :
    grown.endPosition wire wireEnd = .ok (makeRoom front.length place) := by
  have hid := h.ne_of_contains (contains_of_endPosition hplace)
  unfold Diagram.endPosition at *
  rw [h.position?_of_ne hid]
  cases hposition : diagram.position? wireEnd.module with
  | none =>
      rw [hposition] at hplace
      cases hplace
  | some found =>
      rw [hposition] at hplace
      cases hplace
      rfl

theorem wireEdges (h : Adopts diagram grown front back orphan) {list : List Wire}
    {edges : List (Nat × Nat)} (hedges : diagram.wireEdges list = .ok edges) :
    grown.wireEdges list = .ok (edges.map (moved front)) := by
  induction list generalizing edges with
  | nil =>
      cases hedges
      rfl
  | cons wire rest ih =>
      obtain ⟨source, hsource, hedges⟩ := bind_eq_ok_iff.mp hedges
      obtain ⟨target, htarget, hedges⟩ := bind_eq_ok_iff.mp hedges
      obtain ⟨others, hothers, hedges⟩ := bind_eq_ok_iff.mp hedges
      cases hedges
      rw [Diagram.wireEdges, h.endPosition hsource, h.endPosition htarget, ih hothers]
      rfl

/-- The dependencies are the same, with room for the orphan. -/
theorem dependencies (h : Adopts diagram grown front back orphan) {dependencies : Dependencies}
    (hdependencies : diagram.dependencies = .ok dependencies) :
    grown.dependencies = .ok (dependencies.widened front.length) := by
  obtain ⟨owned, howned, hdependencies⟩ := bind_eq_ok_iff.mp hdependencies
  obtain ⟨wired, hwired, hdependencies⟩ := bind_eq_ok_iff.mp hdependencies
  cases hdependencies
  rw [h.before] at howned
  obtain ⟨first, second, hfirst, hsecond, rfl⟩ := embedEdges_append.mp howned
  have hfront : grown.embedEdges 0 front = .ok (first.map (moved front)) :=
    h.embedEdges (fun place hplace => by rw [Nat.zero_add, makeRoom_of_lt hplace]) hfirst
  have hback : grown.embedEdges (front.length + 1) back = .ok (second.map (moved front)) := by
    refine h.embedEdges (fun place _ => ?_) hsecond
    rw [makeRoom_of_le (by omega)]
    omega
  have horphan : grown.embedEdges front.length (orphan :: back) =
      .ok (second.map (moved front)) :=
    embedEdges_cons.mpr ⟨[], _, by simp only [OwnEdges, h.outer], hback, rfl⟩
  have hall : grown.embedEdges 0 grown.modules =
      .ok (first.map (moved front) ++ second.map (moved front)) := by
    rw [h.after]
    exact embedEdges_append.mpr ⟨_, _, hfront, (Nat.zero_add _).symm ▸ horphan, rfl⟩
  have hsize : grown.modules.length = diagram.modules.length + 1 := by
    rw [h.before, h.after, List.length_append, List.length_append, List.length_cons]
    omega
  rw [Diagram.dependencies, hall, h.wires, h.wireEdges hwired, hsize]
  simp only [Dependencies.widened, List.map_append]
  rfl

/-- Each connected module has the same modules that need it. -/
theorem dependents (h : Adopts diagram grown front back orphan) {dependencies : Dependencies}
    (hbounded : dependencies.Bounded) :
    grown.dependents (dependencies.widened front.length) = diagram.dependents dependencies := by
  rw [Diagram.dependents, Diagram.dependents, Dependencies.active_widened hbounded, List.map_map]
  refine List.map_congr_left fun position _ => ?_
  rw [Function.comp_apply, h.idAt_makeRoom, Dependencies.targets_widened, List.map_map]
  refine congrArg _ (List.map_congr_left fun target _ => ?_)
  exact h.idAt_makeRoom target

theorem sortModules (h : Adopts diagram grown front back orphan) {dependencies : Dependencies}
    (hbounded : dependencies.Bounded) {order : List ModuleId}
    (horder : diagram.sortModules dependencies = .ok order) :
    grown.sortModules (dependencies.widened front.length) = .ok order := by
  obtain ⟨places, hplaces, rfl⟩ := sortModules_eq_ok_iff.mp horder
  refine sortModules_eq_ok_iff.mpr ⟨_, Dependencies.sort?_widened hbounded hplaces, ?_⟩
  rw [List.map_map]
  exact List.map_congr_left fun place _ => (h.idAt_makeRoom place).symm

theorem wireSource (h : Adopts diagram grown front back orphan) {wire : Wire}
    (hwire : wire ∈ diagram.wires) : grown.wireSource wire = diagram.wireSource wire := by
  rw [Diagram.wireSource, Diagram.wireSource, h.contains_of_ne (h.unwired wire hwire).1]

theorem feedOf (h : Adopts diagram grown front back orphan) (module : Module) :
    grown.feedOf module = diagram.feedOf module := by
  unfold Diagram.feedOf
  rw [h.wires]
  split
  · rfl
  · split
    next wire hwire => rw [h.wireSource (List.mem_of_find?_eq_some hwire)]
    · rfl

theorem addNamedFeeds (h : Adopts diagram grown front back orphan) (module : Module)
    (found : List (String × ModuleId)) {wires : List Wire} (hwires : wires ⊆ diagram.wires) :
    grown.addNamedFeeds module found wires = diagram.addNamedFeeds module found wires := by
  induction wires generalizing found with
  | nil => rfl
  | cons wire rest ih =>
      obtain ⟨hwire, hrest⟩ := List.cons_subset.mp hwires
      rw [Diagram.addNamedFeeds, Diagram.addNamedFeeds, h.wireSource hwire]
      split
      · rfl
      · dsimp only
        split
        · rfl
        · exact ih _ hrest

theorem namedFeeds (h : Adopts diagram grown front back orphan) (module : Module) :
    grown.namedFeeds module = diagram.namedFeeds module := by
  unfold Diagram.namedFeeds
  split
  · rfl
  · rw [namedWires, namedWires, h.wires]
    exact h.addNamedFeeds module [] List.filter_sublist.subset

/-- What a loop embeds is no orphan. -/
theorem embed (h : Adopts diagram grown front back orphan) {module : Module}
    (hmodule : module ∈ diagram.modules) : grown.embed module = diagram.embed module := by
  unfold Diagram.embed
  split
  next htype =>
    obtain ⟨inner, hinner, hbody, -⟩ := h.coherent.body module hmodule htype
    have hne := h.ne_of_mem (List.mem_map_of_mem hinner)
    rw [hbody, Option.filter_some, Option.filter_some, h.contains_of_ne hne]
  · rfl

theorem stepOf (h : Adopts diagram grown front back orphan) {module : Module}
    (hmodule : module ∈ diagram.modules) (isLast : Bool) :
    grown.stepOf module isLast = diagram.stepOf module isLast := by
  rw [Diagram.stepOf, Diagram.stepOf, h.feedOf, h.namedFeeds, h.embed hmodule, branches, branches,
    consumers, consumers, h.wires]

/-- The steps of modules other than the orphan stay as they are. -/
theorem stepsOf (h : Adopts diagram grown front back orphan) (last : Option ModuleId)
    {ids : List ModuleId} (hids : ids ⊆ diagram.modules.map Module.id) :
    grown.stepsOf last ids = diagram.stepsOf last ids := by
  induction ids with
  | nil => rfl
  | cons id rest ih =>
      obtain ⟨hid, hrest⟩ := List.cons_subset.mp hids
      rw [Diagram.stepsOf, Diagram.stepsOf, h.module?_of_ne (h.ne_of_mem hid), ih hrest]
      split
      · rfl
      next module hmodule => rw [h.stepOf (Roster.mem_of_module? hmodule).1]

/-- What is compiled with the orphan differs in nothing but the orphan and the counts. -/
theorem compile (h : Adopts diagram grown front back orphan) {pipe : Pipe}
    (hpipe : diagram.compile = .ok pipe) : ∃ wider, grown.compile = .ok wider ∧
      wider.diagram = grown ∧ wider.order = pipe.order ∧ wider.dependents = pipe.dependents ∧
      wider.plan.steps = pipe.plan.steps ∧
      wider.plan.counts = {
        total := pipe.plan.counts.total + 1
        active := pipe.plan.counts.active
        pruned := pipe.plan.counts.pruned + 1
        embedded := pipe.plan.counts.embedded } := by
  obtain ⟨dependencies, hdependencies, hcompiled⟩ := bind_eq_ok_iff.mp hpipe
  obtain ⟨order, horder, hcompiled⟩ := bind_eq_ok_iff.mp hcompiled
  obtain ⟨steps, hsteps, hcompiled⟩ := bind_eq_ok_iff.mp hcompiled
  cases hcompiled
  have hbound := wiresBound_of_dependencies hdependencies
  obtain ⟨_, hfound, hcharts⟩ := exists_dependencies h.coherent hbound
  cases hdependencies.symm.trans hfound
  have hbounded := hcharts.bounded
  obtain ⟨hids, hmodules⟩ := stepsOf_eq_ok hsteps
  have hsubset : order ⊆ diagram.modules.map Module.id := by
    intro id hid
    rw [← hids] at hid
    obtain ⟨step, hstep, rfl⟩ := List.mem_map.mp hid
    obtain ⟨module, hmodule, hdescribes⟩ := hmodules step hstep
    exact hdescribes.id_eq ▸ List.mem_map_of_mem hmodule
  have hgrownSteps : grown.planSteps order = .ok steps := by
    rw [planSteps, h.stepsOf _ hsubset]
    exact hsteps
  refine ⟨{
      diagram := grown
      order
      dependents := diagram.dependents dependencies
      plan := grown.planOf steps }, ?_, rfl, rfl, rfl, rfl, ?_⟩
  · rw [Diagram.compile, h.dependencies hdependencies, ← h.dependents hbounded]
    simp only [bind, Except.bind, h.sortModules hbounded horder, hgrownSteps]
    rfl
  · -- Every step is that of another module, so there are no more steps than modules.
    have hnodup := (hcharts.sortModules h.coherent hbound horder).1.nodup
    have hle : steps.length ≤ diagram.modules.length := by
      rw [← List.length_map Plan.Step.id, hids, ← List.length_map Module.id]
      exact (List.subperm_of_subset hnodup hsubset).length_le
    have hinner : grown.modules.countP Module.isInner = diagram.modules.countP Module.isInner := by
      rw [h.before, h.after, List.countP_append, List.countP_append,
        List.countP_cons_of_neg (by simp [Module.isInner, h.outer])]
    have hsize : grown.modules.length = diagram.modules.length + 1 := by
      rw [h.before, h.after, List.length_append, List.length_append, List.length_cons]
      omega
    simp only [planOf, hinner, hsize, Nat.succ_sub hle]

end Adopts

end Diagram

namespace Description

variable {root : Dict Value} {first second : List Value} {raw : Value}

/-- A description with a module more between two of those that it lists. -/
def withModule (root : Dict Value) (first second : List Value) (raw : Value) : Value :=
  .object (root.insert "modules" (.list (first ++ raw :: second)))

theorem allEntries_eq (hlisted : root.get? "modules" = some (.list (first ++ second))) :
    allEntries (.object root) = first.flatMap (entries none) ++ second.flatMap (entries none) := by
  rw [allEntries, listed, Value.field?, Value.asObject?, Option.bind_some, hlisted,
    ← List.flatMap_append]
  rfl

theorem allEntries_withModule (hloop : ¬ IsLoop raw) :
    allEntries (withModule root first second raw) =
      first.flatMap (entries none) ++ ⟨none, raw⟩ :: second.flatMap (entries none) := by
  rw [withModule, allEntries_eq (Dict.get?_insert_self _ _ _), List.flatMap_cons,
    entries_of_not_isLoop hloop, List.singleton_append]

theorem field?_withModule {key : String} (hkey : key ≠ "modules") :
    (withModule root first second raw).field? key = (Value.object root).field? key :=
  Dict.get?_insert_of_ne root _ hkey

theorem listed_withModule {key : String} (hkey : key ≠ "modules") :
    listed (withModule root first second raw) key = listed (.object root) key := by
  rw [listed, listed, field?_withModule hkey]

/-- A module that is no loop and has a new id keeps the form of a description. -/
theorem Form.withModule (h : Form (.object root))
    (hlisted : root.get? "modules" = some (.list (first ++ second))) (hmodule : ModuleForm raw)
    (hloop : ¬ IsLoop raw)
    (hnew : idOf raw ∉ (allEntries (.object root)).map fun entry => idOf entry.raw) :
    Form (withModule root first second raw) where
  listsModules := by
    change ((root.insert "modules" _).get? "modules").isSome = true
    rw [Dict.get?_insert_self]
    rfl
  modules := by
    intro entry hmem
    have hforms := h.modules
    rw [allEntries_eq hlisted] at hforms
    rw [allEntries_withModule hloop, List.mem_append, List.mem_cons] at hmem
    rcases hmem with hmem | rfl | hmem
    · exact hforms entry (List.mem_append_left _ hmem)
    · exact hmodule
    · exact hforms entry (List.mem_append_right _ hmem)
  ids := by
    have hids := h.ids
    rw [allEntries_eq hlisted] at hids hnew
    rw [allEntries_withModule hloop, (List.perm_middle.map _).nodup_iff, List.map_cons]
    exact List.nodup_cons.mpr ⟨hnew, hids⟩
  wires := by
    rw [listed_withModule (by decide)]
    exact h.wires

end Description

namespace Pipe

open Description Diagram

/-- A module that is no loop, that no wire names and whose id is new can be listed anywhere in a
description that compiles. The order, the steps and the dependencies stay as they are; the module is
there and counted, but not executed. -/
theorem compile_withModule {root : Dict Value} {first second : List Value} {name : String}
    {pipe : Pipe} {raw : Value} (hcompile : compile (.object root) name = .ok pipe)
    (hlisted : root.get? "modules" = some (.list (first ++ second)))
    (hmodule : ModuleForm raw) (hloop : ¬ IsLoop raw)
    (hnew : idOf raw ∉ pipe.diagram.modules.map Module.id)
    (hunwired : ∀ wire ∈ pipe.diagram.wires,
      wire.source.module ≠ idOf raw ∧ wire.target.module ≠ idOf raw) :
    ∃ wider, compile (withModule root first second raw) name = .ok wider ∧
      wider.order = pipe.order ∧ wider.plan.steps = pipe.plan.steps ∧
      wider.dependents = pipe.dependents ∧
      wider.plan.counts = {
        total := pipe.plan.counts.total + 1
        active := pipe.plan.counts.active
        pruned := pipe.plan.counts.pruned + 1
        embedded := pipe.plan.counts.embedded } ∧
      wider.diagram.module? (idOf raw) = some (Entry.module ⟨none, raw⟩) := by
  obtain ⟨diagram, hparse, hdiagram⟩ := bind_eq_ok_iff.mp hcompile
  obtain ⟨hform, hread⟩ := parse_eq_ok_iff.mp hparse
  obtain rfl : pipe.diagram = diagram := (compile_eq_ok hdiagram).choose_spec.2.2.2
  have hmodules : pipe.diagram.modules = (first.flatMap (entries none)).map Entry.module ++
      (second.flatMap (entries none)).map Entry.module := by
    rw [hread, modules_ofForm, allEntries_eq hlisted, List.map_append]
  have hids : (allEntries (.object root)).map (fun entry => idOf entry.raw) =
      pipe.diagram.modules.map Module.id := by
    rw [hread, modules_ofForm, List.map_map]
    rfl
  have hgrown : Form (withModule root first second raw) :=
    hform.withModule hlisted hmodule hloop (hids ▸ hnew)
  have hadopts : Adopts pipe.diagram (ofForm (withModule root first second raw) name)
      ((first.flatMap (entries none)).map Entry.module)
      ((second.flatMap (entries none)).map Entry.module) (Entry.module ⟨none, raw⟩) := by
    refine ⟨hmodules, ?_, ?_, rfl, coherent_of_parse hparse, hnew, hunwired⟩
    · rw [modules_ofForm, allEntries_withModule hloop, List.map_append, List.map_cons]
    · rw [hread, ofForm, ofForm, listed_withModule (by decide)]
  obtain ⟨wider, hwider, hheld, horder, hdependents, hsteps, hcounts⟩ := hadopts.compile hdiagram
  refine ⟨wider, ?_, horder, hsteps, hdependents, hcounts, hheld ▸ hadopts.module?_orphan⟩
  exact bind_eq_ok_iff.mpr ⟨_, parse_eq_ok_iff.mpr ⟨hgrown, rfl⟩, hwider⟩

/-- Two modules and a wire between them. -/
def straightRoot : Dict Value :=
  ⟨[
    ("modules", .list [plainModule "source" "fetch", plainModule "sink" "output"]),
    ("wires", .list [plainWire "feed" "source" "sink"])]⟩

theorem compile_withModule_of_straight : ∃ pipe wider,
    compile (.object straightRoot) "pipe" = .ok pipe ∧
      compile (withModule straightRoot [plainModule "source" "fetch"]
        [plainModule "sink" "output"] (plainModule "lonely" "textinput")) "pipe" = .ok wider ∧
      ModuleForm (plainModule "lonely" "textinput") ∧
      ¬ IsLoop (plainModule "lonely" "textinput") ∧
      wider.order = [⟨"source"⟩, ⟨"sink"⟩] ∧ wider.plan.steps = pipe.plan.steps ∧
      wider.plan.counts = ⟨3, 2, 1, 0⟩ ∧
      (wider.diagram.module? ⟨"lonely"⟩).map Module.type = some "textinput" := by
  have hok : (compile (.object straightRoot) "pipe").map (fun pipe =>
      (pipe.order, pipe.plan.counts, pipe.diagram.modules.map Module.id,
        pipe.diagram.wires.map fun wire => (wire.source.module, wire.target.module))) =
      .ok ([⟨"source"⟩, ⟨"sink"⟩], ⟨2, 2, 0, 0⟩, [⟨"source"⟩, ⟨"sink"⟩],
        [(⟨"source"⟩, ⟨"sink"⟩)]) := by cbv
  have hid : HasText (plainModule "lonely" "textinput") "id" := ⟨"lonely", rfl, by decide⟩
  have htype : HasText (plainModule "lonely" "textinput") "type" := ⟨"textinput", rfl, by decide⟩
  have hloop : ¬ IsLoop (plainModule "lonely" "textinput") := by decide
  have hmodule : ModuleForm (plainModule "lonely" "textinput") :=
    ⟨hid, htype, fun h => absurd h hloop⟩
  have hlonely : idOf (plainModule "lonely" "textinput") = ⟨"lonely"⟩ := by cbv
  obtain ⟨pipe, hpipe, hfound⟩ := map_eq_ok_iff.mp hok
  obtain ⟨horder, hfound⟩ := Prod.mk.inj hfound
  obtain ⟨hcounts, hfound⟩ := Prod.mk.inj hfound
  obtain ⟨hids, hwires⟩ := Prod.mk.inj hfound
  have hunwired : ∀ wire ∈ pipe.diagram.wires,
      wire.source.module ≠ ⟨"lonely"⟩ ∧ wire.target.module ≠ ⟨"lonely"⟩ := by
    intro wire hwire
    have hends := hwires ▸ List.mem_map_of_mem hwire
    obtain ⟨hsource, htarget⟩ := Prod.mk.inj (List.mem_singleton.mp hends)
    rw [hsource, htarget]
    decide
  obtain ⟨wider, hwider, hsame, hsteps, -, hmore, hheld⟩ := compile_withModule hpipe
    (show straightRoot.get? "modules" =
      some (.list ([plainModule "source" "fetch"] ++ [plainModule "sink" "output"])) from rfl)
    hmodule hloop (by rw [hids, hlonely]; decide) (by rw [hlonely]; exact hunwired)
  rw [hlonely] at hheld
  refine ⟨pipe, wider, hpipe, hwider, hmodule, hloop, hsame.trans horder, hsteps, ?_, ?_⟩
  · rw [hmore, hcounts]
  · rw [hheld]
    rfl

end Pipe

end Pipework
