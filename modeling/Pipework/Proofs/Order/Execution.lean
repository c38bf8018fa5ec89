import Pipework.Pipe.Basic
import Pipework.Proofs.Diagram.Nesting
import Pipework.Proofs.Order.Least

/-! # The order of execution

A loop is executed after the module that it embeds, and the target of a wire after its source.
Compiling sorts the places of the modules in the description; the statements here are about the
modules themselves.
-/

namespace Pipework

theorem idxOf_map_of_inj {α β : Type} [DecidableEq α] [DecidableEq β] {f : α → β} {list : List α}
    {item : α} (hinj : ∀ other ∈ list, f other = f item → other = item) :
    (list.map f).idxOf (f item) = list.idxOf item := by
  induction list with
  | nil => rfl
  | cons head rest ih =>
      rw [List.map_cons, List.idxOf_cons, List.idxOf_cons]
      have hhead : (f head == f item) = (head == item) := by
        rw [Bool.eq_iff_iff, beq_iff_eq, beq_iff_eq]
        exact ⟨hinj head List.mem_cons_self, congrArg f⟩
      rw [hhead, ih fun other hother => hinj other (List.mem_cons_of_mem _ hother)]

namespace Diagram

/-- The second module needs the first: it is a loop that owns it, or a wire leads there. -/
def Precedes (diagram : Diagram) (source target : ModuleId) : Prop :=
  (∃ module ∈ diagram.modules, module.id = source ∧ module.parent = some target) ∨
    ∃ wire ∈ diagram.wires, wire.source.module = source ∧ wire.target.module = target

/-- A module needs another one or is needed, perhaps by itself. -/
def IsConnected (diagram : Diagram) (id : ModuleId) : Prop :=
  ∃ other, diagram.Precedes id other ∨ diagram.Precedes other id

/-- The connected modules, each once and after all that it needs. -/
structure IsExecutionOrder (diagram : Diagram) (order : List ModuleId) : Prop where
  nodup : order.Nodup
  mem_iff : ∀ id, id ∈ order ↔ diagram.IsConnected id
  precedes : ∀ source target, diagram.Precedes source target →
    order.idxOf source < order.idxOf target

/-- The description has one module before another. -/
def Before (diagram : Diagram) (first second : ModuleId) : Prop :=
  ∃ place, diagram.position? first = some place ∧
    ∃ later, diagram.position? second = some later ∧ place < later

/-- Both ends of every wire are modules. -/
def WiresBound (diagram : Diagram) : Prop :=
  ∀ wire ∈ diagram.wires,
    diagram.contains wire.source.module = true ∧ diagram.contains wire.target.module = true

/-- The edges are what the modules and wires say. -/
structure Charts (diagram : Diagram) (dependencies : Dependencies) : Prop where
  size_eq : dependencies.size = diagram.modules.length
  precedes_iff : ∀ source target, dependencies.Precedes source target ↔
    ∃ first second, diagram.Precedes first second ∧
      diagram.position? first = some source ∧ diagram.position? second = some target

open Roster (position?_eq_some_iff position?_eq_findIdx? contains_iff exists_position? position?_lt)

variable {diagram : Diagram}

theorem contains_of_endPosition {wire : Wire} {wireEnd : WireEnd} {place : Nat}
    (h : diagram.endPosition wire wireEnd = .ok place) :
    diagram.contains wireEnd.module = true := by
  unfold endPosition at h
  split at h
  next found hfound =>
    exact Option.isSome_iff_exists.mpr ⟨found, hfound⟩
  · cases h

theorem idAt_of_position? (hnodup : (diagram.modules.map Module.id).Nodup) {id : ModuleId}
    {place : Nat} (h : diagram.position? id = some place) : diagram.idAt place = id := by
  obtain ⟨module, hmodule, rfl⟩ := (position?_eq_some_iff hnodup).mp h
  rw [idAt, hmodule]
  rfl

theorem position?_idAt (hnodup : (diagram.modules.map Module.id).Nodup) {place : Nat}
    (h : place < diagram.modules.length) : diagram.position? (diagram.idAt place) = some place := by
  refine (position?_eq_some_iff hnodup).mpr ⟨_, List.getElem?_eq_getElem h, ?_⟩
  rw [idAt, List.getElem?_eq_getElem h]
  rfl

/-- Every module that belongs to a loop has an edge to it. -/
theorem exists_embedEdges {list : List Module}
    (hparents : ∀ module ∈ list, ∀ id, module.parent = some id → diagram.contains id = true)
    (start : Nat) : ∃ owned, diagram.embedEdges start list = .ok owned ∧
      ∀ edge, edge ∈ owned ↔ ∃ place module parent, list[place]? = some module ∧
        module.parent = some parent ∧ edge.1 = start + place ∧
          diagram.position? parent = some edge.2 := by
  induction list generalizing start with
  | nil => exact ⟨[], rfl, by simp⟩
  | cons module rest ih =>
      obtain ⟨owned, howned, hmem⟩ :=
        ih (fun other hother => hparents other (List.mem_cons_of_mem _ hother)) (start + 1)
      have hrest (edge : Nat × Nat) : edge ∈ owned ↔ ∃ place other parent,
          (module :: rest)[place + 1]? = some other ∧ other.parent = some parent ∧
            edge.1 = start + (place + 1) ∧ diagram.position? parent = some edge.2 := by
        rw [hmem]
        simp only [List.getElem?_cons_succ, Nat.add_assoc, Nat.add_comm 1]
      cases hparent : module.parent with
      | none =>
          refine ⟨owned, ?_, fun edge => ?_⟩
          · simp only [embedEdges, howned, hparent]
            rfl
          · rw [hrest]
            constructor
            · rintro ⟨place, hplace⟩
              exact ⟨place + 1, hplace⟩
            · rintro ⟨place, other, parent, hother, hbelongs, hplace⟩
              cases place with
              | zero =>
                  cases hother
                  cases hparent.symm.trans hbelongs
              | succ place => exact ⟨place, other, parent, hother, hbelongs, hplace⟩
      | some parent =>
          obtain ⟨owner, howner⟩ :=
            exists_position? (hparents module List.mem_cons_self parent hparent)
          refine ⟨(start, owner) :: owned, ?_, fun edge => ?_⟩
          · simp only [embedEdges, howned, hparent]
            simp only [bind, Except.bind, howner]
            rfl
          · rw [List.mem_cons, hrest]
            constructor
            · rintro (rfl | ⟨place, hplace⟩)
              · exact ⟨0, module, parent, rfl, hparent, rfl, howner⟩
              · exact ⟨place + 1, hplace⟩
            · rintro ⟨place, other, loop, hother, hbelongs, hplace, hloop⟩
              cases place with
              | zero =>
                  cases hother
                  cases hparent.symm.trans hbelongs
                  exact .inl (Prod.ext hplace (Option.some.inj (hloop.symm.trans howner)))
              | succ place => exact .inr ⟨place, other, loop, hother, hbelongs, hplace, hloop⟩

/-- Every wire has an edge from its source to its target. -/
theorem exists_wireEdges {list : List Wire}
    (hends : ∀ wire ∈ list,
      diagram.contains wire.source.module = true ∧ diagram.contains wire.target.module = true) :
    ∃ wired, diagram.wireEdges list = .ok wired ∧ ∀ edge, edge ∈ wired ↔ ∃ wire ∈ list,
      diagram.position? wire.source.module = some edge.1 ∧
        diagram.position? wire.target.module = some edge.2 := by
  induction list with
  | nil => exact ⟨[], rfl, by simp⟩
  | cons wire rest ih =>
      obtain ⟨wired, hwired, hmem⟩ := ih fun other hother => hends other (List.mem_cons_of_mem _ hother)
      obtain ⟨hcontainsSource, hcontainsTarget⟩ := hends wire List.mem_cons_self
      obtain ⟨source, hsource⟩ := exists_position? hcontainsSource
      obtain ⟨target, htarget⟩ := exists_position? hcontainsTarget
      refine ⟨(source, target) :: wired, ?_, fun edge => ?_⟩
      · simp only [wireEdges, endPosition, hsource, htarget, hwired]
        rfl
      · rw [List.mem_cons, hmem]
        constructor
        · rintro (rfl | ⟨other, hother, hedge⟩)
          · exact ⟨wire, List.mem_cons_self, hsource, htarget⟩
          · exact ⟨other, List.mem_cons_of_mem _ hother, hedge⟩
        · rintro ⟨other, hother, hedge⟩
          rcases List.mem_cons.mp hother with rfl | hother
          · exact .inl (Prod.ext (Option.some.inj (hedge.1.symm.trans hsource))
              (Option.some.inj (hedge.2.symm.trans htarget)))
          · exact .inr ⟨other, hother, hedge⟩

/-- Where every wire has its ends, the edges are there. -/
theorem exists_dependencies (hcoherent : Coherent diagram.modules) (hbound : diagram.WiresBound) :
    ∃ dependencies, diagram.dependencies = .ok dependencies ∧ diagram.Charts dependencies := by
  have hparents : ∀ module ∈ diagram.modules, ∀ id, module.parent = some id →
      diagram.contains id = true := by
    intro module hmem id hid
    obtain ⟨loop, hloop, hloopId, -⟩ := hcoherent.owner module hmem id hid
    exact contains_iff.mpr ⟨loop, hloop, hloopId⟩
  obtain ⟨owned, howned, hmemOwned⟩ := exists_embedEdges hparents 0
  obtain ⟨wired, hwired, hmemWired⟩ := exists_wireEdges hbound
  refine ⟨{ size := diagram.modules.length, edges := owned ++ wired }, ?_, rfl, ?_⟩
  · simp only [dependencies, howned, hwired]
    rfl
  · intro source target
    rw [Dependencies.Precedes, List.mem_append, hmemOwned, hmemWired]
    constructor
    · rintro (⟨place, module, parent, hmodule, hparent, hplace, hloop⟩ | ⟨wire, hwire, hedge⟩)
      · refine ⟨module.id, parent, .inl ⟨module, List.mem_of_getElem? hmodule, rfl, hparent⟩, ?_,
          hloop⟩
        refine (position?_eq_some_iff hcoherent.nodup).mpr ⟨module, ?_, rfl⟩
        rw [show source = place by simpa using hplace, hmodule]
      · exact ⟨_, _, .inr ⟨wire, hwire, rfl, rfl⟩, hedge⟩
    · rintro ⟨first, second, hedge, hfirst, hsecond⟩
      rcases hedge with ⟨module, hmem, hid, hparent⟩ | ⟨wire, hwire, rfl, rfl⟩
      · obtain ⟨held, hheld, hheldId⟩ := (position?_eq_some_iff hcoherent.nodup).mp hfirst
        have hsame : held = module := List.inj_on_of_nodup_map hcoherent.nodup
          (List.mem_of_getElem? hheld) hmem (hheldId.trans hid.symm)
        exact .inl ⟨source, held, second, hheld, hsame ▸ hparent, (Nat.zero_add _).symm, hsecond⟩
      · exact .inr ⟨wire, hwire, hfirst, hsecond⟩

/-- What is needed and what needs it are modules. -/
theorem Precedes.contains (hcoherent : Coherent diagram.modules) (hbound : diagram.WiresBound)
    {source target : ModuleId} (h : diagram.Precedes source target) :
    diagram.contains source = true ∧ diagram.contains target = true := by
  rcases h with ⟨module, hmem, hid, hparent⟩ | ⟨wire, hwire, rfl, rfl⟩
  · obtain ⟨loop, hloop, hloopId, -⟩ := hcoherent.owner module hmem target hparent
    exact ⟨contains_iff.mpr ⟨module, hmem, hid⟩, contains_iff.mpr ⟨loop, hloop, hloopId⟩⟩
  · exact hbound wire hwire

theorem IsConnected.exists_position? (hcoherent : Coherent diagram.modules)
    (hbound : diagram.WiresBound) {id : ModuleId} (h : diagram.IsConnected id) :
    ∃ place, diagram.position? id = some place := by
  obtain ⟨other, hprecedes | hprecedes⟩ := h
  · exact Roster.exists_position? (hprecedes.contains hcoherent hbound).1
  · exact Roster.exists_position? (hprecedes.contains hcoherent hbound).2

namespace Charts

variable {dependencies : Dependencies}

theorem bounded (h : diagram.Charts dependencies) : dependencies.Bounded := by
  intro source target hedge
  obtain ⟨first, second, -, hfirst, hsecond⟩ := (h.precedes_iff source target).mp hedge
  rw [h.size_eq]
  exact ⟨position?_lt hfirst, position?_lt hsecond⟩

theorem precedes_idAt (h : diagram.Charts dependencies)
    (hnodup : (diagram.modules.map Module.id).Nodup) {source target : Nat}
    (hedge : dependencies.Precedes source target) :
    diagram.Precedes (diagram.idAt source) (diagram.idAt target) := by
  obtain ⟨first, second, hprecedes, hfirst, hsecond⟩ := (h.precedes_iff source target).mp hedge
  rw [idAt_of_position? hnodup hfirst, idAt_of_position? hnodup hsecond]
  exact hprecedes

theorem exists_precedes (h : diagram.Charts dependencies) (hcoherent : Coherent diagram.modules)
    (hbound : diagram.WiresBound) {first second : ModuleId}
    (hprecedes : diagram.Precedes first second) :
    ∃ source target, diagram.position? first = some source ∧
      diagram.position? second = some target ∧ dependencies.Precedes source target := by
  obtain ⟨hcontainsFirst, hcontainsSecond⟩ := hprecedes.contains hcoherent hbound
  obtain ⟨source, hsource⟩ := exists_position? hcontainsFirst
  obtain ⟨target, htarget⟩ := exists_position? hcontainsSecond
  exact ⟨source, target, hsource, htarget,
    (h.precedes_iff source target).mpr ⟨first, second, hprecedes, hsource, htarget⟩⟩

/-- A module is connected exactly if its place is. -/
theorem active_iff (h : diagram.Charts dependencies) (hcoherent : Coherent diagram.modules)
    (hbound : diagram.WiresBound) {id : ModuleId} {place : Nat}
    (hplace : diagram.position? id = some place) :
    place ∈ dependencies.active ↔ diagram.IsConnected id := by
  rw [Dependencies.mem_active]
  constructor
  · rintro ⟨-, other, hedge⟩
    refine ⟨diagram.idAt other, ?_⟩
    rw [← idAt_of_position? hcoherent.nodup hplace]
    exact hedge.imp (h.precedes_idAt hcoherent.nodup) (h.precedes_idAt hcoherent.nodup)
  · rintro ⟨other, hprecedes | hprecedes⟩
    · obtain ⟨source, target, hsource, -, hedge⟩ := h.exists_precedes hcoherent hbound hprecedes
      obtain rfl : place = source := Option.some.inj (hplace.symm.trans hsource)
      exact ⟨(h.bounded _ _ hedge).1, target, .inl hedge⟩
    · obtain ⟨source, target, -, htarget, hedge⟩ := h.exists_precedes hcoherent hbound hprecedes
      obtain rfl : place = target := Option.some.inj (hplace.symm.trans htarget)
      exact ⟨(h.bounded _ _ hedge).2, source, .inr hedge⟩

/-- Where modules lead from one to another, their places do. -/
theorem exists_reaches (h : diagram.Charts dependencies) (hcoherent : Coherent diagram.modules)
    (hbound : diagram.WiresBound) {first second : ModuleId}
    (hpath : Relation.TransGen diagram.Precedes first second) :
    ∃ source target, diagram.position? first = some source ∧
      diagram.position? second = some target ∧ dependencies.Reaches source target := by
  induction hpath with
  | single hprecedes =>
      obtain ⟨source, target, hsource, htarget, hedge⟩ :=
        h.exists_precedes hcoherent hbound hprecedes
      exact ⟨source, target, hsource, htarget, .single hedge⟩
  | tail _ hprecedes ih =>
      obtain ⟨source, middle, hsource, hmiddle, hreaches⟩ := ih
      obtain ⟨between, target, hbetween, htarget, hedge⟩ :=
        h.exists_precedes hcoherent hbound hprecedes
      obtain rfl : middle = between := Option.some.inj (hmiddle.symm.trans hbetween)
      exact ⟨source, target, hsource, htarget, .tail hreaches hedge⟩

/-- Places lead around in a circle exactly if the modules there do. -/
theorem acyclic_iff (h : diagram.Charts dependencies) (hcoherent : Coherent diagram.modules)
    (hbound : diagram.WiresBound) :
    dependencies.Acyclic ↔ ∀ id, ¬ Relation.TransGen diagram.Precedes id id := by
  constructor
  · intro hacyclic id hcircle
    obtain ⟨source, target, hsource, htarget, hpath⟩ := h.exists_reaches hcoherent hbound hcircle
    obtain rfl : source = target := Option.some.inj (hsource.symm.trans htarget)
    exact hacyclic source hpath
  · intro hacyclic position hcircle
    exact hacyclic (diagram.idAt position)
      (hcircle.lift diagram.idAt fun _ _ => h.precedes_idAt hcoherent.nodup)

/-- The modules at places in order are in the order of execution. -/
theorem isExecutionOrder (h : diagram.Charts dependencies) (hcoherent : Coherent diagram.modules)
    (hbound : diagram.WiresBound) {order : List Nat} (horder : dependencies.IsOrder order) :
    diagram.IsExecutionOrder (order.map diagram.idAt) := by
  have hplace : ∀ place ∈ order, diagram.position? (diagram.idAt place) = some place := by
    intro place hmem
    have hactive := Dependencies.mem_active.mp ((horder.mem_iff place).mp hmem)
    exact position?_idAt hcoherent.nodup (h.size_eq ▸ hactive.1)
  have hinj : ∀ first ∈ order, ∀ second ∈ order, diagram.idAt first = diagram.idAt second →
      first = second := by
    intro first hfirst second hsecond hid
    exact Option.some.inj ((hplace first hfirst).symm.trans (hid ▸ hplace second hsecond))
  refine ⟨horder.nodup.map_on hinj, fun id => ?_, fun first second hprecedes => ?_⟩
  · rw [List.mem_map]
    constructor
    · rintro ⟨place, hmem, rfl⟩
      exact (h.active_iff hcoherent hbound (hplace place hmem)).mp ((horder.mem_iff place).mp hmem)
    · intro hconnected
      obtain ⟨place, hid⟩ := hconnected.exists_position? hcoherent hbound
      refine ⟨place, ?_, idAt_of_position? hcoherent.nodup hid⟩
      exact (horder.mem_iff place).mpr ((h.active_iff hcoherent hbound hid).mpr hconnected)
  · obtain ⟨source, target, hsource, htarget, hedge⟩ := h.exists_precedes hcoherent hbound hprecedes
    have hbounded := h.bounded
    have hmemSource := (horder.mem_iff source).mpr (hbounded.source_active hedge)
    have hmemTarget := (horder.mem_iff target).mpr (hbounded.target_active hedge)
    rw [← idAt_of_position? hcoherent.nodup hsource, ← idAt_of_position? hcoherent.nodup htarget,
      idxOf_map_of_inj fun other hother => hinj other hother source hmemSource,
      idxOf_map_of_inj fun other hother => hinj other hother target hmemTarget]
    exact horder.precedes source target hedge

/-- The places of modules in the order of execution are in order. -/
theorem exists_isOrder (h : diagram.Charts dependencies) (hcoherent : Coherent diagram.modules)
    (hbound : diagram.WiresBound) {order : List ModuleId} (horder : diagram.IsExecutionOrder order) :
    ∃ places, dependencies.IsOrder places ∧ order = places.map diagram.idAt := by
  let placeOf := fun id => (diagram.position? id).getD 0
  have hplace : ∀ id ∈ order, diagram.position? id = some (placeOf id) := by
    intro id hmem
    obtain ⟨place, hid⟩ := ((horder.mem_iff id).mp hmem).exists_position? hcoherent hbound
    simp only [placeOf, hid, Option.getD_some]
  have hinj : ∀ first ∈ order, ∀ second ∈ order, placeOf first = placeOf second →
      first = second := by
    intro first hfirst second hsecond hsame
    rw [← idAt_of_position? hcoherent.nodup (hplace first hfirst), hsame,
      idAt_of_position? hcoherent.nodup (hplace second hsecond)]
  refine ⟨order.map placeOf, ⟨horder.nodup.map_on hinj, fun place => ?_, fun source target hedge => ?_⟩,
    ?_⟩
  · rw [List.mem_map]
    constructor
    · rintro ⟨id, hmem, rfl⟩
      exact (h.active_iff hcoherent hbound (hplace id hmem)).mpr ((horder.mem_iff id).mp hmem)
    · intro hactive
      have hlt := (Dependencies.mem_active.mp hactive).1
      have hid := position?_idAt hcoherent.nodup (h.size_eq ▸ hlt)
      refine ⟨diagram.idAt place, ?_, by simp only [placeOf, hid, Option.getD_some]⟩
      exact (horder.mem_iff _).mpr ((h.active_iff hcoherent hbound hid).mp hactive)
  · obtain ⟨first, second, hprecedes, hfirst, hsecond⟩ := (h.precedes_iff source target).mp hedge
    have hmemFirst := (horder.mem_iff first).mpr ⟨second, .inl hprecedes⟩
    have hmemSecond := (horder.mem_iff second).mpr ⟨first, .inr hprecedes⟩
    have hsource : source = placeOf first := Option.some.inj (hfirst ▸ hplace first hmemFirst)
    have htarget : target = placeOf second := Option.some.inj (hsecond ▸ hplace second hmemSecond)
    rw [hsource, htarget, idxOf_map_of_inj fun other hother => hinj other hother first hmemFirst,
      idxOf_map_of_inj fun other hother => hinj other hother second hmemSecond]
    exact horder.precedes first second hprecedes
  · rw [List.map_map]
    refine (List.map_congr_left fun id hmem => ?_).trans (List.map_id order) |>.symm
    exact idAt_of_position? hcoherent.nodup (hplace id hmem)

theorem lt_of_isOrder (h : diagram.Charts dependencies) {order : List Nat}
    (horder : dependencies.IsOrder order) : ∀ place ∈ order, place < diagram.modules.length := by
  intro place hmem
  rw [← h.size_eq]
  exact (Dependencies.mem_active.mp ((horder.mem_iff place).mp hmem)).1

end Charts

/-- Of two lists of places the modules compare as the places do. -/
theorem lex_before (hnodup : (diagram.modules.map Module.id).Nodup) {first second : List Nat}
    (hfirst : ∀ place ∈ first, place < diagram.modules.length)
    (hsecond : ∀ place ∈ second, place < diagram.modules.length)
    (h : List.Lex (· < ·) first second) :
    List.Lex diagram.Before (first.map diagram.idAt) (second.map diagram.idAt) := by
  induction h with
  | nil => exact .nil
  | rel hlt =>
      exact .rel ⟨_, position?_idAt hnodup (hfirst _ List.mem_cons_self), _,
        position?_idAt hnodup (hsecond _ List.mem_cons_self), hlt⟩
  | cons _ ih =>
      exact .cons (ih (fun place hmem => hfirst place (List.mem_cons_of_mem _ hmem))
        fun place hmem => hsecond place (List.mem_cons_of_mem _ hmem))

/-- Where sorting succeeds it gives the modules at the places in order. -/
theorem sortModules_eq_ok_iff {dependencies : Dependencies} {order : List ModuleId} :
    diagram.sortModules dependencies = .ok order ↔
      ∃ places, dependencies.sort? = some (.sorted places) ∧ order = places.map diagram.idAt := by
  unfold sortModules
  cases hsort : dependencies.sort? with
  | none => simp
  | some result =>
      cases result with
      | sorted places => simp [eq_comm]
      | cyclic left => simp

/-- An order that is found is an order of execution, and the least. -/
theorem Charts.sortModules {dependencies : Dependencies} (h : diagram.Charts dependencies)
    (hcoherent : Coherent diagram.modules) (hbound : diagram.WiresBound) {order : List ModuleId}
    (horder : diagram.sortModules dependencies = .ok order) : diagram.IsExecutionOrder order ∧
      ∀ other, diagram.IsExecutionOrder other →
        order = other ∨ List.Lex diagram.Before order other := by
  obtain ⟨places, hplaces, rfl⟩ := sortModules_eq_ok_iff.mp horder
  obtain ⟨hisOrder, hleast⟩ := Dependencies.sort?_sorted h.bounded hplaces
  refine ⟨h.isExecutionOrder hcoherent hbound hisOrder, fun other hother => ?_⟩
  obtain ⟨others, hothers, rfl⟩ := h.exists_isOrder hcoherent hbound hother
  rcases hleast others hothers with rfl | hless
  · exact .inl rfl
  · exact .inr (lex_before hcoherent.nodup (h.lt_of_isOrder hisOrder) (h.lt_of_isOrder hothers)
      hless)

/-- Where the edges are there, every wire has its ends. -/
theorem wiresBound_of_dependencies {dependencies : Dependencies}
    (h : diagram.dependencies = .ok dependencies) : diagram.WiresBound := by
  have hends : ∀ list wired, diagram.wireEdges list = .ok wired → ∀ wire ∈ list,
      diagram.contains wire.source.module = true ∧
        diagram.contains wire.target.module = true := by
    intro list
    induction list with
    | nil => exact fun _ _ _ hmem => absurd hmem List.not_mem_nil
    | cons wire rest ih =>
        intro wired hwired other hother
        obtain ⟨source, hsource, hwired⟩ := bind_eq_ok_iff.mp hwired
        obtain ⟨target, htarget, hwired⟩ := bind_eq_ok_iff.mp hwired
        obtain ⟨edges, hedges, -⟩ := bind_eq_ok_iff.mp hwired
        rcases List.mem_cons.mp hother with rfl | hother
        · exact ⟨contains_of_endPosition hsource, contains_of_endPosition htarget⟩
        · exact ih edges hedges other hother
  obtain ⟨owned, -, h⟩ := bind_eq_ok_iff.mp h
  obtain ⟨wired, hwired, -⟩ := bind_eq_ok_iff.mp h
  exact hends diagram.wires wired hwired

/-- What a diagram is compiled to. -/
theorem compile_eq_ok {pipe : Pipe} (h : diagram.compile = .ok pipe) :
    ∃ dependencies, diagram.dependencies = .ok dependencies ∧
      diagram.sortModules dependencies = .ok pipe.order ∧
      diagram.planSteps pipe.order = .ok pipe.plan.steps ∧ pipe.diagram = diagram := by
  unfold compile at h
  obtain ⟨dependencies, hdependencies, h⟩ := bind_eq_ok_iff.mp h
  obtain ⟨order, horder, h⟩ := bind_eq_ok_iff.mp h
  obtain ⟨steps, hsteps, h⟩ := bind_eq_ok_iff.mp h
  cases h
  exact ⟨dependencies, hdependencies, horder, hsteps, rfl⟩

/-- The order of execution depends only on the modules and on which of them need which. -/
theorem sortModules_of_precedes {rewired : Diagram} (hcoherent : Coherent diagram.modules)
    (hbound : diagram.WiresBound) (hmodules : rewired.modules = diagram.modules)
    (hprecedes : ∀ source target, rewired.Precedes source target ↔ diagram.Precedes source target) :
    (rewired.dependencies >>= rewired.sortModules) =
      (diagram.dependencies >>= diagram.sortModules) := by
  have hnodup : (rewired.modules.map Module.id).Nodup := hmodules ▸ hcoherent.nodup
  have hposition : rewired.position? = diagram.position? := by
    funext id
    rw [position?_eq_findIdx? hnodup, position?_eq_findIdx? hcoherent.nodup, hmodules]
  have hcontains : rewired.contains = diagram.contains := by
    funext id
    rw [Bool.eq_iff_iff, contains_iff, contains_iff, hmodules]
  have hidAt : rewired.idAt = diagram.idAt := by
    funext place
    rw [idAt, idAt, hmodules]
  have hrewired : rewired.WiresBound := by
    intro wire hwire
    rw [hcontains]
    exact ((hprecedes _ _).mp (.inr ⟨wire, hwire, rfl, rfl⟩)).contains hcoherent hbound
  obtain ⟨dependencies, hdependencies, hcharts⟩ := exists_dependencies hcoherent hbound
  have hotherCoherent : Coherent rewired.modules := hmodules ▸ hcoherent
  obtain ⟨others, hothers, hotherCharts⟩ := exists_dependencies hotherCoherent hrewired
  have hsort : others.sort? = dependencies.sort? := by
    refine Dependencies.sort?_of_edges hcharts.bounded ?_ ?_
    · rw [hcharts.size_eq, hotherCharts.size_eq, hmodules]
    · intro edge
      refine (hotherCharts.precedes_iff edge.1 edge.2).trans
        (.trans ?_ (hcharts.precedes_iff edge.1 edge.2).symm)
      simp only [hprecedes, hposition]
  rw [hdependencies, hothers]
  simp only [bind, Except.bind, sortModules, hsort, hidAt]

/-- The modules of a description whose wires have their ends can be sorted exactly if none of them
needs itself, be it in many steps. The order that is found has each connected module once and after
all that it needs, and of all such orders it is the least by the places in the description. It does
not depend on how the wires are listed, and counting down the edges never fails. -/
theorem sortModules_least {description : Value} {name : String} {diagram : Diagram}
    (hparse : parse description name = .ok diagram) (hbound : diagram.WiresBound) :
    ∃ dependencies, diagram.dependencies = .ok dependencies ∧ dependencies.sort? ≠ none ∧
      ((∃ order, diagram.sortModules dependencies = .ok order) ↔
        ∀ id, ¬ Relation.TransGen diagram.Precedes id id) ∧
      (∀ order, diagram.sortModules dependencies = .ok order → diagram.IsExecutionOrder order ∧
        ∀ other, diagram.IsExecutionOrder other →
          order = other ∨ List.Lex diagram.Before order other) ∧
      (∀ pipe, diagram.compile = .ok pipe → diagram.sortModules dependencies = .ok pipe.order) ∧
      ∀ rewired : Diagram, rewired.modules = diagram.modules →
        (∀ source target, rewired.Precedes source target ↔ diagram.Precedes source target) →
        (rewired.dependencies >>= rewired.sortModules) = diagram.sortModules dependencies := by
  have hcoherent := coherent_of_parse hparse
  obtain ⟨dependencies, hdependencies, hcharts⟩ := exists_dependencies hcoherent hbound
  have hbounded := hcharts.bounded
  refine ⟨dependencies, hdependencies, Dependencies.sort?_ne_none hbounded, ?acyclic, ?least,
    ?compiled, ?rewired⟩
  case acyclic =>
    rw [← hcharts.acyclic_iff hcoherent hbound, ← Dependencies.exists_sorted_iff hbounded]
    constructor
    · rintro ⟨order, horder⟩
      obtain ⟨places, hplaces, -⟩ := sortModules_eq_ok_iff.mp horder
      exact ⟨places, hplaces⟩
    · rintro ⟨places, hplaces⟩
      exact ⟨_, sortModules_eq_ok_iff.mpr ⟨places, hplaces, rfl⟩⟩
  case least =>
    exact fun order => hcharts.sortModules hcoherent hbound
  case compiled =>
    intro pipe hpipe
    obtain ⟨found, hfound, horder, -⟩ := compile_eq_ok hpipe
    cases hdependencies.symm.trans hfound
    exact horder
  case rewired =>
    intro rewired hmodules hprecedes
    rw [sortModules_of_precedes hcoherent hbound hmodules hprecedes, hdependencies]
    rfl

/-- The description of a module that is no loop. -/
def plainModule (id type : String) : Value :=
  .object ⟨[("id", .text id), ("type", .text type)]⟩

/-- The configuration of a loop. -/
def loopConf (inner : Value) : Value :=
  .object ⟨[("embed", .object ⟨[("value", inner)]⟩)]⟩

/-- The description of a loop. -/
def loopModule (id : String) (inner : Value) : Value :=
  .object ⟨[("conf", loopConf inner), ("id", .text id), ("type", .text TypeName.loop)]⟩

/-- The description of a wire from an output to a default input. -/
def plainWire (id source target : String) : Value :=
  .object ⟨[
    ("id", .text id),
    ("src", .object ⟨[("id", .text "_OUTPUT"), ("moduleid", .text source)]⟩),
    ("tgt", .object ⟨[("id", .text "_INPUT"), ("moduleid", .text target)]⟩)]⟩

/-- A loop that two wires feed from a module listed after it. -/
def twiceFed : Value :=
  .object ⟨[
    ("modules", .list [loopModule "each" (plainModule "body" "output"),
      plainModule "source" "output"]),
    ("wires", .list [plainWire "first" "source" "each", plainWire "second" "source" "each"])]⟩

/-- What there is to read in that description. -/
def twiceFedDiagram : Diagram :=
  { Roster.empty.pushAll [
      ⟨⟨"each"⟩, "each", TypeName.loop, .ofValue (loopConf (plainModule "body" "output")), none⟩,
      ⟨⟨"body"⟩, "body", "output", .empty, some ⟨"each"⟩⟩,
      ⟨⟨"source"⟩, "source", "output", .empty, none⟩] with
    name := "pipe"
    wires := [
      ⟨⟨"first"⟩, ⟨⟨"source"⟩, ⟨"_OUTPUT"⟩⟩, ⟨⟨"each"⟩, ⟨"_INPUT"⟩⟩⟩,
      ⟨⟨"second"⟩, ⟨⟨"source"⟩, ⟨"_OUTPUT"⟩⟩, ⟨⟨"each"⟩, ⟨"_INPUT"⟩⟩⟩] }

theorem sortModules_least_of_twiceFed :
    parse twiceFed "pipe" = .ok twiceFedDiagram ∧ twiceFedDiagram.WiresBound ∧
      twiceFedDiagram.IsExecutionOrder [⟨"body"⟩, ⟨"source"⟩, ⟨"each"⟩] := by
  have hparse : parse twiceFed "pipe" = .ok twiceFedDiagram := by cbv
  have hbound : twiceFedDiagram.WiresBound := by
    unfold WiresBound
    decide
  obtain ⟨dependencies, hdependencies, -, -, hleast, -⟩ := sortModules_least hparse hbound
  have hedges : twiceFedDiagram.dependencies = .ok ⟨3, [(1, 0), (2, 0), (2, 0)]⟩ := by cbv
  cases hdependencies.symm.trans hedges
  exact ⟨hparse, hbound, (hleast _ (by cbv)).1⟩

end Diagram

end Pipework
