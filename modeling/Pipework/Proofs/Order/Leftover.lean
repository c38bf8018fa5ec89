import Mathlib
import Pipework.Proofs.Order.Execution

/-! # What a sort leaves over

A sort that meets a circle comes to a stop with edges left. The positions with an edge left into
them are those on a circle and those behind one, and they are the ones that no order could have
taken in.
-/

namespace Pipework

/-- An item lies on a circle, or a circle leads to it. -/
def BehindCircle {α : Type} (precedes : α → α → Prop) (item : α) : Prop :=
  ∃ circle, Relation.TransGen precedes circle circle ∧
    Relation.ReflTransGen precedes circle item

namespace BehindCircle

variable {α : Type} {precedes : α → α → Prop} {source target : α}

theorem tail (h : BehindCircle precedes source) (hedge : precedes source target) :
    BehindCircle precedes target := by
  obtain ⟨circle, hcircle, hpath⟩ := h
  exact ⟨circle, hcircle, hpath.tail hedge⟩

/-- The circle is entered by an edge from one of its own items. -/
theorem exists_source (h : BehindCircle precedes target) :
    ∃ source, precedes source target ∧ BehindCircle precedes source := by
  obtain ⟨circle, hcircle, hpath⟩ := h
  have hwhole : Relation.TransGen precedes circle target := hcircle.trans_left hpath
  obtain ⟨source, hbefore, hedge⟩ := Relation.TransGen.tail'_iff.mp hwhole
  exact ⟨source, hedge, circle, hcircle, hbefore⟩

/-- Where items come only after all that leads to them, none is behind a circle. -/
theorem not_mem [DecidableEq α] {order : List α}
    (horder : ∀ source target, precedes source target → target ∈ order →
      order.idxOf source < order.idxOf target) {item : α} (h : BehindCircle precedes item) :
    item ∉ order := by
  -- Every step back lowers the place in the order, so no walk back goes on forever.
  intro hitem
  induction hplace : order.idxOf item using Nat.strong_induction_on generalizing item with
  | _ place ih =>
      obtain ⟨source, hedge, hsource⟩ := h.exists_source
      have hlt := horder source item hedge hitem
      have hmem : source ∈ order :=
        List.idxOf_lt_length_iff.mp (Nat.lt_of_lt_of_le hlt List.idxOf_le_length)
      exact ih _ (hplace ▸ hlt) hsource hmem rfl

end BehindCircle

namespace Dependencies

variable {dependencies : Dependencies}

/-- Among the positions that no circle leads to, edges can be followed back only so far. -/
theorem wellFounded_off_circles : WellFounded
    fun source target : { place : Fin dependencies.size //
        ¬ BehindCircle dependencies.Precedes place.val } =>
      dependencies.Reaches source.val target.val := by
  have htrans : IsTrans { place : Fin dependencies.size //
      ¬ BehindCircle dependencies.Precedes place.val }
      fun source target => dependencies.Reaches source.val target.val :=
    ⟨fun _ _ _ => Relation.TransGen.trans⟩
  have hirrefl : Std.Irrefl fun source target : { place : Fin dependencies.size //
      ¬ BehindCircle dependencies.Precedes place.val } =>
        dependencies.Reaches source.val target.val :=
    ⟨fun place hcircle => place.property ⟨place.val, hcircle, .refl⟩⟩
  exact Finite.wellFounded_of_trans_of_irrefl _

/-- Positions that can always be followed back to one of their kind are behind a circle. -/
theorem behindCircle_of_back (hbounded : dependencies.Bounded) {left : Nat → Prop}
    (hback : ∀ target, left target → ∃ source, dependencies.Precedes source target ∧ left source)
    {position : Nat} (hleft : left position) : BehindCircle dependencies.Precedes position := by
  have hnone : ∀ place : { place : Fin dependencies.size //
      ¬ BehindCircle dependencies.Precedes place.val }, ¬ left place.val := by
    intro place
    induction place using wellFounded_off_circles.induction with
    | _ place ih =>
        intro hplace
        obtain ⟨source, hedge, hsource⟩ := hback _ hplace
        have hfree : ¬ BehindCircle dependencies.Precedes source :=
          fun hbehind => place.property (hbehind.tail hedge)
        exact ih ⟨⟨source, (hbounded _ _ hedge).1⟩, hfree⟩ (.single hedge) hsource
  by_contra hfree
  obtain ⟨source, hedge, -⟩ := hback position hleft
  exact hnone ⟨⟨position, (hbounded _ _ hedge).2⟩, hfree⟩ hleft

end Dependencies

namespace Sorting.Underway

variable {dependencies : Dependencies} {sorting : Sorting}

/-- Once nothing is ready, edges are left into the positions behind circles, and into no others. -/
theorem degree_pos_iff (h : Underway dependencies sorting) (hbounded : dependencies.Bounded)
    (hready : sorting.ready = []) (position : Nat) :
    0 < sorting.degree position ↔ BehindCircle dependencies.Precedes position := by
  have hleft (target : Nat) : 0 < sorting.degree target ↔
      ∃ source, dependencies.Precedes source target ∧ source ∉ sorting.order := by
    rw [h.degree_eq, Nat.pos_iff_ne_zero, ne_eq, Dependencies.pending_eq_zero_iff]
    push Not
    rfl
  have hback : ∀ target, 0 < sorting.degree target →
      ∃ source, dependencies.Precedes source target ∧ 0 < sorting.degree source := by
    intro target htarget
    obtain ⟨source, hedge, hsource⟩ := (hleft target).mp htarget
    refine ⟨source, hedge, Nat.pos_of_ne_zero fun hzero => ?_⟩
    -- A source without an edge left into it would be ready.
    have hmem := (h.mem_ready source).mpr
      ⟨hbounded.source_active hedge, hsource, h.degree_eq source ▸ hzero⟩
    exact absurd (hready ▸ hmem) List.not_mem_nil
  constructor
  · exact Dependencies.behindCircle_of_back hbounded hback
  · intro hbehind
    obtain ⟨source, hedge, hsource⟩ := hbehind.exists_source
    exact (hleft position).mpr ⟨source, hedge, hsource.not_mem h.precedes⟩

/-- Once nothing is ready, a position is released unless it is behind a circle. -/
theorem mem_order_iff (h : Underway dependencies sorting) (hbounded : dependencies.Bounded)
    (hready : sorting.ready = []) {position : Nat} (hactive : position ∈ dependencies.active) :
    position ∈ sorting.order ↔ ¬ BehindCircle dependencies.Precedes position := by
  refine ⟨fun hmem hbehind => hbehind.not_mem h.precedes hmem, fun hfree => ?_⟩
  by_contra hnew
  have hzero : sorting.degree position = 0 :=
    Nat.eq_zero_of_not_pos fun hpos => hfree ((h.degree_pos_iff hbounded hready position).mp hpos)
  have hmem := (h.mem_ready position).mpr ⟨hactive, hnew, h.degree_eq position ▸ hzero⟩
  exact absurd (hready ▸ hmem) List.not_mem_nil

end Sorting.Underway

namespace Dependencies

variable {dependencies : Dependencies}

/-- A sort that meets a circle gives the positions behind circles, in increasing order. What it
released up to then are all the other active positions, each after those that lead to it. -/
theorem sort?_cyclic (hbounded : dependencies.Bounded)
    (hcircle : ∃ position, BehindCircle dependencies.Precedes position) :
    ∃ left released : List Nat, dependencies.sort? = some (.cyclic left) ∧
      left.Sublist (List.range dependencies.size) ∧
      (∀ position, position ∈ left ↔ BehindCircle dependencies.Precedes position) ∧
      released.Nodup ∧
      (∀ position, position ∈ released ↔
        position ∈ dependencies.active ∧ ¬ BehindCircle dependencies.Precedes position) ∧
      ∀ source target, dependencies.Precedes source target → target ∈ released →
        released.idxOf source < released.idxOf target := by
  obtain ⟨final, hfinal, hend, -, hready⟩ := Sorting.exists_run? hbounded
  have hactive : ∀ position, BehindCircle dependencies.Precedes position →
      position ∈ dependencies.active := by
    intro position hbehind
    obtain ⟨source, hedge, -⟩ := hbehind.exists_source
    exact hbounded.target_active hedge
  -- A position behind a circle is active and not released, so fewer are released than active.
  have hlength : final.order.length < dependencies.active.length := by
    refine Nat.lt_of_not_le fun hle => ?_
    obtain ⟨position, hbehind⟩ := hcircle
    have hperm := hend.subperm_active.perm_of_length_le hle
    exact hbehind.not_mem hend.precedes (hperm.mem_iff.mpr (hactive position hbehind))
  refine ⟨dependencies.active.filter fun position => 0 < final.inDegrees.getD position 0,
    final.order, ?sorted, ?order, ?left, hend.nodup, fun position => ?_, hend.precedes⟩
  case sorted => rw [sort?, hfinal, Option.map_some, if_pos hlength]
  case order => exact List.filter_sublist.trans List.filter_sublist
  case left =>
    intro position
    rw [List.mem_filter, decide_eq_true_iff, List.getD_eq_getElem?_getD, ← Sorting.degree,
      hend.degree_pos_iff hbounded hready]
    exact and_iff_right_of_imp (hactive position)
  constructor
  · intro hmem
    have hposition := hend.active position hmem
    exact ⟨hposition, (hend.mem_order_iff hbounded hready hposition).mp hmem⟩
  · rintro ⟨hposition, hfree⟩
    exact (hend.mem_order_iff hbounded hready hposition).mpr hfree

end Dependencies

namespace Diagram

variable {diagram : Diagram}

/-- Some modules, this one among them, can be put in an order in which each comes after all that
it needs. -/
def IsOrderable (diagram : Diagram) (id : ModuleId) : Prop :=
  ∃ order : List ModuleId, order.Nodup ∧ id ∈ order ∧
    ∀ source target, diagram.Precedes source target → target ∈ order →
      order.idxOf source < order.idxOf target

/-- A module is behind a circle exactly if its place is. -/
theorem Charts.behindCircle_iff {dependencies : Dependencies} (h : diagram.Charts dependencies)
    (hcoherent : Coherent diagram.modules) (hbound : diagram.WiresBound) {id : ModuleId}
    {place : Nat} (hplace : diagram.position? id = some place) :
    BehindCircle dependencies.Precedes place ↔ BehindCircle diagram.Precedes id := by
  have hidAt (source target : Nat) (hedge : dependencies.Precedes source target) :=
    h.precedes_idAt hcoherent.nodup hedge
  constructor
  · rintro ⟨circle, hcircle, hpath⟩
    refine ⟨diagram.idAt circle, hcircle.lift diagram.idAt hidAt, ?_⟩
    rw [← idAt_of_position? hcoherent.nodup hplace]
    exact hpath.lift diagram.idAt hidAt
  · rintro ⟨circle, hcircle, hpath⟩
    obtain ⟨source, target, hsource, htarget, hreaches⟩ := h.exists_reaches hcoherent hbound hcircle
    obtain rfl : source = target := Option.some.inj (hsource.symm.trans htarget)
    obtain ⟨start, finish, hstart, hfinish, hahead⟩ :=
      h.exists_reaches hcoherent hbound (hcircle.trans_left hpath)
    obtain rfl : source = start := Option.some.inj (hsource.symm.trans hstart)
    obtain rfl : place = finish := Option.some.inj (hplace.symm.trans hfinish)
    exact ⟨source, hreaches, hahead.to_reflTransGen⟩

theorem map_idAt_range : (List.range diagram.modules.length).map diagram.idAt =
    diagram.modules.map Module.id := by
  refine List.ext_getElem (by simp) fun place hplace _ => ?_
  have hlt : place < diagram.modules.length := by simpa using hplace
  simp [idAt, hlt]

/-- A released module shows that it can be ordered. -/
theorem Charts.isOrderable {dependencies : Dependencies} (h : diagram.Charts dependencies)
    (hcoherent : Coherent diagram.modules) (hbound : diagram.WiresBound) {released : List Nat}
    (hnodup : released.Nodup) (hlt : ∀ place ∈ released, place < diagram.modules.length)
    (hprecedes : ∀ source target, dependencies.Precedes source target → target ∈ released →
      released.idxOf source < released.idxOf target)
    {place : Nat} (hplace : place ∈ released) : diagram.IsOrderable (diagram.idAt place) := by
  have hinj : ∀ first ∈ released, ∀ second ∈ released,
      diagram.idAt first = diagram.idAt second → first = second := by
    intro first hfirst second hsecond hid
    have hposition := position?_idAt hcoherent.nodup (hlt first hfirst)
    rw [hid, position?_idAt hcoherent.nodup (hlt second hsecond)] at hposition
    exact (Option.some.inj hposition).symm
  refine ⟨released.map diagram.idAt, hnodup.map_on hinj, List.mem_map_of_mem hplace, ?_⟩
  intro first second hneeds hsecond
  obtain ⟨source, target, hsource, htarget, hedge⟩ := h.exists_precedes hcoherent hbound hneeds
  obtain ⟨other, hother, hid⟩ := List.mem_map.mp hsecond
  have hsame : target = other := by
    rw [← hid, position?_idAt hcoherent.nodup (hlt other hother)] at htarget
    exact (Option.some.inj htarget).symm
  have hbefore := hprecedes source target hedge (hsame ▸ hother)
  have hmem : source ∈ released :=
    List.idxOf_lt_length_iff.mp (Nat.lt_of_lt_of_le hbefore List.idxOf_le_length)
  rw [← idAt_of_position? hcoherent.nodup hsource, ← idAt_of_position? hcoherent.nodup htarget,
    idxOf_map_of_inj fun candidate hcandidate => hinj candidate hcandidate source hmem,
    idxOf_map_of_inj fun candidate hcandidate => hinj candidate hcandidate target (hsame ▸ hother)]
  exact hbefore

/-- A description whose modules lead around in a circle is refused. The refusal names, each once and
in the order of the description, the modules on a circle or behind one: those of the connected
modules that could not have been ordered. -/
theorem compile_cyclic {description : Value} {name : String} {diagram : Diagram}
    (hparse : parse description name = .ok diagram) (hbound : diagram.WiresBound)
    (hcircle : ∃ id, Relation.TransGen diagram.Precedes id id) :
    ∃ nodes, Pipe.compile description name = .error (.cyclic nodes) ∧
      nodes.Nodup ∧ nodes.Sublist (diagram.modules.map Module.id) ∧
      (∀ id, id ∈ nodes ↔ BehindCircle diagram.Precedes id) ∧
      ∀ id, id ∈ nodes ↔ diagram.IsConnected id ∧ ¬ diagram.IsOrderable id := by
  have hcoherent := coherent_of_parse hparse
  obtain ⟨dependencies, hdependencies, hcharts⟩ := exists_dependencies hcoherent hbound
  have hbounded := hcharts.bounded
  have hplaced : ∀ id, BehindCircle diagram.Precedes id →
      ∃ place, diagram.position? id = some place := by
    intro id hbehind
    obtain ⟨source, hneeds, -⟩ := hbehind.exists_source
    exact Roster.exists_position? (hneeds.contains hcoherent hbound).2
  have hmeets : ∃ place, BehindCircle dependencies.Precedes place := by
    obtain ⟨id, hid⟩ := hcircle
    obtain ⟨place, hplace⟩ := hplaced id ⟨id, hid, .refl⟩
    exact ⟨place, (hcharts.behindCircle_iff hcoherent hbound hplace).mpr ⟨id, hid, .refl⟩⟩
  obtain ⟨left, released, hsort, hsublist, hleft, hnodup, hreleased, hprecedes⟩ :=
    Dependencies.sort?_cyclic hbounded hmeets
  have hlt : ∀ place ∈ dependencies.active, place < diagram.modules.length :=
    fun place hplace => hcharts.size_eq ▸ (Dependencies.mem_active.mp hplace).1
  have hnodes : (left.map diagram.idAt).Sublist (diagram.modules.map Module.id) := by
    rw [← map_idAt_range, ← hcharts.size_eq]
    exact hsublist.map diagram.idAt
  have hmem : ∀ id, id ∈ left.map diagram.idAt ↔ BehindCircle diagram.Precedes id := by
    intro id
    rw [List.mem_map]
    constructor
    · rintro ⟨place, hplace, rfl⟩
      have hrange : place < dependencies.size := List.mem_range.mp (hsublist.subset hplace)
      have hid := position?_idAt hcoherent.nodup (hcharts.size_eq ▸ hrange)
      exact (hcharts.behindCircle_iff hcoherent hbound hid).mp ((hleft place).mp hplace)
    · intro hbehind
      obtain ⟨place, hplace⟩ := hplaced id hbehind
      refine ⟨place, (hleft place).mpr ?_, idAt_of_position? hcoherent.nodup hplace⟩
      exact (hcharts.behindCircle_iff hcoherent hbound hplace).mpr hbehind
  refine ⟨left.map diagram.idAt, ?refused, hcoherent.nodup.sublist hnodes, hnodes, hmem,
    fun id => (hmem id).trans ⟨fun hbehind => ⟨?connected, ?unorderable⟩, ?behind⟩⟩
  case refused =>
    simp only [Pipe.compile, hparse, bind, Except.bind, compile, hdependencies, sortModules, hsort]
  case connected =>
    obtain ⟨source, hneeds, -⟩ := hbehind.exists_source
    exact ⟨source, .inr hneeds⟩
  case unorderable =>
    rintro ⟨order, -, hid, horder⟩
    exact hbehind.not_mem horder hid
  case behind =>
    rintro ⟨hconnected, hunorderable⟩
    obtain ⟨place, hplace⟩ := hconnected.exists_position? hcoherent hbound
    have hactive := (hcharts.active_iff hcoherent hbound hplace).mpr hconnected
    by_contra hfree
    rw [← hcharts.behindCircle_iff hcoherent hbound hplace] at hfree
    refine hunorderable (idAt_of_position? hcoherent.nodup hplace ▸ hcharts.isOrderable hcoherent
      hbound hnodup (fun other hother => hlt other ((hreleased other).mp hother).1) hprecedes
      ((hreleased place).mpr ⟨hactive, hfree⟩))

/-- Two modules that need each other, with one behind them and one before. -/
def roundTrip : Value :=
  .object ⟨[
    ("modules", .list [plainModule "sink" "output", plainModule "first" "count",
      plainModule "second" "count", plainModule "source" "fetch"]),
    ("wires", .list [plainWire "in" "source" "first", plainWire "there" "first" "second",
      plainWire "back" "second" "first", plainWire "out" "second" "sink"])]⟩

/-- What there is to read in that description. -/
def roundTripDiagram : Diagram :=
  { Roster.empty.pushAll [
      ⟨⟨"sink"⟩, "sink", "output", .empty, none⟩,
      ⟨⟨"first"⟩, "first", "count", .empty, none⟩,
      ⟨⟨"second"⟩, "second", "count", .empty, none⟩,
      ⟨⟨"source"⟩, "source", "fetch", .empty, none⟩] with
    name := "pipe"
    wires := [
      ⟨⟨"in"⟩, ⟨⟨"source"⟩, ⟨"_OUTPUT"⟩⟩, ⟨⟨"first"⟩, ⟨"_INPUT"⟩⟩⟩,
      ⟨⟨"there"⟩, ⟨⟨"first"⟩, ⟨"_OUTPUT"⟩⟩, ⟨⟨"second"⟩, ⟨"_INPUT"⟩⟩⟩,
      ⟨⟨"back"⟩, ⟨⟨"second"⟩, ⟨"_OUTPUT"⟩⟩, ⟨⟨"first"⟩, ⟨"_INPUT"⟩⟩⟩,
      ⟨⟨"out"⟩, ⟨⟨"second"⟩, ⟨"_OUTPUT"⟩⟩, ⟨⟨"sink"⟩, ⟨"_INPUT"⟩⟩⟩] }

theorem compile_cyclic_of_roundTrip :
    parse roundTrip "pipe" = .ok roundTripDiagram ∧ roundTripDiagram.WiresBound ∧
      Relation.TransGen roundTripDiagram.Precedes ⟨"first"⟩ ⟨"first"⟩ ∧
      Pipe.compile roundTrip "pipe" = .error (.cyclic [⟨"sink"⟩, ⟨"first"⟩, ⟨"second"⟩]) ∧
      BehindCircle roundTripDiagram.Precedes ⟨"sink"⟩ ∧
      ¬ roundTripDiagram.IsOrderable ⟨"sink"⟩ ∧
      ¬ BehindCircle roundTripDiagram.Precedes ⟨"source"⟩ := by
  have hparse : parse roundTrip "pipe" = .ok roundTripDiagram := by cbv
  have hbound : roundTripDiagram.WiresBound := by
    unfold WiresBound
    decide
  have hthere : roundTripDiagram.Precedes ⟨"first"⟩ ⟨"second"⟩ :=
    .inr ⟨_, List.mem_cons_of_mem _ List.mem_cons_self, rfl, rfl⟩
  have hback : roundTripDiagram.Precedes ⟨"second"⟩ ⟨"first"⟩ :=
    .inr ⟨_, List.mem_cons_of_mem _ (List.mem_cons_of_mem _ List.mem_cons_self), rfl, rfl⟩
  have hcircle : Relation.TransGen roundTripDiagram.Precedes ⟨"first"⟩ ⟨"first"⟩ :=
    .tail (.single hthere) hback
  have hrefused : Pipe.compile roundTrip "pipe" =
      .error (.cyclic [⟨"sink"⟩, ⟨"first"⟩, ⟨"second"⟩]) := by cbv
  obtain ⟨nodes, hnodes, -, -, hbehind, hunorderable⟩ := compile_cyclic hparse hbound ⟨_, hcircle⟩
  cases hrefused.symm.trans hnodes
  exact ⟨hparse, hbound, hcircle, hrefused, (hbehind _).mp (by decide),
    ((hunorderable ⟨"sink"⟩).mp (by decide)).2, (hbehind ⟨"source"⟩).not.mp (by decide)⟩

end Diagram

end Pipework
