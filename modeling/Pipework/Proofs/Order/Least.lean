import Mathlib
import Pipework.Proofs.Order.Release

/-! # The least order

A sort always comes to an end. It finds an order exactly if no edges lead around in a circle, and
the order that it finds is the least of all in the order of dictionaries.
-/

namespace Pipework

namespace Dependencies

/-- Edges lead from the first position to the second. -/
def Reaches (dependencies : Dependencies) : Nat → Nat → Prop :=
  Relation.TransGen dependencies.Precedes

/-- No position leads back to itself. -/
def Acyclic (dependencies : Dependencies) : Prop :=
  ∀ position, ¬ dependencies.Reaches position position

/-- Every active position once, each after all that leads to it. -/
structure IsOrder (dependencies : Dependencies) (order : List Nat) : Prop where
  nodup : order.Nodup
  mem_iff : ∀ position, position ∈ order ↔ position ∈ dependencies.active
  precedes : ∀ source target, dependencies.Precedes source target →
    order.idxOf source < order.idxOf target

/-- Each of the positions can come next after those before it. -/
def Legal (dependencies : Dependencies) (done : List Nat) : List Nat → Prop
  | [] => True
  | position :: rest => dependencies.Available done position ∧
      dependencies.Legal (done ++ [position]) rest

/-- Each of the positions is the least of those that can come next after the ones before it. -/
def Eager (dependencies : Dependencies) (done : List Nat) : List Nat → Prop
  | [] => True
  | position :: rest => dependencies.Available done position ∧
      (∀ other, dependencies.Available done other → position ≤ other) ∧
      dependencies.Eager (done ++ [position]) rest

variable {dependencies : Dependencies}

theorem IsOrder.acyclic {order : List Nat} (h : dependencies.IsOrder order) :
    dependencies.Acyclic := by
  have hreaches : ∀ source target, dependencies.Reaches source target →
      order.idxOf source < order.idxOf target := by
    intro source target hpath
    induction hpath with
    | single hedge => exact h.precedes _ _ hedge
    | tail _ hedge ih => exact ih.trans (h.precedes _ _ hedge)
  exact fun position hcircle => lt_irrefl _ (hreaches position position hcircle)

/-- Two orders have the same positions. -/
theorem IsOrder.perm {first second : List Nat} (hfirst : dependencies.IsOrder first)
    (hsecond : dependencies.IsOrder second) : first.Perm second :=
  (List.perm_ext_iff_of_nodup hfirst.nodup hsecond.nodup).mpr fun position =>
    (hfirst.mem_iff position).trans (hsecond.mem_iff position).symm

theorem IsOrder.legal {done rest : List Nat} (h : dependencies.IsOrder (done ++ rest)) :
    dependencies.Legal done rest := by
  induction rest generalizing done with
  | nil => trivial
  | cons position rest ih =>
      obtain ⟨_, _, hdisjoint⟩ := List.nodup_append.mp h.nodup
      have hnew : position ∉ done := fun hmem =>
        hdisjoint position hmem position List.mem_cons_self rfl
      refine ⟨⟨(h.mem_iff position).mp (by simp), hnew, ?_⟩, ih (by simpa using h)⟩
      intro source hedge
      have hbefore := h.precedes source position hedge
      have hplace : (done ++ position :: rest).idxOf position = done.length := by
        rw [List.idxOf_append_of_notMem hnew, List.idxOf_cons_self, Nat.add_zero]
      by_contra hsource
      rw [List.idxOf_append_of_notMem hsource, hplace] at hbefore
      exact absurd hbefore (Nat.not_lt.mpr (Nat.le_add_right _ _))

/-- Where each position is the least that can come next, no legal order is smaller. -/
theorem Eager.least {done first second : List Nat} (hfirst : dependencies.Eager done first)
    (hsecond : dependencies.Legal done second) (hlength : first.length = second.length) :
    first = second ∨ List.Lex (· < ·) first second := by
  induction first generalizing done second with
  | nil => exact .inl (List.length_eq_zero_iff.mp hlength.symm).symm
  | cons position rest ih =>
      cases second with
      | nil => simp at hlength
      | cons other others =>
          obtain ⟨-, hleast, hrest⟩ := hfirst
          obtain ⟨havailable, hothers⟩ := hsecond
          rcases Nat.lt_or_eq_of_le (hleast other havailable) with hlt | rfl
          · exact .inr (.rel hlt)
          · rcases ih hrest hothers (Nat.succ.inj hlength) with rfl | hlex
            · exact .inl rfl
            · exact .inr (.cons hlex)

/-- Two such lists that both go on as far as they can are the same. -/
theorem Eager.eq {done first second : List Nat} (hfirst : dependencies.Eager done first)
    (hsecond : dependencies.Eager done second)
    (hfirstEnd : ∀ position, ¬ dependencies.Available (done ++ first) position)
    (hsecondEnd : ∀ position, ¬ dependencies.Available (done ++ second) position) :
    first = second := by
  induction first generalizing done second with
  | nil =>
      cases second with
      | nil => rfl
      | cons other others => exact absurd hsecond.1 (by simpa using hfirstEnd other)
  | cons position rest ih =>
      cases second with
      | nil => exact absurd hfirst.1 (by simpa using hsecondEnd position)
      | cons other others =>
          obtain ⟨hposition, hleast, hrest⟩ := hfirst
          obtain ⟨hother, hotherLeast, hothers⟩ := hsecond
          obtain rfl : position = other :=
            le_antisymm (hleast other hother) (hotherLeast position hposition)
          rw [ih hrest hothers (by simpa using hfirstEnd) (by simpa using hsecondEnd)]

theorem active_of_edges {relisted : Dependencies} (hsize : relisted.size = dependencies.size)
    (hedges : ∀ edge, edge ∈ relisted.edges ↔ edge ∈ dependencies.edges) :
    relisted.active = dependencies.active := by
  have hactive : relisted.isActive = dependencies.isActive := by
    funext position
    rw [isActive, isActive, Bool.eq_iff_iff, List.any_eq_true, List.any_eq_true]
    simp only [hedges]
  rw [active, active, hsize, hactive]

theorem available_of_edges {relisted : Dependencies} (hsize : relisted.size = dependencies.size)
    (hedges : ∀ edge, edge ∈ relisted.edges ↔ edge ∈ dependencies.edges) :
    relisted.Available = dependencies.Available := by
  funext order position
  simp only [Available, active_of_edges hsize hedges, Precedes, hedges]

theorem eager_of_edges {relisted : Dependencies} (hsize : relisted.size = dependencies.size)
    (hedges : ∀ edge, edge ∈ relisted.edges ↔ edge ∈ dependencies.edges) {done order : List Nat}
    (h : relisted.Eager done order) : dependencies.Eager done order := by
  induction order generalizing done with
  | nil => trivial
  | cons position rest ih =>
      have havailable := available_of_edges hsize hedges
      exact ⟨havailable ▸ h.1, havailable ▸ h.2.1, ih h.2.2⟩

/-- Without a circle the edges can be followed back only so far. -/
theorem Acyclic.wellFounded (h : dependencies.Acyclic) :
    WellFounded fun source target : Fin dependencies.size =>
      dependencies.Reaches source target := by
  have htrans : IsTrans (Fin dependencies.size) fun source target =>
      dependencies.Reaches source target := ⟨fun _ _ _ => Relation.TransGen.trans⟩
  have hirrefl : Std.Irrefl fun source target : Fin dependencies.size =>
      dependencies.Reaches source target := ⟨fun position => h position⟩
  exact Finite.wellFounded_of_trans_of_irrefl _

end Dependencies

namespace Sorting

namespace Underway

variable {dependencies : Dependencies} {sorting : Sorting}

/-- A sort goes on as long as there is fuel and something to release. Each position that it
releases is the least that can come next. -/
theorem run (h : Underway dependencies sorting) (hbounded : dependencies.Bounded) (fuel : Nat) :
    ∃ final tail, run? dependencies fuel sorting = some final ∧ Underway dependencies final ∧
      final.order = sorting.order ++ tail ∧ dependencies.Eager sorting.order tail ∧
      (final.ready = [] ∨ tail.length = fuel) := by
  induction fuel generalizing sorting with
  | zero => exact ⟨sorting, [], rfl, h, (List.append_nil _).symm, trivial, .inr rfl⟩
  | succ fuel ih =>
      cases hready : sorting.ready with
      | nil =>
          refine ⟨sorting, [], ?_, h, (List.append_nil _).symm, trivial, .inl hready⟩
          simp only [run?, hready]
      | cons position rest =>
          obtain ⟨next, hnext, horder, hunderway⟩ := h.release hbounded hready
          obtain ⟨final, tail, hfinal, hend, htail, heager, hstop⟩ := ih hunderway
          have havailable := (h.mem_ready_iff position).mp (hready ▸ List.mem_cons_self)
          refine ⟨final, position :: tail, ?_, hend, ?_, ⟨havailable, ?_, horder ▸ heager⟩, ?_⟩
          · simp only [run?, hready]
            rw [hnext]
            exact hfinal
          · rw [htail, horder, List.append_assoc]
            rfl
          · intro other hother
            have hsorted := h.sorted
            rw [hready] at hsorted
            replace hother := (h.mem_ready_iff other).mpr hother
            rw [hready, List.mem_cons] at hother
            rcases hother with rfl | hother
            · exact le_rfl
            · exact le_of_lt ((List.pairwise_cons.mp hsorted).1 other hother)
          · exact hstop.imp_right fun hlength => congrArg (· + 1) hlength

theorem subset_active (h : Underway dependencies sorting) :
    sorting.order ⊆ dependencies.active :=
  fun position hposition => h.active position hposition

theorem subperm_active (h : Underway dependencies sorting) :
    sorting.order.Subperm dependencies.active :=
  List.subperm_of_subset h.nodup h.subset_active

/-- Once as many positions are released as there are active ones, they are in order. -/
theorem isOrder (h : Underway dependencies sorting) (hbounded : dependencies.Bounded)
    (hlength : dependencies.active.length ≤ sorting.order.length) :
    dependencies.IsOrder sorting.order := by
  have hperm := h.subperm_active.perm_of_length_le hlength
  refine ⟨h.nodup, fun position => hperm.mem_iff, fun source target hedge => ?_⟩
  exact h.precedes source target hedge (hperm.mem_iff.mpr (hbounded.target_active hedge))

/-- As many positions as the size allows leave nothing ready. -/
theorem ready_eq_nil (h : Underway dependencies sorting)
    (hlength : sorting.order.length = dependencies.size) : sorting.ready = [] := by
  rw [List.eq_nil_iff_forall_not_mem]
  intro position hready
  obtain ⟨hactive, hnew, -⟩ := (h.mem_ready position).mp hready
  have hall : dependencies.active.length ≤ sorting.order.length := by
    rw [hlength]
    exact (List.length_filter_le _ _).trans_eq List.length_range
  exact hnew ((h.subperm_active.perm_of_length_le hall).mem_iff.mpr hactive)

/-- Without a circle nothing is left over once nothing is ready. -/
theorem active_subset (h : Underway dependencies sorting) (hbounded : dependencies.Bounded)
    (hacyclic : dependencies.Acyclic) (hready : sorting.ready = []) :
    dependencies.active ⊆ sorting.order := by
  have hall : ∀ position : Fin dependencies.size, position.val ∈ dependencies.active →
      position.val ∈ sorting.order := by
    intro position
    induction position using hacyclic.wellFounded.induction with
    | _ position ih =>
        intro hactive
        by_contra hnew
        have hnot := (h.mem_ready_iff position).not.mp (hready ▸ List.not_mem_nil)
        refine hnot ⟨hactive, hnew, fun source hedge => ?_⟩
        exact ih ⟨source, (hbounded _ _ hedge).1⟩ (.single hedge) (hbounded.source_active hedge)
  intro position hactive
  exact hall ⟨position, (Dependencies.mem_active.mp hactive).1⟩ hactive

end Underway

/-- A sort ends with nothing ready, and what it has released up to then was always the least. -/
theorem exists_run? {dependencies : Dependencies} (hbounded : dependencies.Bounded) :
    ∃ final, run? dependencies dependencies.size (.start dependencies) = some final ∧
      Underway dependencies final ∧ dependencies.Eager [] final.order ∧ final.ready = [] := by
  obtain ⟨final, tail, hfinal, hend, htail, heager, hstop⟩ :=
    (Underway.start hbounded).run hbounded dependencies.size
  obtain rfl : final.order = tail := htail
  exact ⟨final, hfinal, hend, heager, hstop.elim id hend.ready_eq_nil⟩

end Sorting

namespace Dependencies

variable {dependencies : Dependencies}

/-- A sort never has to take away an edge that is not there. -/
theorem sort?_ne_none (hbounded : dependencies.Bounded) : dependencies.sort? ≠ none := by
  obtain ⟨final, hfinal, -⟩ := Sorting.exists_run? hbounded
  simp [sort?, hfinal]

/-- An order that is found is an order, and the least. -/
theorem sort?_sorted (hbounded : dependencies.Bounded) {order : List Nat}
    (h : dependencies.sort? = some (.sorted order)) : dependencies.IsOrder order ∧
      ∀ other, dependencies.IsOrder other → order = other ∨ List.Lex (· < ·) order other := by
  obtain ⟨final, hfinal, hend, heager, -⟩ := Sorting.exists_run? hbounded
  simp only [sort?, hfinal, Option.map_some, Option.some.injEq] at h
  split at h
  · cases h
  next hlength =>
    obtain rfl : final.order = order := SortResult.sorted.inj h
    have hisOrder := hend.isOrder hbounded (Nat.le_of_not_lt hlength)
    exact ⟨hisOrder, fun other hother =>
      heager.least hother.legal (hisOrder.perm hother).length_eq⟩

/-- An order is found exactly if there is no circle. -/
theorem exists_sorted_iff (hbounded : dependencies.Bounded) :
    (∃ order, dependencies.sort? = some (.sorted order)) ↔ dependencies.Acyclic := by
  constructor
  · rintro ⟨order, horder⟩
    exact (sort?_sorted hbounded horder).1.acyclic
  · intro hacyclic
    obtain ⟨final, hfinal, hend, -, hready⟩ := Sorting.exists_run? hbounded
    have hsubset := hend.active_subset hbounded hacyclic hready
    have hlength : dependencies.active.length ≤ final.order.length :=
      (List.subperm_of_subset (List.nodup_range.filter _) hsubset).length_le
    refine ⟨final.order, ?_⟩
    simp [sort?, hfinal, Nat.not_lt.mpr hlength]

/-- What sorting comes to depends only on which edges there are, not on how they are listed. -/
theorem sort?_of_edges (hbounded : dependencies.Bounded) {relisted : Dependencies}
    (hsize : relisted.size = dependencies.size)
    (hedges : ∀ edge, edge ∈ relisted.edges ↔ edge ∈ dependencies.edges) :
    relisted.sort? = dependencies.sort? := by
  have hrelisted : relisted.Bounded := by
    intro source target hedge
    rw [hsize]
    exact hbounded source target ((hedges _).mp hedge)
  obtain ⟨final, hfinal, hend, heager, hready⟩ := Sorting.exists_run? hbounded
  obtain ⟨other, hother, hotherEnd, hotherEager, hotherReady⟩ := Sorting.exists_run? hrelisted
  have horder : other.order = final.order := by
    refine (eager_of_edges hsize hedges hotherEager).eq heager ?_ ?_
    · intro position havailable
      rw [List.nil_append, ← available_of_edges hsize hedges, ← hotherEnd.mem_ready_iff] at havailable
      rw [hotherReady] at havailable
      cases havailable
    · intro position havailable
      rw [List.nil_append, ← hend.mem_ready_iff, hready] at havailable
      cases havailable
  have hdegree (position : Nat) :
      0 < other.inDegrees.getD position 0 ↔ 0 < final.inDegrees.getD position 0 := by
    rw [List.getD_eq_getElem?_getD, List.getD_eq_getElem?_getD, ← Sorting.degree, ← Sorting.degree,
      hotherEnd.degree_eq, hend.degree_eq, Nat.pos_iff_ne_zero, Nat.pos_iff_ne_zero, ne_eq, ne_eq,
      pending_eq_zero_iff, pending_eq_zero_iff, horder]
    simp only [Precedes, hedges]
  rw [sort?, sort?, hother, hfinal, Option.map_some, Option.map_some, horder,
    active_of_edges hsize hedges]
  simp only [hdegree]

end Dependencies

end Pipework
