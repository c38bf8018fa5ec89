import Mathlib
import Pipework.Diagram.Order

/-! # Releasing positions

One release of the sort takes away the edges out of the released position. `Sorting.Underway` says
what a sort keeps to: the edges that are left are those from positions not yet released, and the
ready positions are those without such an edge.
-/

namespace Pipework

namespace Dependencies

/-- An edge leads from the first position to the second. -/
def Precedes (dependencies : Dependencies) (source target : Nat) : Prop :=
  (source, target) ∈ dependencies.edges

/-- Edges join positions below the size. -/
def Bounded (dependencies : Dependencies) : Prop :=
  ∀ source target, dependencies.Precedes source target →
    source < dependencies.size ∧ target < dependencies.size

/-- The number of edges into a position from positions that have not been released. -/
def pending (dependencies : Dependencies) (order : List Nat) (position : Nat) : Nat :=
  dependencies.edges.countP fun edge => edge.2 == position && decide (edge.1 ∉ order)

/-- A position that can come next: it is active and new, and all that leads to it is there. -/
def Available (dependencies : Dependencies) (order : List Nat) (position : Nat) : Prop :=
  position ∈ dependencies.active ∧ position ∉ order ∧
    ∀ source, dependencies.Precedes source position → source ∈ order

variable {dependencies : Dependencies}

theorem mem_active {position : Nat} : position ∈ dependencies.active ↔
    position < dependencies.size ∧ ∃ other,
      dependencies.Precedes position other ∨ dependencies.Precedes other position := by
  rw [active, List.mem_filter, List.mem_range, isActive, List.any_eq_true]
  refine and_congr_right fun _ => ?_
  constructor
  · rintro ⟨⟨source, target⟩, hedge, htouch⟩
    rcases (Bool.or_eq_true _ _).mp htouch with hsource | htarget
    · obtain rfl : source = position := by simpa using hsource
      exact ⟨target, .inl hedge⟩
    · obtain rfl : target = position := by simpa using htarget
      exact ⟨source, .inr hedge⟩
  · rintro ⟨other, hedge | hedge⟩
    · exact ⟨_, hedge, by simp⟩
    · exact ⟨_, hedge, by simp⟩

theorem Bounded.source_active (h : dependencies.Bounded) {source target : Nat}
    (hedge : dependencies.Precedes source target) : source ∈ dependencies.active :=
  mem_active.mpr ⟨(h _ _ hedge).1, target, .inl hedge⟩

theorem Bounded.target_active (h : dependencies.Bounded) {source target : Nat}
    (hedge : dependencies.Precedes source target) : target ∈ dependencies.active :=
  mem_active.mpr ⟨(h _ _ hedge).2, source, .inr hedge⟩

theorem pending_eq_zero_iff {order : List Nat} {position : Nat} :
    dependencies.pending order position = 0 ↔
      ∀ source, dependencies.Precedes source position → source ∈ order := by
  rw [pending, List.countP_eq_zero]
  constructor
  · intro h source hedge
    by_contra hnot
    exact h _ hedge (by simpa using hnot)
  · rintro h ⟨source, target⟩ hedge htouch
    obtain ⟨rfl, hnot⟩ : target = position ∧ source ∉ order := by simpa using htouch
    exact hnot (h source hedge)

theorem pending_nil (position : Nat) :
    dependencies.pending [] position = dependencies.inDegree position := by
  simp [pending, inDegree]

theorem mem_targets {position target : Nat} :
    target ∈ dependencies.targets position ↔ dependencies.Precedes position target := by
  rw [targets, List.mem_filterMap]
  constructor
  · rintro ⟨⟨source, other⟩, hedge, hsome⟩
    by_cases heq : source = position
    · obtain rfl : other = target := by simpa [heq] using hsome
      exact heq ▸ hedge
    · simp [heq] at hsome
  · exact fun hedge => ⟨_, hedge, if_pos rfl⟩

/-- Releasing a position takes away as many edges into another as lead there. -/
theorem pending_snoc {order : List Nat} {released : Nat} (hnew : released ∉ order)
    (position : Nat) : dependencies.pending order position =
      dependencies.pending (order ++ [released]) position +
        (dependencies.targets released).count position := by
  rw [pending, pending, targets, List.count_filterMap]
  induction dependencies.edges with
  | nil => rfl
  | cons edge rest ih =>
      obtain ⟨source, target⟩ := edge
      simp only [List.countP_cons, ih]
      by_cases htarget : target = position
      · by_cases hsource : source = released
        · subst htarget hsource
          simp [hnew]
          omega
        · subst htarget
          simp [hsource]
          omega
      · by_cases hsource : source = released <;> simp [htarget, hsource]

end Dependencies

namespace Sorting

/-- How many edges into a position are left. -/
def degree (sorting : Sorting) (position : Nat) : Nat :=
  sorting.inDegrees[position]?.getD 0

theorem mem_insertReady {position other : Nat} {ready : List Nat} :
    other ∈ insertReady position ready ↔ other = position ∨ other ∈ ready := by
  induction ready with
  | nil => simp [insertReady]
  | cons head rest ih =>
      rw [insertReady]
      split
      · exact List.mem_cons
      · rw [List.mem_cons, ih, List.mem_cons]
        exact or_left_comm

theorem pairwise_insertReady {position : Nat} {ready : List Nat}
    (hready : ready.Pairwise (· < ·)) (hnew : position ∉ ready) :
    (insertReady position ready).Pairwise (· < ·) := by
  induction ready with
  | nil => exact List.pairwise_singleton _ _
  | cons head rest ih =>
      obtain ⟨hhead, hrest⟩ := List.pairwise_cons.mp hready
      obtain ⟨hne, hnot⟩ := List.ne_and_not_mem_of_not_mem_cons hnew
      rw [insertReady]
      split
      next hle =>
        have hlt : position < head := Nat.lt_of_le_of_ne hle hne
        refine List.pairwise_cons.mpr ⟨?_, hready⟩
        intro other hother
        rcases List.mem_cons.mp hother with rfl | hother
        · exact hlt
        · exact Nat.lt_trans hlt (hhead other hother)
      next hnle =>
        refine List.pairwise_cons.mpr ⟨?_, ih hrest hnot⟩
        intro other hother
        rcases mem_insertReady.mp hother with rfl | hother
        · exact Nat.lt_of_not_le hnle
        · exact hhead other hother

/-- An edge that is there can be taken away; the last one makes the position ready. -/
theorem settle?_of_degree_pos {sorting : Sorting} {target : Nat} (h : 0 < sorting.degree target) :
    ∃ next, sorting.settle? target = some next ∧ next.order = sorting.order ∧
      (∀ position, next.degree position =
        if position = target then sorting.degree target - 1 else sorting.degree position) ∧
      next.ready = if sorting.degree target = 1 then insertReady target sorting.ready
        else sorting.ready := by
  cases hdegree : sorting.inDegrees[target]? with
  | none => simp [degree, hdegree] at h
  | some left =>
      obtain ⟨left, rfl⟩ : ∃ less, left = less + 1 :=
        Nat.exists_eq_succ_of_ne_zero (by simpa [degree, hdegree] using Nat.ne_of_gt h)
      have hlt : target < sorting.inDegrees.length := (List.getElem?_eq_some_iff.mp hdegree).1
      refine ⟨{ sorting with
          inDegrees := sorting.inDegrees.set target left
          ready := if left = 0 then insertReady target sorting.ready else sorting.ready },
        by simp only [settle?, hdegree], rfl, ?_, ?_⟩
      · intro position
        by_cases heq : position = target
        · subst heq
          have hheld : sorting.degree position = left + 1 := by simp [degree, hdegree]
          rw [if_pos rfl, hheld]
          simp [degree, hlt]
        · simp [degree, heq, List.getElem?_set_ne (Ne.symm heq)]
      · simp [degree, hdegree]

/-- Edges that are there can be taken away one after the other. A position becomes ready with the
last edge into it. -/
theorem settleAll?_of_count_le {sorting : Sorting} {targets : List Nat}
    (hcount : ∀ position, targets.count position ≤ sorting.degree position)
    (hready : sorting.ready.Pairwise (· < ·))
    (hzero : ∀ position ∈ sorting.ready, sorting.degree position = 0) :
    ∃ next, sorting.settleAll? targets = some next ∧ next.order = sorting.order ∧
      (∀ position, next.degree position = sorting.degree position - targets.count position) ∧
      next.ready.Pairwise (· < ·) ∧
      ∀ position, position ∈ next.ready ↔ position ∈ sorting.ready ∨
        (position ∈ targets ∧ sorting.degree position = targets.count position) := by
  induction targets generalizing sorting with
  | nil => exact ⟨sorting, rfl, rfl, by simp, hready, by simp⟩
  | cons target rest ih =>
      have hpos : 0 < sorting.degree target := by
        have htarget := hcount target
        rw [List.count_cons_self] at htarget
        omega
      obtain ⟨middle, hsettle, horder, hdegree, hmiddle⟩ := settle?_of_degree_pos hpos
      have hnew : target ∉ sorting.ready := fun hmem =>
        Nat.ne_of_gt hpos (hzero target hmem)
      have hpairwise : middle.ready.Pairwise (· < ·) := by
        rw [hmiddle]
        split
        · exact pairwise_insertReady hready hnew
        · exact hready
      have hmem (position : Nat) : position ∈ middle.ready ↔ position ∈ sorting.ready ∨
          (position = target ∧ sorting.degree target = 1) := by
        rw [hmiddle]
        split
        next hone => simp [mem_insertReady, hone, or_comm]
        next hmore => simp [hmore]
      have hcountRest : ∀ position, rest.count position ≤ middle.degree position := by
        intro position
        have hposition := hcount position
        rw [List.count_cons] at hposition
        rw [hdegree]
        by_cases heq : position = target
        · subst heq
          simp only [beq_self_eq_true, if_true] at hposition ⊢
          omega
        · rw [if_neg heq]
          omega
      -- The target is ready only if this was the last edge into it, and no other degree changes.
      have hzeroMiddle : ∀ position ∈ middle.ready, middle.degree position = 0 := by
        intro position hposition
        rw [hdegree]
        rcases (hmem position).mp hposition with hbefore | ⟨rfl, hone⟩
        · rw [if_neg (ne_of_mem_of_not_mem hbefore hnew)]
          exact hzero position hbefore
        · rw [if_pos rfl, hone]
      obtain ⟨next, hnext, hnextOrder, hnextDegree, hnextReady, hnextMem⟩ :=
        ih hcountRest hpairwise hzeroMiddle
      refine ⟨next, ?_, hnextOrder.trans horder, ?_, hnextReady, ?_⟩
      · rw [settleAll?, hsettle]
        exact hnext
      · intro position
        rw [hnextDegree, hdegree, List.count_cons]
        by_cases heq : position = target
        · subst heq
          simp only [beq_self_eq_true, if_true]
          omega
        · simp [heq, Ne.symm heq]
      · intro position
        rw [hnextMem, hmem, hdegree, List.mem_cons, List.count_cons]
        by_cases heq : position = target
        · subst heq
          have hrest := hcount position
          rw [List.count_cons_self] at hrest
          simp only [beq_self_eq_true, if_true, true_and, true_or]
          by_cases hin : position ∈ rest
          · have hsome := List.count_pos_iff.mpr hin
            have hmore : sorting.degree position ≠ 1 := by omega
            have hlast : sorting.degree position - 1 = rest.count position ↔
                sorting.degree position = rest.count position + 1 := by omega
            simp only [hin, hmore, hlast, true_and, or_false]
          · have hnone : rest.count position = 0 := List.count_eq_zero.mpr hin
            simp only [hin, hnone, false_and, or_false]
        · simp [heq, Ne.symm heq]

/-- What a sort keeps to from its start to its end. -/
structure Underway (dependencies : Dependencies) (sorting : Sorting) : Prop where
  degree_eq : ∀ position,
    sorting.degree position = dependencies.pending sorting.order position
  sorted : sorting.ready.Pairwise (· < ·)
  mem_ready : ∀ position, position ∈ sorting.ready ↔ position ∈ dependencies.active ∧
    position ∉ sorting.order ∧ dependencies.pending sorting.order position = 0
  active : ∀ position ∈ sorting.order, position ∈ dependencies.active
  nodup : sorting.order.Nodup
  /-- What leads to a released position was released before it. -/
  precedes : ∀ source target, dependencies.Precedes source target → target ∈ sorting.order →
    sorting.order.idxOf source < sorting.order.idxOf target

namespace Underway

variable {dependencies : Dependencies} {sorting : Sorting}

theorem start (hbounded : dependencies.Bounded) :
    Underway dependencies (.start dependencies) where
  degree_eq := by
    intro position
    have hinDegree : dependencies.pending [] position = dependencies.inDegree position :=
      Dependencies.pending_nil position
    rw [degree, Sorting.start, List.getElem?_map]
    by_cases hlt : position < dependencies.size
    · rw [List.getElem?_range hlt, hinDegree]
      rfl
    · have hnone : dependencies.pending [] position = 0 := by
        rw [Dependencies.pending_eq_zero_iff]
        exact fun source hedge => absurd (hbounded _ _ hedge).2 hlt
      rw [List.getElem?_eq_none (by simpa using hlt), hnone]
      rfl
  sorted := (List.pairwise_lt_range.filter _).filter _
  mem_ready := by
    intro position
    simp [Sorting.start, Dependencies.pending_nil]
  active := fun _ hmem => absurd hmem List.not_mem_nil
  nodup := List.nodup_nil
  precedes := fun _ _ _ hmem => absurd hmem List.not_mem_nil

/-- The ready positions are those that can come next. -/
theorem mem_ready_iff (h : Underway dependencies sorting) (position : Nat) :
    position ∈ sorting.ready ↔ dependencies.Available sorting.order position := by
  rw [h.mem_ready, Dependencies.pending_eq_zero_iff]
  rfl

theorem source_mem (h : Underway dependencies sorting) {source target : Nat}
    (hedge : dependencies.Precedes source target) (htarget : target ∈ sorting.order) :
    source ∈ sorting.order :=
  List.idxOf_lt_length_iff.mp
    (Nat.lt_of_lt_of_le (h.precedes source target hedge htarget) List.idxOf_le_length)

/-- Releasing the first of the ready positions comes off, and keeps to all that a sort keeps to. -/
theorem release (h : Underway dependencies sorting) (hbounded : dependencies.Bounded)
    {position : Nat} {rest : List Nat} (hready : sorting.ready = position :: rest) :
    ∃ next, { sorting with ready := rest, order := sorting.order ++ [position] }.settleAll?
        (dependencies.targets position) = some next ∧
      next.order = sorting.order ++ [position] ∧ Underway dependencies next := by
  obtain ⟨hactive, hnew, hnone⟩ := (h.mem_ready position).mp (hready ▸ List.mem_cons_self)
  have hsorted := h.sorted
  rw [hready] at hsorted
  obtain ⟨hleast, hrest⟩ := List.pairwise_cons.mp hsorted
  have hpending (other : Nat) := dependencies.pending_snoc hnew other
  -- The edges out of the position are all pending, since it is released only now.
  have hcount (other : Nat) : (dependencies.targets position).count other ≤
      Sorting.degree { sorting with ready := rest, order := sorting.order ++ [position] } other := by
    have hdegree := h.degree_eq other
    have hother := hpending other
    simp only [degree] at hdegree ⊢
    omega
  have hzero : ∀ other ∈ rest, sorting.degree other = 0 := by
    intro other hother
    rw [h.degree_eq]
    exact ((h.mem_ready other).mp (hready ▸ List.mem_cons_of_mem _ hother)).2.2
  obtain ⟨next, hnext, horder, hdegree, hpairwise, hmem⟩ :=
    settleAll?_of_count_le hcount hrest hzero
  replace horder : next.order = sorting.order ++ [position] := horder
  refine ⟨next, hnext, horder, ?degree_eq, hpairwise, ?mem_ready, ?active, ?nodup, ?precedes⟩
  case degree_eq =>
    intro other
    have hbefore := h.degree_eq other
    have hother := hpending other
    rw [hdegree, horder]
    simp only [degree] at hbefore ⊢
    omega
  case mem_ready =>
    intro other
    have hdegreeOther : Sorting.degree { sorting with
        ready := rest, order := sorting.order ++ [position] } other =
          dependencies.pending sorting.order other := h.degree_eq other
    rw [hmem, hdegreeOther, Dependencies.mem_targets, horder, List.mem_append,
      List.mem_singleton, not_or]
    constructor
    · rintro (hrest' | ⟨hedge, hlast⟩)
      · obtain ⟨hotherActive, hotherNew, hotherNone⟩ :=
          (h.mem_ready other).mp (hready ▸ List.mem_cons_of_mem _ hrest')
        have hother := hpending other
        exact ⟨hotherActive, ⟨hotherNew, Nat.ne_of_gt (hleast other hrest')⟩, by omega⟩
      -- What has waited for this position only becomes ready with it.
      · have hother := hpending other
        refine ⟨hbounded.target_active hedge, ⟨?_, ?_⟩, by omega⟩
        · exact fun hdone => hnew (h.source_mem hedge hdone)
        · rintro rfl
          exact hnew (Dependencies.pending_eq_zero_iff.mp hnone _ hedge)
    · rintro ⟨hotherActive, ⟨hotherNew, hne⟩, hotherNone⟩
      have hother := hpending other
      by_cases hedge : dependencies.Precedes position other
      · exact .inr ⟨hedge, by omega⟩
      · have hcountNone : (dependencies.targets position).count other = 0 :=
          List.count_eq_zero.mpr (mt Dependencies.mem_targets.mp hedge)
        have hin : other ∈ position :: rest :=
          hready ▸ (h.mem_ready other).mpr ⟨hotherActive, hotherNew, by omega⟩
        exact .inl ((List.mem_cons.mp hin).resolve_left hne)
  case active =>
    intro other hother
    rw [horder, List.mem_append, List.mem_singleton] at hother
    rcases hother with hother | rfl
    · exact h.active other hother
    · exact hactive
  case nodup =>
    rw [horder]
    refine List.nodup_append.mpr ⟨h.nodup, List.pairwise_singleton _ _, ?_⟩
    intro other hother last hlast
    exact List.mem_singleton.mp hlast ▸ ne_of_mem_of_not_mem hother hnew
  case precedes =>
    intro source target hedge htarget
    rw [horder, List.mem_append, List.mem_singleton] at htarget
    rw [horder]
    rcases htarget with htarget | rfl
    · rw [List.idxOf_append_of_mem htarget, List.idxOf_append_of_mem (h.source_mem hedge htarget)]
      exact h.precedes source target hedge htarget
    · have hsource := Dependencies.pending_eq_zero_iff.mp hnone source hedge
      rw [List.idxOf_append_of_mem hsource, List.idxOf_append_of_notMem hnew]
      exact Nat.lt_add_right _ (List.idxOf_lt_length_iff.mpr hsource)

end Underway

end Sorting

end Pipework
