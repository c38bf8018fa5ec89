import Mathlib
import Pipework.Proofs.Order.Least

/-! # Dependencies with one position more

A position that no edge touches can be put anywhere. The others move out of the way and keep their
order, so sorting comes to the same positions, each where it has moved to.
-/

namespace Pipework

/-- Where a position moves to when another one is put at a place. -/
def makeRoom (place position : Nat) : Nat :=
  if position < place then position else position + 1

theorem makeRoom_of_lt {place position : Nat} (h : position < place) :
    makeRoom place position = position :=
  if_pos h

theorem makeRoom_of_le {place position : Nat} (h : place ≤ position) :
    makeRoom place position = position + 1 :=
  if_neg (Nat.not_lt.mpr h)

theorem makeRoom_strictMono (place : Nat) : StrictMono (makeRoom place) := by
  intro first second h
  unfold makeRoom
  split <;> split <;> omega

theorem makeRoom_injective (place : Nat) : Function.Injective (makeRoom place) :=
  (makeRoom_strictMono place).injective

theorem makeRoom_lt (place : Nat) {position size : Nat} (h : position < size) :
    makeRoom place position < size + 1 := by
  unfold makeRoom
  split <;> omega

namespace Dependencies

/-- The same edges with room for one position more. -/
def widened (dependencies : Dependencies) (place : Nat) : Dependencies where
  size := dependencies.size + 1
  edges := dependencies.edges.map fun edge => (makeRoom place edge.1, makeRoom place edge.2)

variable {dependencies : Dependencies} {place : Nat}

theorem precedes_widened {first second : Nat} :
    (dependencies.widened place).Precedes first second ↔ ∃ source target,
      dependencies.Precedes source target ∧ first = makeRoom place source ∧
        second = makeRoom place target := by
  rw [Precedes, widened, List.mem_map]
  constructor
  · rintro ⟨⟨source, target⟩, hedge, hsame⟩
    obtain ⟨rfl, rfl⟩ := Prod.mk.inj hsame
    exact ⟨source, target, hedge, rfl, rfl⟩
  · rintro ⟨source, target, hedge, rfl, rfl⟩
    exact ⟨(source, target), hedge, rfl⟩

theorem Bounded.widened (h : dependencies.Bounded) : (dependencies.widened place).Bounded := by
  intro first second hedge
  obtain ⟨source, target, hbefore, rfl, rfl⟩ := precedes_widened.mp hedge
  exact (h source target hbefore).imp (makeRoom_lt place) (makeRoom_lt place)

theorem targets_widened (position : Nat) :
    (dependencies.widened place).targets (makeRoom place position) =
      (dependencies.targets position).map (makeRoom place) := by
  rw [targets, targets, widened, List.filterMap_map, List.map_filterMap]
  refine List.filterMap_congr fun edge _ => ?_
  rw [Function.comp_apply]
  by_cases hsource : edge.1 = position
  · rw [if_pos hsource, if_pos (congrArg _ hsource), Option.map_some]
  · rw [if_neg hsource, if_neg ((makeRoom_injective place).ne hsource), Option.map_none]

/-- The active positions are the same, each where it has moved to. -/
theorem active_widened (hbounded : dependencies.Bounded) :
    (dependencies.widened place).active = dependencies.active.map (makeRoom place) := by
  have hwidened : (dependencies.widened place).active.Pairwise (· < ·) :=
    List.pairwise_lt_range.filter _
  have hmoved : (dependencies.active.map (makeRoom place)).Pairwise (· < ·) :=
    (List.pairwise_lt_range.filter _).map _ fun _ _ hlt => makeRoom_strictMono place hlt
  refine hwidened.eq_of_mem_iff hmoved fun position => ?_
  rw [List.mem_map]
  constructor
  · intro hactive
    obtain ⟨-, other, hedge | hedge⟩ := mem_active.mp hactive
    · obtain ⟨source, target, hbefore, rfl, -⟩ := precedes_widened.mp hedge
      exact ⟨source, hbounded.source_active hbefore, rfl⟩
    · obtain ⟨source, target, hbefore, -, rfl⟩ := precedes_widened.mp hedge
      exact ⟨target, hbounded.target_active hbefore, rfl⟩
  · rintro ⟨position, hactive, rfl⟩
    obtain ⟨hlt, other, hedge⟩ := mem_active.mp hactive
    refine mem_active.mpr ⟨makeRoom_lt place hlt, makeRoom place other, ?_⟩
    exact hedge.imp (fun h => precedes_widened.mpr ⟨_, _, h, rfl, rfl⟩)
      fun h => precedes_widened.mpr ⟨_, _, h, rfl, rfl⟩

/-- What can come next has moved from what could come next. -/
theorem available_widened (hbounded : dependencies.Bounded) {order : List Nat} {position : Nat} :
    (dependencies.widened place).Available (order.map (makeRoom place)) position ↔
      ∃ before, dependencies.Available order before ∧ position = makeRoom place before := by
  rw [Available, active_widened hbounded, List.mem_map]
  constructor
  · rintro ⟨⟨before, hactive, rfl⟩, hnew, hsources⟩
    refine ⟨before, ⟨hactive, ?_, fun source hedge => ?_⟩, rfl⟩
    · exact fun hmem => hnew (List.mem_map_of_mem hmem)
    · have hmem := hsources _ (precedes_widened.mpr ⟨source, before, hedge, rfl, rfl⟩)
      exact (List.mem_map_of_injective (makeRoom_injective place)).mp hmem
  · rintro ⟨before, ⟨hactive, hnew, hsources⟩, rfl⟩
    refine ⟨⟨before, hactive, rfl⟩, ?_, fun first hedge => ?_⟩
    · exact fun hmem => hnew ((List.mem_map_of_injective (makeRoom_injective place)).mp hmem)
    · obtain ⟨source, target, hbefore, rfl, hsame⟩ := precedes_widened.mp hedge
      obtain rfl := makeRoom_injective place hsame
      exact List.mem_map_of_mem (hsources source hbefore)

theorem eager_widened (hbounded : dependencies.Bounded) {done order : List Nat}
    (h : dependencies.Eager done order) : (dependencies.widened place).Eager
      (done.map (makeRoom place)) (order.map (makeRoom place)) := by
  induction order generalizing done with
  | nil => trivial
  | cons position rest ih =>
      obtain ⟨havailable, hleast, hrest⟩ := h
      refine ⟨(available_widened hbounded).mpr ⟨position, havailable, rfl⟩, ?_, ?_⟩
      · intro other hother
        obtain ⟨before, hbefore, rfl⟩ := (available_widened hbounded).mp hother
        exact (makeRoom_strictMono place).monotone (hleast before hbefore)
      · have hmoved := ih hrest
        rwa [List.map_append, List.map_singleton] at hmoved

/-- An order that is found moves with its positions. -/
theorem sort?_widened (hbounded : dependencies.Bounded) {order : List Nat}
    (h : dependencies.sort? = some (.sorted order)) :
    (dependencies.widened place).sort? = some (.sorted (order.map (makeRoom place))) := by
  obtain ⟨final, hfinal, hend, heager, hready⟩ := Sorting.exists_run? hbounded
  have hwidened : (dependencies.widened place).Bounded := hbounded.widened
  obtain ⟨other, hother, hotherEnd, hotherEager, hotherReady⟩ := Sorting.exists_run? hwidened
  simp only [sort?, hfinal, Option.map_some, Option.some.injEq] at h
  split at h
  · cases h
  next hlength =>
    obtain rfl : final.order = order := SortResult.sorted.inj h
    have horder : other.order = final.order.map (makeRoom place) := by
      refine hotherEager.eq (eager_widened hbounded heager) ?_ ?_
      · intro position havailable
        rw [List.nil_append, ← hotherEnd.mem_ready_iff, hotherReady] at havailable
        cases havailable
      · intro position havailable
        rw [List.nil_append, available_widened hbounded] at havailable
        obtain ⟨before, hbefore, -⟩ := havailable
        rw [← hend.mem_ready_iff, hready] at hbefore
        cases hbefore
    rw [sort?, hother, Option.map_some, if_neg, horder]
    rw [horder, active_widened hbounded, List.length_map, List.length_map]
    exact hlength

end Dependencies

end Pipework
