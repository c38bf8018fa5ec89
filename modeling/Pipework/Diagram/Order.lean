/-!
# Dependency order

Dependencies are edges between positions: the second position of an edge needs the first one. The
order is found by counting: a position is ready when none of the edges into it is left, and of the
ready positions the least is released first, which takes the edges out of it away. What a cycle
keeps from becoming ready is left over.
-/

namespace Pipework

/-- Edges between the positions below `size`. The same edge may be listed several times. -/
structure Dependencies where
  size : Nat
  edges : List (Nat × Nat)

namespace Dependencies

variable (dependencies : Dependencies)

/-- The positions that need a position, one for each edge out of it. -/
def targets (position : Nat) : List Nat :=
  dependencies.edges.filterMap fun edge => if edge.1 = position then some edge.2 else none

/-- The number of edges into a position. -/
def inDegree (position : Nat) : Nat :=
  dependencies.edges.countP fun edge => edge.2 == position

/-- Whether there is an edge into a position or out of it. -/
def isActive (position : Nat) : Bool :=
  dependencies.edges.any fun edge => edge.1 == position || edge.2 == position

/-- The positions that an edge touches, in increasing order. -/
def active : List Nat :=
  (List.range dependencies.size).filter dependencies.isActive

end Dependencies

/-- A sort under way. -/
structure Sorting where
  /-- How many edges into each position are left. -/
  inDegrees : List Nat
  /-- The positions that wait for their release, in increasing order. -/
  ready : List Nat
  /-- The positions released so far. -/
  order : List Nat

namespace Sorting

/-- Nothing is released yet; the active positions without an edge into them are ready. -/
def start (dependencies : Dependencies) : Sorting :=
  { inDegrees := (List.range dependencies.size).map dependencies.inDegree
    ready := dependencies.active.filter fun position => dependencies.inDegree position == 0
    order := [] }

/-- Puts a position in front of the first one that is not smaller. -/
def insertReady (position : Nat) : List Nat → List Nat
  | [] => [position]
  | head :: rest =>
      if position ≤ head then position :: head :: rest else head :: insertReady position rest

/-- Takes away one edge into a position, which there must be. The last one makes it ready. -/
def settle? (sorting : Sorting) (target : Nat) : Option Sorting :=
  match sorting.inDegrees[target]? with
  | some (left + 1) =>
      some { sorting with
        inDegrees := sorting.inDegrees.set target left
        ready := if left = 0 then insertReady target sorting.ready else sorting.ready }
  | _ => none

/-- Takes away one edge into each of the positions. -/
def settleAll? (sorting : Sorting) : List Nat → Option Sorting
  | [] => some sorting
  | target :: rest => (sorting.settle? target).bind fun next => next.settleAll? rest

/-- Releases ready positions, the least first, at most as many as the first argument says. -/
def run? (dependencies : Dependencies) : Nat → Sorting → Option Sorting
  | 0, sorting => some sorting
  | fuel + 1, sorting =>
      match sorting.ready with
      | [] => some sorting
      | position :: rest =>
          ({ sorting with ready := rest, order := sorting.order ++ [position] }.settleAll?
            (dependencies.targets position)).bind (run? dependencies fuel)

end Sorting

/-- What sorting comes to. -/
inductive SortResult where
  /-- Every active position, each after those that it needs. -/
  | sorted (order : List Nat)
  /-- The active positions that were never ready, in increasing order. -/
  | cyclic (left : List Nat)

namespace Dependencies

/-- The order of the active positions. Nothing only if an edge had to be taken away that was not
there. -/
def sort? (dependencies : Dependencies) : Option SortResult :=
  (Sorting.run? dependencies dependencies.size (.start dependencies)).map fun sorting =>
    if sorting.order.length < dependencies.active.length then
      .cyclic (dependencies.active.filter fun position => 0 < sorting.inDegrees.getD position 0)
    else .sorted sorting.order

end Dependencies

end Pipework
