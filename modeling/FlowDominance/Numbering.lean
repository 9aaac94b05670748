import FlowDominance.NodeMap

/-!
# Depth-first numberings

A depth-first traversal discovers nodes one after another.  A `Numbering` records the
order of discovery, the position of every discovered node in that order, and the node
from which it was discovered, its parent.  Positions are counted from one.

The three tables are kept apart and nothing in the type ties them together, so that a
numbering from any source can be examined; `Numbering.check` looks for disagreements.
Queries accept every node: one outside the tables has no position and no parent.
-/

namespace FlowDominance

/-- The result of a depth-first traversal. -/
structure Numbering where
  /-- The discovered nodes in the order of their discovery. -/
  order : Array Node
  /-- The position of each node in the order, `none` before its discovery. -/
  positions : NodeMap (Option Nat)
  /-- The node from which each node was discovered, if there is one. -/
  parents : NodeMap (Option Node)
  deriving DecidableEq

namespace Numbering

/-- The numbering of `nodeCount` nodes of which none has been discovered. -/
def empty (nodeCount : Nat) : Numbering where
  order := Array.emptyWithCapacity nodeCount
  positions := NodeMap.replicate nodeCount none
  parents := NodeMap.replicate nodeCount none

def size (numbering : Numbering) : Nat :=
  numbering.order.size

def isEmpty (numbering : Numbering) : Bool :=
  numbering.order.isEmpty

/-- The number of nodes of the traversed graph, discovered or not. -/
def nodeCount (numbering : Numbering) : Nat :=
  numbering.positions.size

@[inline] def position? (numbering : Numbering) (node : Node) : Option Nat :=
  (numbering.positions.find? node).join

@[inline] def parent? (numbering : Numbering) (node : Node) : Option Node :=
  (numbering.parents.find? node).join

@[inline] def contains (numbering : Numbering) (node : Node) : Bool :=
  (numbering.position? node).isSome

/-- The node at a position of the order; there is none at position zero. -/
def nodeAt? (numbering : Numbering) : Nat → Option Node
  | 0 => none
  | position + 1 => numbering.order[position]?

/-- The first node of the order, from which the traversal started. -/
def root? (numbering : Numbering) : Option Node :=
  numbering.order[0]?

/-- The discovered nodes with the positions they have in the order. -/
def placed (numbering : Numbering) : List (Node × Nat) :=
  numbering.order.toList.zipIdx 1

/-- The discovered nodes without the first, with their positions. -/
def placedBelowRoot (numbering : Numbering) : List (Node × Nat) :=
  numbering.placed.tail

def belowRoot (numbering : Numbering) : List Node :=
  numbering.order.toList.tail

/-- The nodes of the traversed graph that were not discovered, in ascending order. -/
def undiscovered (numbering : Numbering) : List Node :=
  (Node.below numbering.nodeCount).filter fun node => !numbering.contains node

/-- For each node of the traversed graph, in ascending order, whether it was discovered. -/
def mask (numbering : Numbering) : List Bool :=
  (Node.below numbering.nodeCount).map numbering.contains

/-- Records the discovery of `node` from `parent`: the node takes the next position. -/
def discover (numbering : Numbering) (node : Node) (parent : Option Node) :
    Except Fault Numbering :=
  match numbering with
  | ⟨order, positions, parents⟩ =>
      let order := order.push node
      match positions.write node (some order.size) with
      | .error fault => .error fault
      | .ok positions =>
          match parents.write node parent with
          | .error fault => .error fault
          | .ok parents => .ok ⟨order, positions, parents⟩

/-- The number of nodes of the graph that are still to be discovered. -/
def vacancy (numbering : Numbering) : Nat :=
  numbering.positions.countWhere Option.isNone

@[simp] theorem nodeCount_empty (nodeCount : Nat) :
    (empty nodeCount).nodeCount = nodeCount := by
  simp [empty, Numbering.nodeCount]

@[simp] theorem size_empty (nodeCount : Nat) : (empty nodeCount).size = 0 := by
  simp [empty, size]

@[simp] theorem position?_empty (nodeCount : Nat) (node : Node) :
    (empty nodeCount).position? node = none := by
  simp only [position?, empty, NodeMap.find?_replicate]
  split <;> rfl

@[simp] theorem parent?_empty (nodeCount : Nat) (node : Node) :
    (empty nodeCount).parent? node = none := by
  simp only [parent?, empty, NodeMap.find?_replicate]
  split <;> rfl

theorem contains_iff {numbering : Numbering} {node : Node} :
    numbering.contains node = true ↔ ∃ position, numbering.position? node = some position :=
  Option.isSome_iff_exists

theorem contains_eq_false_iff {numbering : Numbering} {node : Node} :
    numbering.contains node = false ↔ numbering.position? node = none := by
  simp [contains]

theorem lt_nodeCount_of_position? {numbering : Numbering} {node : Node} {position : Nat}
    (placed : numbering.position? node = some position) :
    node.index < numbering.nodeCount :=
  NodeMap.lt_size_of_join_find? placed

/-- A discovery writes one cell of each table and extends the order by one node. -/
theorem discover_eq_ok_iff {numbering later : Numbering} {node : Node}
    {parent : Option Node} :
    numbering.discover node parent = .ok later ↔
      later.order = numbering.order.push node ∧
        numbering.positions.write node (some (numbering.size + 1)) = .ok later.positions ∧
          numbering.parents.write node parent = .ok later.parents := by
  obtain ⟨order, positions, parents⟩ := numbering
  obtain ⟨laterOrder, laterPositions, laterParents⟩ := later
  simp only [discover, size, Array.size_push]
  cases positions.write node (some (order.size + 1)) with
  | error fault => simp
  | ok writtenPositions =>
      cases parents.write node parent with
      | error fault => simp
      | ok writtenParents =>
          simp only [Except.ok.injEq, mk.injEq]
          constructor
          · rintro ⟨rfl, rfl, rfl⟩
            exact ⟨rfl, rfl, rfl⟩
          · rintro ⟨rfl, rfl, rfl⟩
            exact ⟨rfl, rfl, rfl⟩

theorem order_of_discover {numbering later : Numbering} {node : Node}
    {parent : Option Node} (success : numbering.discover node parent = .ok later) :
    later.order = numbering.order.push node :=
  (discover_eq_ok_iff.mp success).1

theorem nodeCount_of_discover {numbering later : Numbering} {node : Node}
    {parent : Option Node} (success : numbering.discover node parent = .ok later) :
    later.nodeCount = numbering.nodeCount :=
  NodeMap.size_of_write (discover_eq_ok_iff.mp success).2.1

theorem position?_of_discover {numbering later : Numbering} {node : Node}
    {parent : Option Node} (success : numbering.discover node parent = .ok later)
    (other : Node) :
    later.position? other =
      if other = node then some (numbering.size + 1) else numbering.position? other := by
  have written := (discover_eq_ok_iff.mp success).2.1
  by_cases same : other = node
  · simp [position?, NodeMap.find?_of_write written, same]
  · simp [position?, NodeMap.find?_of_write written, same]

theorem parent?_of_discover {numbering later : Numbering} {node : Node}
    {parent : Option Node} (success : numbering.discover node parent = .ok later)
    (other : Node) :
    later.parent? other = if other = node then parent else numbering.parent? other := by
  have written := (discover_eq_ok_iff.mp success).2.2
  by_cases same : other = node
  · simp [parent?, NodeMap.find?_of_write written, same]
  · simp [parent?, NodeMap.find?_of_write written, same]

theorem vacancy_lt_of_discover {numbering later : Numbering} {node : Node}
    {parent : Option Node} (absent : numbering.contains node = false)
    (success : numbering.discover node parent = .ok later) :
    later.vacancy < numbering.vacancy := by
  have written := (discover_eq_ok_iff.mp success).2.1
  obtain ⟨old, found⟩ := NodeMap.exists_find?_of_lt (NodeMap.lt_size_of_write written)
  have unplaced : old = none := by
    simpa [contains, position?, found] using absent
  exact NodeMap.countWhere_lt_of_write written found (by simp [unplaced]) rfl

end Numbering

end FlowDominance
