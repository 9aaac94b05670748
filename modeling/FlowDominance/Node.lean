/-!
# Nodes of a flow graph

A node is named by its number.  Numbers are handed out from zero in the order in
which a graph receives its nodes, so a graph with `count` nodes owns exactly the
nodes numbered below `count`.  A `Node` by itself belongs to no graph: every
function that takes one says what it does with a node the graph does not own.
-/

namespace FlowDominance

/-- The name of a node: its number in the graph that owns it. -/
structure Node where
  index : Nat
  deriving DecidableEq, Inhabited

namespace Node

/-- The short name `n7` under which reports and messages mention a node. -/
instance : ToString Node where
  toString node := s!"n{node.index}"

/-- The long name `NodeId(7)`, which also says that the number names a node. -/
def longName (node : Node) : String :=
  s!"NodeId({node.index})"

/-- Nodes are ordered by their numbers. -/
instance : Ord Node where
  compare first second := compare first.index second.index

/-- The nodes of a graph with `count` nodes, in ascending order. -/
def below (count : Nat) : List Node :=
  (List.range count).map Node.mk

@[simp] theorem length_below (count : Nat) : (below count).length = count := by
  simp [below]

theorem mem_below {count : Nat} {node : Node} :
    node ∈ below count ↔ node.index < count := by
  simp only [below, List.mem_map, List.mem_range]
  constructor
  · rintro ⟨index, bound, rfl⟩
    exact bound
  · intro bound
    exact ⟨node.index, bound, rfl⟩

/-- Sorts nodes by ascending number; equal nodes keep their places. -/
def sort (nodes : List Node) : List Node :=
  nodes.mergeSort fun first second => first.index ≤ second.index

end Node

end FlowDominance
