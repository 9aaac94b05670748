import FlowDominance.Fault

/-!
# Flow graphs as an analysis sees them

A `FlowGraph` is any directed graph with a designated entry that can list the
successors and the predecessors of its nodes.  Nothing is promised about the two
lists: they may name nodes the graph does not own, repeat nodes, and contradict
each other.  An analysis has to answer for every such graph.

What the two functions give for a node outside the graph has no meaning.  An analysis asks
`successorsOf` and `predecessorsOf`, which look first and report a foreign node.
-/

namespace FlowDominance

/-- A directed graph with an entry, seen through its adjacency in both directions. -/
structure FlowGraph where
  nodeCount : Nat
  /-- The designated entry, if there is one; it need not be a node of the graph. -/
  entry : Option Node
  /-- The targets of the edges out of a node, in the order in which they are followed. -/
  successors : Node → List Node
  predecessors : Node → List Node

namespace FlowGraph

def contains (graph : FlowGraph) (node : Node) : Bool :=
  node.index < graph.nodeCount

def nodes (graph : FlowGraph) : List Node :=
  Node.below graph.nodeCount

/-- The successors of a node the graph owns. -/
def successorsOf (graph : FlowGraph) (node : Node) : Except Fault (List Node) :=
  if graph.contains node then .ok (graph.successors node)
  else .error (.outOfBounds graph.nodeCount node.index)

/-- The predecessors of a node the graph owns. -/
def predecessorsOf (graph : FlowGraph) (node : Node) : Except Fault (List Node) :=
  if graph.contains node then .ok (graph.predecessors node)
  else .error (.outOfBounds graph.nodeCount node.index)

/-- The designated entry, if it is a node of the graph. -/
def usableEntry (graph : FlowGraph) : Except Fault Node :=
  if graph.nodeCount = 0 then .error (.noEntry .noNodes)
  else
    match graph.entry with
    | none => .error (.noEntry .undesignated)
    | some entry =>
        if graph.contains entry then .ok entry
        else .error (.noEntry (.foreign entry graph.nodeCount))

/-- The graph with the given adjacency lists, the one at position `k` for node `k`.
Nodes beyond the end of a table have no neighbours in it. -/
def ofAdjacency (nodeCount : Nat) (entry : Option Node)
    (successors predecessors : Array (List Node)) : FlowGraph where
  nodeCount := nodeCount
  entry := entry
  successors node := successors[node.index]?.getD []
  predecessors node := predecessors[node.index]?.getD []

/-- The predecessor table that belongs to a table of successors.  The sources that
name a target are listed in ascending order, each as often as it names the target;
targets outside the graph are left out. -/
def reverseAdjacency (nodeCount : Nat) (successors : Array (List Node)) :
    Array (List Node) :=
  let sourceFirst := successors.toList.zipIdx.flatMap fun (targets, source) =>
    targets.map fun target => (target, Node.mk source)
  sourceFirst.foldr
    (fun (target, source) table => table.modify target.index (source :: ·))
    (Array.replicate nodeCount [])

theorem contains_iff {graph : FlowGraph} {node : Node} :
    graph.contains node = true ↔ node.index < graph.nodeCount := by
  simp [contains]

theorem contains_congr {graph other : FlowGraph} (sameCount : other.nodeCount = graph.nodeCount)
    (node : Node) : other.contains node = graph.contains node := by
  rw [contains, contains, sameCount]

theorem mem_nodes {graph : FlowGraph} {node : Node} :
    node ∈ graph.nodes ↔ node.index < graph.nodeCount :=
  Node.mem_below

theorem successorsOf_of_contains {graph : FlowGraph} {node : Node}
    (inside : graph.contains node = true) :
    graph.successorsOf node = .ok (graph.successors node) :=
  if_pos inside

theorem successorsOf_ne_error {graph : FlowGraph} {node : Node} {fault : Fault}
    (inside : graph.contains node = true) : graph.successorsOf node ≠ .error fault := by
  rw [successorsOf_of_contains inside]
  exact nofun

theorem eq_of_successorsOf {graph : FlowGraph} {node : Node} {targets : List Node}
    (inside : graph.contains node = true) (asked : graph.successorsOf node = .ok targets) :
    targets = graph.successors node := by
  rw [successorsOf_of_contains inside] at asked
  exact (Except.ok.inj asked).symm

theorem predecessorsOf_of_contains {graph : FlowGraph} {node : Node}
    (inside : graph.contains node = true) :
    graph.predecessorsOf node = .ok (graph.predecessors node) :=
  if_pos inside

theorem usableEntry_congr {graph other : FlowGraph}
    (sameCount : other.nodeCount = graph.nodeCount) (sameEntry : other.entry = graph.entry) :
    other.usableEntry = graph.usableEntry := by
  unfold usableEntry contains
  rw [sameCount, sameEntry]

theorem usableEntry_eq_ok_iff {graph : FlowGraph} {entry : Node} :
    graph.usableEntry = .ok entry ↔
      graph.entry = some entry ∧ entry.index < graph.nodeCount := by
  unfold usableEntry
  by_cases empty : graph.nodeCount = 0
  · simp [empty]
  · cases designated : graph.entry with
    | none => simp [empty]
    | some candidate =>
        by_cases inside : candidate.index < graph.nodeCount
        · simp only [empty, contains, inside, decide_true, if_true, if_false]
          constructor
          · rintro ⟨⟩
            exact ⟨rfl, inside⟩
          · rintro ⟨⟨⟩, -⟩
            rfl
        · simp only [empty, contains, inside, decide_false, if_false]
          constructor
          · rintro ⟨⟩
          · rintro ⟨⟨⟩, bound⟩
            exact absurd bound inside

end FlowGraph

end FlowDominance
