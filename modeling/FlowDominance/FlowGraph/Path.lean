import FlowDominance.FlowGraph

/-!
# Paths and dominance by definition

A node dominates another if it lies on every path from the entry to the other.  This
module states that definition, and what it means to be the closest dominator, in terms
of the edges of a flow graph alone.  No table and no search enters into it, so it is
what the tables of an analysis can be measured against.

A path is listed with all the nodes on it.  An edge leaves a node of the graph, but its
target may lie outside; a path can end there and cannot go on.
-/

namespace FlowDominance

namespace FlowGraph

def Edge (graph : FlowGraph) (source target : Node) : Prop :=
  graph.contains source = true ∧ target ∈ graph.successors source

/-- `graph.Path source target nodes` says that `nodes` lists the nodes on a path from
`source` to `target`, both ends included. -/
inductive Path (graph : FlowGraph) : Node → Node → List Node → Prop where
  | single (node : Node) : Path graph node node [node]
  | cons {source next target : Node} {nodes : List Node} :
      graph.Edge source next → Path graph next target nodes →
        Path graph source target (source :: nodes)

def Reaches (graph : FlowGraph) (source target : Node) : Prop :=
  ∃ nodes, graph.Path source target nodes

/-- Every path from `source` to `target` leads through `node`. -/
def OnEveryPath (graph : FlowGraph) (source node target : Node) : Prop :=
  ∀ nodes, graph.Path source target nodes → node ∈ nodes

/-- Among the nodes other than `target` on every path from `source` to `target`, the node
`closest` is the one nearest to `target`: all others are on every path to it. -/
structure ClosestOnEveryPath (graph : FlowGraph) (source closest target : Node) : Prop where
  ne_target : closest ≠ target
  onEveryPath : graph.OnEveryPath source closest target
  closest_of_onEveryPath : ∀ node, node ≠ target → graph.OnEveryPath source node target →
    graph.OnEveryPath source node closest

/-- Seen from `entry` the graph is in order: its reachable nodes have only successors
that the graph owns, and between reachable nodes the two directions of adjacency name
the same edges. -/
structure Consistent (graph : FlowGraph) (entry : Node) : Prop where
  contains_entry : graph.contains entry = true
  contains_successor : ∀ source target, graph.Reaches entry source →
    target ∈ graph.successors source → graph.contains target = true
  /-- A reachable node is listed as a predecessor exactly by its successors. -/
  mem_predecessors_iff : ∀ source target, graph.Reaches entry source →
    graph.Reaches entry target →
      (source ∈ graph.predecessors target ↔ target ∈ graph.successors source)

namespace Path

variable {graph : FlowGraph} {source middle target : Node} {nodes further : List Node}

theorem source_mem (path : graph.Path source target nodes) : source ∈ nodes := by
  cases path <;> exact List.mem_cons_self

theorem target_mem (path : graph.Path source target nodes) : target ∈ nodes := by
  induction path with
  | single node => exact List.mem_cons_self
  | cons edge rest inductionHypothesis => exact List.mem_cons_of_mem _ inductionHypothesis

/-- Two paths of which the second begins where the first ends can be joined; the node
they share is listed once. -/
theorem append (first : graph.Path source middle nodes)
    (second : graph.Path middle target further) :
    graph.Path source target (nodes ++ further.tail) := by
  induction first with
  | single node =>
      cases second with
      | single => exact .single _
      | cons edge rest => exact .cons edge rest
  | cons edge rest inductionHypothesis => exact .cons edge (inductionHypothesis second)

end Path

@[refl] theorem Reaches.refl (graph : FlowGraph) (node : Node) : graph.Reaches node node :=
  ⟨[node], .single node⟩

theorem onEveryPath_self (graph : FlowGraph) (source node : Node) :
    graph.OnEveryPath source node node :=
  fun _ path => path.target_mem

theorem onEveryPath_source (graph : FlowGraph) (source target : Node) :
    graph.OnEveryPath source source target :=
  fun _ path => path.source_mem

end FlowGraph

end FlowDominance
