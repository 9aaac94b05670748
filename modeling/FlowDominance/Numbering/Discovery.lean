import FlowDominance.FlowGraph
import FlowDominance.Numbering

/-!
# Depth-first discovery

`FlowGraph.number` discovers the nodes reachable from a start node, depth first and in
the order in which the graph lists successors.  Paths in a flow graph can be as long
as the graph is large, so the traversal keeps its own stack: one frame for each node
on the way from the start to the current node, with the successors of that node that
have not been looked at.  Taking up the frame on top where it was left discovers
nodes in the same order, and from the same parents, as a recursion over successors.

Every step either discovers a node or shortens the lists that are pending, so the
traversal ends on every graph.
-/

namespace FlowDominance

open FlowGraph

namespace Numbering

/-- A node on the current path, with its successors that are still to be looked at. -/
structure Frame where
  node : Node
  pending : List Node

/-- The work left on a stack: the pending successors and the frames themselves. -/
def workload : List Frame → Nat
  | [] => 0
  | frame :: outer => frame.pending.length + 1 + workload outer

/-- Goes on with a traversal whose innermost frame comes first. -/
def explore (graph : FlowGraph) (frames : List Frame) (numbering : Numbering) :
    Except Fault Numbering :=
  match frames with
  | [] => .ok numbering
  | ⟨_, []⟩ :: outer => explore graph outer numbering
  | ⟨node, next :: pending⟩ :: outer =>
      if graph.contains next then
        if _ : numbering.contains next then
          explore graph (⟨node, pending⟩ :: outer) numbering
        else
          match _ : numbering.discover next (some node) with
          | .error fault => .error fault
          | .ok numbering =>
              match graph.successorsOf next with
              | .error fault => .error fault
              | .ok targets =>
                  explore graph (⟨next, targets⟩ :: ⟨node, pending⟩ :: outer) numbering
      else .error (.unknownNode next graph.nodeCount)
  termination_by (numbering.vacancy, workload frames)
  decreasing_by
    · exact Prod.Lex.right _ (by simp [workload])
    · exact Prod.Lex.right _ (by simp [workload])
    · exact Prod.Lex.left _ _
        (vacancy_lt_of_discover (Bool.eq_false_iff.mpr ‹_›) ‹_›)

@[simp] theorem explore_nil (graph : FlowGraph) (numbering : Numbering) :
    explore graph [] numbering = .ok numbering := by
  rw [explore]

@[simp] theorem explore_pop (graph : FlowGraph) (node : Node) (outer : List Frame)
    (numbering : Numbering) :
    explore graph (⟨node, []⟩ :: outer) numbering = explore graph outer numbering := by
  rw [explore]

/-- One step with the next pending successor of the innermost frame. -/
theorem explore_step (graph : FlowGraph) (node next : Node) (pending : List Node)
    (outer : List Frame) (numbering : Numbering) :
    explore graph (⟨node, next :: pending⟩ :: outer) numbering =
      if graph.contains next then
        if numbering.contains next then explore graph (⟨node, pending⟩ :: outer) numbering
        else
          (numbering.discover next (some node)).bind
            (explore graph (⟨next, graph.successors next⟩ :: ⟨node, pending⟩ :: outer))
      else .error (.unknownNode next graph.nodeCount) := by
  rw [explore]
  split
  · next inside =>
      split
      · rfl
      · split
        · next fault failure => rw [failure]; rfl
        · next later success => rw [success, successorsOf_of_contains inside]; rfl
  · rfl

end Numbering

namespace FlowGraph

/-- Numbers the nodes reachable from `start` in the order in which a depth-first
traversal discovers them.  A start node outside the graph reaches nothing. -/
def number (graph : FlowGraph) (start : Node) : Except Fault Numbering :=
  if graph.contains start then
    match (Numbering.empty graph.nodeCount).discover start none with
    | .error fault => .error fault
    | .ok numbering =>
        match graph.successorsOf start with
        | .error fault => .error fault
        | .ok targets => numbering.explore graph [⟨start, targets⟩]
  else .ok (Numbering.empty graph.nodeCount)

theorem number_eq (graph : FlowGraph) (start : Node) :
    graph.number start =
      if graph.contains start then
        ((Numbering.empty graph.nodeCount).discover start none).bind
          (Numbering.explore graph [⟨start, graph.successors start⟩])
      else .ok (Numbering.empty graph.nodeCount) := by
  rw [number]
  split
  · next inside =>
      rw [successorsOf_of_contains inside]
      cases (Numbering.empty graph.nodeCount).discover start none <;> rfl
  · rfl

/-- For each node of the graph, in ascending order, whether it is reachable from `start`. -/
def reachableMask (graph : FlowGraph) (start : Node) : Except Fault (List Bool) :=
  (graph.number start).map Numbering.mask

end FlowGraph

end FlowDominance
