import FlowDominance.FlowGraph
import FlowDominance.Numbering

/-!
# Depth-first discovery as a recursion

The textbook form of a depth-first traversal visits a node by recording it and then
visiting, one after another, those of its successors that have not been discovered by
the time their turn comes.  `FlowGraph.numberRecursively` is that recursion.  It fixes
which numbering a traversal has to produce; the traversal that is used in an analysis
keeps a stack of its own instead, because the recursion is as deep as the graph.

A visit never forgets a discovery.  The recursion carries this fact along, since it is
what bounds the work left for the later successors.
-/

namespace FlowDominance

namespace Numbering

/-- Visits those nodes of `targets`, the successors of `node`, that are undiscovered when
their turn comes, each with everything that is discovered from it. -/
def visitEach (graph : FlowGraph) (node : Node) (targets : List Node)
    (numbering : Numbering) :
    Except Fault { later : Numbering // later.vacancy ≤ numbering.vacancy } :=
  match targets with
  | [] => .ok ⟨numbering, Nat.le_refl _⟩
  | next :: others =>
      if graph.contains next then
        if _ : numbering.contains next then visitEach graph node others numbering
        else
          match _ : numbering.discover next (some node) with
          | .error fault => .error fault
          | .ok entered =>
              have fewer : entered.vacancy < numbering.vacancy :=
                vacancy_lt_of_discover (Bool.eq_false_iff.mpr ‹_›) ‹_›
              match graph.successorsOf next with
              | .error fault => .error fault
              | .ok found =>
                  match visitEach graph next found entered with
                  | .error fault => .error fault
                  | .ok ⟨left, notMore⟩ =>
                      match visitEach graph node others left with
                      | .error fault => .error fault
                      | .ok ⟨done, noneLost⟩ => .ok ⟨done, by omega⟩
      else .error (.unknownNode next graph.nodeCount)
  termination_by (numbering.vacancy, targets.length)
  decreasing_by
    · exact Prod.Lex.right _ (by simp)
    · exact Prod.Lex.left _ _ (by omega)
    · exact Prod.Lex.left _ _ (by omega)

end Numbering

namespace FlowGraph

/-- Numbers the nodes reachable from `start` by recursion over successors. -/
def numberRecursively (graph : FlowGraph) (start : Node) : Except Fault Numbering :=
  if graph.contains start then
    match (Numbering.empty graph.nodeCount).discover start none with
    | .error fault => .error fault
    | .ok entered =>
        match graph.successorsOf start with
        | .error fault => .error fault
        | .ok targets => (entered.visitEach graph start targets).map Subtype.val
  else .ok (Numbering.empty graph.nodeCount)

end FlowGraph

end FlowDominance
