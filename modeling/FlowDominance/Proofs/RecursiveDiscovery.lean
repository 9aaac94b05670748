import FlowDominance.Numbering.Discovery
import FlowDominance.Numbering.Recursion

/-!
# The stack and the recursion

`Numbering.explore` keeps the calls of the recursion on a stack of its own.  A frame
stands for a visit that was interrupted to visit a successor first: what is left of it is
to visit the pending successors.  So going on with a stack is finishing these visits one
after another, innermost first, and going on with the stack of one frame with which
`FlowGraph.number` begins is the recursion itself.
-/

namespace FlowDominance

open FlowGraph

namespace Numbering

variable {graph : FlowGraph} {node next : Node} {pending : List Node} {parent : Option Node}
  {numbering entered : Numbering} {fault : Fault}

/-! ### The recursion by its equations -/

/-- Visits those nodes of `targets` that are undiscovered when their turn comes. -/
def visitAll (graph : FlowGraph) (node : Node) (targets : List Node) (numbering : Numbering) :
    Except Fault Numbering :=
  (numbering.visitEach graph node targets).map Subtype.val

/-- Records the discovery of `node` and then visits its successors. -/
def visit (graph : FlowGraph) (node : Node) (parent : Option Node) (numbering : Numbering) :
    Except Fault Numbering :=
  (numbering.discover node parent).bind (visitAll graph node (graph.successors node))

theorem visit_of_discover (success : numbering.discover node parent = .ok entered) :
    visit graph node parent numbering = visitAll graph node (graph.successors node) entered := by
  rw [visit, success]
  rfl

theorem visit_of_fault (failure : numbering.discover node parent = .error fault) :
    visit graph node parent numbering = .error fault := by
  rw [visit, failure]
  rfl

theorem visitAll_nil : visitAll graph node [] numbering = .ok numbering := by
  rw [visitAll, visitEach]
  rfl

theorem visitAll_cons :
    visitAll graph node (next :: pending) numbering =
      if graph.contains next then
        if numbering.contains next then visitAll graph node pending numbering
        else (visit graph next (some node) numbering).bind (visitAll graph node pending)
      else .error (.unknownNode next graph.nodeCount) := by
  rw [visitAll, visitEach]
  split
  · next inside =>
      split
      · rfl
      · split
        · next fault failure =>
            rw [visit_of_fault failure]
            rfl
        · next entered success =>
            rw [visit_of_discover success, visitAll, successorsOf_of_contains inside]
            dsimp only
            cases visitEach graph next (graph.successors next) entered with
            | error fault => rfl
            | ok left =>
                cases left with
                | mk left notMore =>
                    simp only [Except.map, Except.bind, visitAll]
                    cases visitEach graph node pending left with
                    | error fault => rfl
                    | ok done => rfl
  · rfl

end Numbering

theorem FlowGraph.numberRecursively_eq_visit (graph : FlowGraph) (start : Node) :
    graph.numberRecursively start =
      if graph.contains start then Numbering.visit graph start none (.empty graph.nodeCount)
      else .ok (.empty graph.nodeCount) := by
  unfold numberRecursively Numbering.visit
  split
  · next inside =>
      rw [successorsOf_of_contains inside]
      cases (Numbering.empty graph.nodeCount).discover start none with
      | error fault => rfl
      | ok entered => rfl
  · rfl

namespace Numbering

/-! ### Interrupted visits -/

/-- Finishes the visit for which a frame stands. -/
def finish (graph : FlowGraph) (numbering : Numbering) (frame : Frame) : Except Fault Numbering :=
  visitAll graph frame.node frame.pending numbering

variable {graph : FlowGraph} {node next : Node} {pending : List Node}
  {numbering entered : Numbering} {fault : Fault}

theorem finish_nil : finish graph numbering ⟨node, []⟩ = .ok numbering :=
  visitAll_nil

theorem finish_of_known (inside : graph.contains next = true)
    (known : numbering.contains next = true) :
    finish graph numbering ⟨node, next :: pending⟩ = finish graph numbering ⟨node, pending⟩ := by
  simp only [finish, visitAll_cons, if_pos inside, if_pos known]

theorem finish_of_fresh (inside : graph.contains next = true)
    (fresh : ¬ numbering.contains next = true)
    (success : numbering.discover next (some node) = .ok entered) :
    finish graph numbering ⟨node, next :: pending⟩ =
      (finish graph entered ⟨next, graph.successors next⟩).bind
        fun left => finish graph left ⟨node, pending⟩ := by
  simp only [finish, visitAll_cons, if_pos inside, if_neg fresh, visit_of_discover success]

theorem finish_of_fault (inside : graph.contains next = true)
    (fresh : ¬ numbering.contains next = true)
    (failure : numbering.discover next (some node) = .error fault) :
    finish graph numbering ⟨node, next :: pending⟩ = .error fault := by
  simp only [finish, visitAll_cons, if_pos inside, if_neg fresh, visit_of_fault failure]
  rfl

theorem finish_of_foreign (outside : ¬ graph.contains next = true) :
    finish graph numbering ⟨node, next :: pending⟩ =
      .error (.unknownNode next graph.nodeCount) := by
  simp only [finish, visitAll_cons, if_neg outside]

/-- Going on with a stack finishes the interrupted visits, innermost first. -/
theorem explore_eq_foldlM (graph : FlowGraph) (frames : List Frame) (numbering : Numbering) :
    explore graph frames numbering = frames.foldlM (finish graph) numbering := by
  -- by the steps of the traversal: each one is an equation of the innermost visit
  fun_induction explore graph frames numbering with
  | case1 numbering => rfl
  | case2 numbering node outer inductionHypothesis =>
      rw [inductionHypothesis, List.foldlM_cons, finish_nil]
      rfl
  | case3 numbering node next pending outer inside known inductionHypothesis =>
      rw [inductionHypothesis, List.foldlM_cons, List.foldlM_cons, finish_of_known inside known]
  | case4 numbering node next pending outer inside fresh fault failure =>
      rw [List.foldlM_cons, finish_of_fault inside fresh failure]
      rfl
  | case5 numbering node next pending outer inside fresh entered success fault failure =>
      exact absurd failure (successorsOf_ne_error inside)
  | case6 numbering node next pending outer inside fresh entered success targets asked
      inductionHypothesis =>
      cases eq_of_successorsOf inside asked
      simp only [inductionHypothesis, List.foldlM_cons, finish_of_fresh inside fresh success]
      exact (bind_assoc _ _ _).symm
  | case7 numbering node next pending outer outside =>
      rw [List.foldlM_cons, finish_of_foreign outside]
      rfl

end Numbering

/-- The traversal with a stack is the recursive one: on every graph and from every start
node both yield the same order, positions and parents, or the same fault. -/
theorem FlowGraph.number_eq_numberRecursively (graph : FlowGraph) (start : Node) :
    graph.number start = graph.numberRecursively start := by
  rw [numberRecursively_eq_visit, number_eq]
  split
  · cases discovered : (Numbering.empty graph.nodeCount).discover start none with
    | error fault =>
        rw [Numbering.visit_of_fault discovered]
        rfl
    | ok entered =>
        rw [Numbering.visit_of_discover discovered]
        calc
          entered.explore graph [⟨start, graph.successors start⟩]
              = [⟨start, graph.successors start⟩].foldlM (Numbering.finish graph) entered :=
            Numbering.explore_eq_foldlM graph _ entered
          _ = Numbering.finish graph entered ⟨start, graph.successors start⟩ := bind_pure _
  · rfl

end FlowDominance
