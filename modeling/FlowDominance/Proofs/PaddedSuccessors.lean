import FlowDominance.Proofs.DepthFirstSearch

/-!
# Successors that add nothing

A traversal passes over a successor that has been discovered by the time its turn comes.
So nodes of which this is certain can be added at the end of a list of successors: those
that are in the list already, and those on every path to the node whose list it is, since
they are discovered before it.  Neither the numbering nor a fault shows the difference.
-/

namespace FlowDominance

namespace FlowGraph

/-- An edge is superfluous if there is one like it, or if its target is on every path from
`start` to its source; the latter also holds if there is no such path. -/
def Superfluous (graph : FlowGraph) (start source target : Node) : Prop :=
  target ∈ graph.successors source ∨ graph.OnEveryPath start target source

/-- Within reach of `start`, `padded` has the lists of successors of `graph` with targets of
superfluous edges added at their ends. -/
structure Pads (padded graph : FlowGraph) (start : Node) : Prop where
  nodeCount_eq : padded.nodeCount = graph.nodeCount
  exists_extra : ∀ node, graph.contains node = true → graph.Reaches start node →
    ∃ extra, padded.successors node = graph.successors node ++ extra ∧
      ∀ target ∈ extra, graph.contains target = true ∧ graph.Superfluous start node target

end FlowGraph

namespace Numbering

open FlowGraph

variable {graph padded : FlowGraph} {numbering later : Numbering} {start node next : Node}
  {pending : List Node} {long short : Frame} {frames : List Frame}

/-- `long` is `short` with targets added at the end, and all of these will have been
discovered once the targets of `short` have been looked at. -/
structure Frame.Pads (graph : FlowGraph) (numbering : Numbering) (long short : Frame) :
    Prop where
  node_eq : long.node = short.node
  exists_extra : ∃ extra, long.pending = short.pending ++ extra ∧
    ∀ target ∈ extra, graph.contains target = true ∧
      (target ∈ short.pending ∨ 0 < numbering.rank target)

/-! ### Frame by frame -/

theorem rank_pos_of_discover {entered : Option Node}
    (success : numbering.discover node entered = .ok later) (other : Node)
    (positive : 0 < numbering.rank other) : 0 < later.rank other := by
  rw [rank_of_discover success]
  split
  · omega
  · exact positive

theorem Frame.Pads.mono (grows : ∀ other, 0 < numbering.rank other → 0 < later.rank other)
    (pads : Frame.Pads graph numbering long short) : Frame.Pads graph later long short := by
  obtain ⟨extra, split, known⟩ := pads.exists_extra
  refine ⟨pads.node_eq, extra, split, ?_⟩
  intro target member
  obtain ⟨inside, awaited⟩ := known target member
  exact ⟨inside, awaited.imp_right (grows target)⟩

/-- A padded frame begins with the same target, and its rest is padded once that target has
been discovered. -/
theorem Frame.Pads.exists_rest
    (pads : Frame.Pads graph numbering long ⟨node, next :: pending⟩) :
    ∃ waiting, long = ⟨node, next :: waiting⟩ ∧ ∀ later : Numbering,
      (∀ other, 0 < numbering.rank other → 0 < later.rank other) → 0 < later.rank next →
        Frame.Pads graph later ⟨node, waiting⟩ ⟨node, pending⟩ := by
  obtain ⟨longNode, longPending⟩ := long
  obtain ⟨same, extra, split, known⟩ := pads
  cases same
  cases split
  refine ⟨pending ++ extra, rfl, ?_⟩
  intro later grows discovered
  refine ⟨rfl, extra, rfl, ?_⟩
  intro target member
  obtain ⟨inside, awaited⟩ := known target member
  refine ⟨inside, ?_⟩
  rcases awaited with listed | positive
  · rcases List.mem_cons.mp listed with rfl | waiting
    · exact .inr discovered
    · exact .inl waiting
  · exact .inr (grows target positive)

theorem explore_of_known (outer : List Frame)
    (known : ∀ target ∈ pending, graph.contains target = true ∧
      numbering.contains target = true) :
    explore graph (⟨node, pending⟩ :: outer) numbering = explore graph outer numbering := by
  induction pending with
  | nil => rw [explore_pop]
  | cons next pending inductionHypothesis =>
      obtain ⟨inside, discovered⟩ := known next List.mem_cons_self
      rw [explore_step, if_pos inside, if_pos discovered]
      exact inductionHypothesis fun target member => known target (List.mem_cons_of_mem _ member)

theorem explore_of_pads_nil (pads : padded.Pads graph start) (outer : List Frame)
    (padding : Frame.Pads graph numbering long ⟨node, []⟩) :
    explore padded (long :: outer) numbering = explore padded outer numbering := by
  obtain ⟨longNode, longPending⟩ := long
  obtain ⟨-, extra, split, known⟩ := padding
  cases split
  apply explore_of_known
  intro target member
  obtain ⟨inside, awaited⟩ := known target member
  have positive := awaited.resolve_left List.not_mem_nil
  rw [FlowGraph.contains_congr pads.nodeCount_eq]
  exact ⟨inside, contains_of_rank_pos positive⟩

theorem frame_pads (pads : padded.Pads graph start)
    (invariant : Traversal graph start frames numbering) (discovered : 0 < numbering.rank node) :
    Frame.Pads graph numbering ⟨node, padded.successors node⟩ ⟨node, graph.successors node⟩ := by
  obtain ⟨extra, split, added⟩ :=
    pads.exists_extra node (invariant.contains_of_rank_pos discovered)
      (invariant.reaches discovered)
  refine ⟨rfl, extra, split, ?_⟩
  intro target member
  obtain ⟨targetInside, superfluous⟩ := added target member
  exact ⟨targetInside, superfluous.imp_right (invariant.rank_pos_of_onEveryPath discovered)⟩

/-! ### The whole traversal -/

/-- With padded lists a traversal goes on as without, from every state it can come to. -/
theorem explore_of_pads (pads : padded.Pads graph start) {longer : List Frame}
    (invariant : Traversal graph start frames numbering)
    (padding : List.Forall₂ (Frame.Pads graph numbering) longer frames) :
    explore padded longer numbering = explore graph frames numbering := by
  have sameNodes := FlowGraph.contains_congr pads.nodeCount_eq
  -- by the steps of the traversal without padding; the padding of a frame is passed over
  -- when the frame is left
  fun_induction explore graph frames numbering generalizing longer with
  | case1 numbering =>
      cases padding
      rw [explore_nil]
  | case2 numbering node outer inductionHypothesis =>
      cases padding with
      | cons inner rest =>
          rw [explore_of_pads_nil pads _ inner]
          exact inductionHypothesis invariant.pop rest
  | case3 numbering node next pending outer inside known inductionHypothesis =>
      cases padding with
      | cons inner rest =>
          have discovered := invariant.lawful.contains_iff_rank_pos.mp known
          obtain ⟨waiting, rfl, further⟩ := inner.exists_rest
          have restPads := further numbering (fun _ positive => positive) discovered
          rw [explore_step, sameNodes, if_pos inside, if_pos known]
          exact inductionHypothesis (invariant.skip discovered) (.cons restPads rest)
  | case4 numbering node next pending outer inside fresh fault failure =>
      cases padding with
      | cons inner rest =>
          obtain ⟨waiting, rfl, -⟩ := inner.exists_rest
          rw [explore_step, sameNodes, if_pos inside, if_neg fresh, failure]
          rfl
  | case5 numbering node next pending outer inside fresh later success fault failure =>
      exact absurd failure (successorsOf_ne_error inside)
  | case6 numbering node next pending outer inside fresh later success targets asked
      inductionHypothesis =>
      cases eq_of_successorsOf inside asked
      cases padding with
      | cons inner rest =>
          have undiscovered := rank_of_contains_eq_false (Bool.eq_false_iff.mpr fresh)
          have entered := invariant.enter undiscovered success
          have discovered := entered.discovered _ List.mem_cons_self
          have grows := rank_pos_of_discover success
          obtain ⟨waiting, rfl, further⟩ := inner.exists_rest
          rw [explore_step, sameNodes, if_pos inside, if_neg fresh, success]
          exact inductionHypothesis entered
            (.cons (frame_pads pads entered discovered)
              (.cons (further later grows discovered) (rest.imp fun _ _ => Frame.Pads.mono grows)))
  | case7 numbering node next pending outer outside =>
      cases padding with
      | cons inner rest =>
          obtain ⟨waiting, rfl, -⟩ := inner.exists_rest
          rw [explore_step, sameNodes, if_neg outside, pads.nodeCount_eq]

end Numbering

/-- A numbering does not change, nor does the fault with which it ends, when the lists of
successors are padded. -/
theorem FlowGraph.number_of_pads {graph padded : FlowGraph} {start : Node}
    (pads : padded.Pads graph start) : padded.number start = graph.number start := by
  rw [number_eq, number_eq, contains_congr pads.nodeCount_eq, pads.nodeCount_eq]
  split
  · cases discovered : (Numbering.empty graph.nodeCount).discover start none with
    | error fault => rfl
    | ok first =>
        have invariant := Numbering.Traversal.initial discovered
        have known := invariant.discovered _ List.mem_cons_self
        exact Numbering.explore_of_pads pads invariant
          (.cons (Numbering.frame_pads pads invariant known) .nil)
  · rfl

end FlowDominance
