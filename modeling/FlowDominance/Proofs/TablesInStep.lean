import FlowDominance.Proofs.FaultClassification
import FlowDominance.Proofs.GroupedLists

/-!
# Tables in step

A traversal writes three tables, cell by cell.  When it ends they say the same thing in three
ways: the order and the positions are inverse to each other, and the parents lead from every
discovered node but the first to one that was discovered before.  This holds from every start
node.  One that the graph does not own leaves the tables empty, and empty tables agree as well.

So the discovered nodes and the others, taken together, are the nodes of the graph.
-/

namespace FlowDominance

open FlowGraph

namespace Numbering

/-- The tables of a numbering of `graph` that began at `start` agree on what was discovered. -/
structure InStep (numbering : Numbering) (graph : FlowGraph) (start : Node) : Prop where
  nodup_order : numbering.order.toList.Nodup
  size_le : numbering.size ≤ graph.nodeCount
  nodeAt?_eq_some_iff : ∀ node position,
    numbering.nodeAt? position = some node ↔ numbering.position? node = some position
  /-- The positions in use are those from one to the number of discovered nodes. -/
  exists_nodeAt?_iff : ∀ position,
    (∃ node, numbering.nodeAt? position = some node) ↔ 1 ≤ position ∧ position ≤ numbering.size
  exists_parent : ∀ node, numbering.contains node = true → node ≠ start →
    ∃ parent, numbering.parent? node = some parent ∧ numbering.DiscoveredBefore parent node
  parent?_eq_none : ∀ node,
    node = start ∨ numbering.contains node = false ∨ graph.contains node = false →
      numbering.parent? node = none

variable {graph : FlowGraph} {start node : Node} {numbering : Numbering}

theorem inStep_empty (graph : FlowGraph) (start : Node) :
    (empty graph.nodeCount).InStep graph start where
  nodup_order := by simp [empty]
  size_le := by simp
  nodeAt?_eq_some_iff node position := by simp [nodeAt?_empty]
  exists_nodeAt?_iff position := by
    simp only [nodeAt?_empty, size_empty]
    constructor
    · rintro ⟨node, found⟩
      cases found
    · omega
  exists_parent node discovered := by
    rw [contains, position?_empty] at discovered
    cases discovered
  parent?_eq_none node _ := parent?_empty graph.nodeCount node

theorem Lawful.parent?_of_undiscovered (lawful : numbering.Lawful start)
    (absent : numbering.contains node = false) : numbering.parent? node = none := by
  cases up : numbering.parent? node with
  | none => rfl
  | some parent =>
      have before := lawful.rank_parent_lt up
      rw [rank_of_contains_eq_false absent] at before
      omega

theorem Lawful.exists_nodeAt?_iff (lawful : numbering.Lawful start) (position : Nat) :
    (∃ node, numbering.nodeAt? position = some node) ↔
      1 ≤ position ∧ position ≤ numbering.size := by
  simp only [lawful.nodeAt?_eq_some_iff]
  constructor
  · rintro ⟨node, placed⟩
    refine ⟨lawful.position_pos placed, ?_⟩
    rw [← rank_of_position? placed]
    exact lawful.rank_le_size
  · rintro ⟨positive, bound⟩
    exact lawful.exists_position? positive bound

theorem inStep_of_depthFirst (depthFirst : graph.DepthFirst start numbering) :
    numbering.InStep graph start := by
  have lawful := depthFirst.lawful
  refine
    { nodup_order := lawful.nodup_order
      size_le := ?_
      nodeAt?_eq_some_iff := lawful.nodeAt?_eq_some_iff
      exists_nodeAt?_iff := lawful.exists_nodeAt?_iff
      exists_parent := ?_
      parent?_eq_none := ?_ }
  · rw [← depthFirst.nodeCount_eq]
    exact lawful.size_le_nodeCount
  · intro node discovered apart
    have positive := lawful.contains_iff_rank_pos.mp discovered
    obtain ⟨parent, up⟩ := lawful.exists_parent node positive apart
    exact ⟨parent, up, lawful.discoveredBefore_iff.mpr (lawful.rank_parent node parent up)⟩
  · rintro node (rfl | absent | foreign)
    · exact lawful.parent?_start
    · exact lawful.parent?_of_undiscovered absent
    · apply lawful.parent?_of_undiscovered
      rw [Bool.eq_false_iff] at foreign ⊢
      intro discovered
      exact foreign (depthFirst.contains_of_rank_pos (lawful.contains_iff_rank_pos.mp discovered))

theorem inStep_of_number (numbered : graph.number start = .ok numbering) :
    numbering.InStep graph start := by
  cases inside : graph.contains start with
  | true => exact inStep_of_depthFirst (depthFirst_of_number_eq_ok inside numbered)
  | false =>
      rw [number_of_foreign inside] at numbered
      cases numbered
      exact inStep_empty graph start

theorem mem_undiscovered_iff :
    node ∈ numbering.undiscovered ↔
      node.index < numbering.nodeCount ∧ numbering.contains node = false := by
  rw [undiscovered, List.mem_filter, Node.mem_below, Bool.not_eq_true']

theorem pairwise_undiscovered (numbering : Numbering) :
    numbering.undiscovered.Pairwise fun first second => first.index < second.index := by
  have ascending : (Node.below numbering.nodeCount).Pairwise
      fun first second => first.index < second.index :=
    List.pairwise_map.mpr List.pairwise_lt_range
  exact ascending.filter _

/-- The discovered nodes and the others are all nodes, each once. -/
theorem Lawful.order_append_undiscovered_perm (lawful : numbering.Lawful start) :
    (numbering.order.toList ++ numbering.undiscovered).Perm
      (Node.below numbering.nodeCount) := by
  have discovered (node : Node) :
      node ∈ numbering.order.toList ↔ numbering.contains node = true := by
    rw [lawful.mem_order_iff, lawful.contains_iff_rank_pos]
  have apart : ∀ node ∈ numbering.order.toList, ∀ other ∈ numbering.undiscovered,
      node ≠ other := by
    rintro node listed other rest rfl
    have absent := (mem_undiscovered_iff.mp rest).2
    rw [(discovered node).mp listed] at absent
    cases absent
  have distinct : (numbering.order.toList ++ numbering.undiscovered).Nodup :=
    List.nodup_append.mpr
      ⟨lawful.nodup_order, (Node.nodup_below numbering.nodeCount).filter _, apart⟩
  apply (List.perm_ext_iff_of_nodup distinct (Node.nodup_below numbering.nodeCount)).mpr
  intro node
  rw [List.mem_append, discovered, mem_undiscovered_iff, Node.mem_below]
  constructor
  · rintro (known | ⟨inside, -⟩)
    · exact lt_nodeCount_of_contains known
    · exact inside
  · intro inside
    cases known : numbering.contains node with
    | true => exact .inl rfl
    | false => exact .inr ⟨inside, rfl⟩

end Numbering

/-- Whenever a graph can be numbered, from whatever start node, the tables of the numbering are in
step.  In an analysis the reachable nodes, together with the unreachable ones in ascending order,
are the nodes of the graph. -/
theorem number_keeps_tables_in_step (graph : FlowGraph) :
    (∀ start numbering, graph.number start = .ok numbering → numbering.InStep graph start) ∧
    ∀ options analysis, (graph.analyse options).outcome = .ok analysis →
      (analysis.visited ++ analysis.unreachable).Perm graph.nodes ∧
        analysis.unreachable.Pairwise fun first second => first.index < second.index := by
  refine ⟨fun start numbering => Numbering.inStep_of_number, ?_⟩
  intro options analysis succeeded
  obtain ⟨start, -, -, derived⟩ := numbered_of_analyse_eq_ok succeeded
  refine ⟨?_, Numbering.pairwise_undiscovered analysis.numbering⟩
  rw [nodes, ← derived.depthFirst.nodeCount_eq]
  exact derived.depthFirst.lawful.order_append_undiscovered_perm

/-- In `branching` the node `n3` is discovered third, before `n2`, and `n4` is not discovered.
From a node outside the graph nothing is. -/
theorem branching_tables_in_step :
    branchingNumbering.InStep branching ⟨0⟩ ∧ branchingNumbering.nodeAt? 3 = some ⟨3⟩ ∧
      (Numbering.empty 5).InStep branching ⟨7⟩ ∧
        ∃ analysis, (branching.analyse .standard).outcome = .ok analysis ∧
          analysis.unreachable = [⟨4⟩] ∧
            (analysis.visited ++ analysis.unreachable).Perm branching.nodes := by
  obtain ⟨inStep, everyNode⟩ := number_keeps_tables_in_step branching
  have analysed : (branching.analyse .standard).outcome =
      .ok ⟨branchingNumbering, ⟨#[⟨0⟩, ⟨0⟩, ⟨0⟩, ⟨0⟩, ⟨4⟩]⟩,
        ⟨#[none, some ⟨0⟩, some ⟨0⟩, some ⟨0⟩, none]⟩⟩ := by cbv
  refine ⟨inStep ⟨0⟩ _ number_branching, rfl, inStep ⟨7⟩ _ (by cbv), _, analysed, rfl, ?_⟩
  exact (everyNode .standard _ analysed).1

end FlowDominance
