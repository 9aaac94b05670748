import FlowDominance.Proofs.ChildLists
import FlowDominance.Proofs.DominanceQueries
import FlowDominance.Proofs.FaultClassification
import FlowDominance.Proofs.ReachablePart

/-!
# The dominator tree as a rooted tree

The immediate dominators of a successful analysis can be looked at in five ways: one by one,
as lists of children, as a list of edges, through depths, and by going up.  All five show one
tree with the entry at its root.  Positions fall on every way up, which is what makes it a
tree; nothing has to be known of paths, so this also holds of a graph that contradicts itself,
where the nodes on a way up need not be on every path.
-/

namespace FlowDominance

open FlowGraph

namespace DominatorTree

/-- Every view that `tree` gives of the immediate dominators of `analysis` is that of one tree,
whose root is `entry` and whose nodes are those that `analysis` reached. -/
structure IsRooted (tree : DominatorTree) (graph : FlowGraph) (entry : Node)
    (analysis : Analysis) : Prop where
  entry_eq : tree.entry = entry
  idom?_eq : ∀ node, tree.idom? node = analysis.idom? node
  contains_eq : ∀ node, tree.contains node = analysis.contains node
  visited_eq : analysis.visited = entry :: analysis.visited.tail
  sorted_visited : analysis.visited.Pairwise analysis.numbering.DiscoveredBefore
  /-- The dominators of a node are all the nodes on the way up from it. -/
  wayUp_dominators : ∀ node, analysis.contains node = true →
    tree.WayUp node (tree.dominators node)
  head?_dominators : ∀ node, analysis.contains node = true →
    (tree.dominators node).head? = some node
  getLast?_dominators : ∀ node, analysis.contains node = true →
    (tree.dominators node).getLast? = some entry
  falling_dominators : ∀ node, analysis.contains node = true →
    (tree.dominators node).Pairwise fun lower upper =>
      analysis.numbering.DiscoveredBefore upper lower
  depth?_entry : tree.depth? entry = some 0
  depth?_below : ∀ node, analysis.contains node = true → node ≠ entry →
    ∃ dominator depth, analysis.idom? node = some dominator ∧
      tree.depth? dominator = some depth ∧ tree.depth? node = some (depth + 1)
  /-- All lists of children together hold every node but the entry once. -/
  count_children : ∀ node, analysis.contains node = true → node ≠ entry →
    (graph.nodes.flatMap tree.childrenOf).count node = 1
  mem_childrenOf_iff : ∀ parent child,
    child ∈ tree.childrenOf parent ↔ analysis.idom? child = some parent
  sorted_childrenOf : ∀ parent,
    (tree.childrenOf parent).Pairwise analysis.numbering.DiscoveredBefore
  /-- There is one edge to each node but the entry, in the order of discovery. -/
  edges_eq : List.Forall₂ (fun edge node => analysis.idom? node = some edge.1 ∧ edge.2 = node)
    tree.edges analysis.visited.tail
  dominates_refl : ∀ node, analysis.contains node = true → tree.dominates node node = true
  dominates_antisymm : ∀ first second, tree.dominates first second = true →
    tree.dominates second first = true → first = second
  dominates_trans : ∀ upper middle lower, tree.dominates upper middle = true →
    tree.dominates middle lower = true → tree.dominates upper lower = true
  /-- Of two dominators of a node one dominates the other. -/
  dominates_total : ∀ first second node, tree.dominates first node = true →
    tree.dominates second node = true →
      tree.dominates first second = true ∨ tree.dominates second first = true

namespace WayUp

variable {tree : DominatorTree} {node other : Node} {way rest : List Node}

theorem unique (first : tree.WayUp node way) (second : tree.WayUp node rest) : way = rest := by
  induction first generalizing rest with
  | entry =>
      cases second with
      | entry => rfl
      | step apart => exact absurd rfl apart
  | @step node parent way apart found _ inductionHypothesis =>
      cases second with
      | entry => exact absurd rfl apart
      | @step _ otherParent otherWay _ otherFound up =>
          rw [found] at otherFound
          cases otherFound
          rw [inductionHypothesis up]

theorem exists_suffix (up : tree.WayUp node way) (member : other ∈ way) :
    ∃ rest, tree.WayUp other rest ∧ rest <:+ way := by
  induction up with
  | entry =>
      rw [List.mem_singleton.mp member]
      exact ⟨_, .entry, List.suffix_refl _⟩
  | @step node parent way apart found up inductionHypothesis =>
      rcases List.mem_cons.mp member with rfl | above
      · exact ⟨_, .step apart found up, List.suffix_refl _⟩
      · obtain ⟨rest, further, suffix⟩ := inductionHypothesis above
        exact ⟨rest, further, suffix.trans (List.suffix_cons _ _)⟩

end WayUp

end DominatorTree

namespace Analysis.Derived

variable {graph : FlowGraph} {start node upper middle lower dominator : Node}
  {analysis : Analysis} {tree : DominatorTree} (derived : Derived graph start analysis)
  (built : analysis.tree = .ok tree)
include derived built

/-! ### Going up -/

theorem wayUp_dominators (positive : 0 < analysis.numbering.rank node) :
    tree.WayUp node (tree.dominators node) := by
  obtain ⟨way, up, dominators, -⟩ := derived.exists_dominators built positive
  rwa [dominators]

theorem depth?_eq_length (positive : 0 < analysis.numbering.rank node) :
    tree.depth? node = some ((tree.dominators node).length - 1) := by
  obtain ⟨way, -, dominators, depth⟩ := derived.exists_dominators built positive
  rw [depth, dominators]

theorem mem_dominators_self (positive : 0 < analysis.numbering.rank node) :
    node ∈ tree.dominators node :=
  List.mem_of_mem_head? (derived.wayUp_dominators built positive).head?_eq

theorem dominators_entry : tree.dominators start = [start] := by
  have positive := derived.depthFirst.lawful.rank_start_pos
  have up := derived.wayUp_dominators built positive
  have entry := derived.entry_of_tree built
  rw [← entry] at up ⊢
  exact up.unique .entry

theorem dominators_eq_cons (found : analysis.idom? node = some dominator) :
    tree.dominators node = node :: tree.dominators dominator := by
  have lawful := derived.depthFirst.lawful
  obtain ⟨positive, apart⟩ := derived.below_of_idom? found
  have known := lawful.rank_pos_of_properAncestor (derived.properAncestor_of_idom? found)
  rw [← derived.entry_of_tree built] at apart
  rw [← idom?_of_tree built] at found
  exact (derived.wayUp_dominators built positive).unique
    (.step apart found (derived.wayUp_dominators built known))

theorem depth?_succ (found : analysis.idom? node = some dominator) :
    ∃ depth, tree.depth? dominator = some depth ∧ tree.depth? node = some (depth + 1) := by
  have lawful := derived.depthFirst.lawful
  have positive := (derived.below_of_idom? found).1
  have known := lawful.rank_pos_of_properAncestor (derived.properAncestor_of_idom? found)
  have nonempty : 0 < (tree.dominators dominator).length :=
    List.length_pos_of_mem (derived.mem_dominators_self built known)
  refine ⟨_, derived.depth?_eq_length built known, ?_⟩
  rw [derived.depth?_eq_length built positive, derived.dominators_eq_cons built found,
    List.length_cons]
  congr 1
  omega

theorem falling_dominators (positive : 0 < analysis.numbering.rank node) :
    (tree.dominators node).Pairwise fun lower upper =>
      analysis.numbering.DiscoveredBefore upper lower := by
  apply (derived.pairwise_wayUp built (derived.wayUp_dominators built positive)).imp
  intro lower upper proper
  exact derived.depthFirst.lawful.discoveredBefore_of_properAncestor proper

/-! ### Dominance as an order -/

theorem rank_pos_of_mem_dominators (member : upper ∈ tree.dominators lower) :
    0 < analysis.numbering.rank upper ∧ 0 < analysis.numbering.rank lower := by
  by_cases inside : tree.contains lower = true
  · have positive := (derived.contains_tree_iff built).mp inside
    have above := derived.ancestor_of_mem_wayUp built (derived.wayUp_dominators built positive)
      member
    exact ⟨derived.depthFirst.lawful.rank_pos_of_ancestor above positive, positive⟩
  · rw [DominatorTree.dominators_of_not_contains inside] at member
    cases member

theorem dominates_iff_mem_dominators :
    tree.dominates upper lower = true ↔ upper ∈ tree.dominators lower := by
  rw [DominatorTree.dominates, Bool.and_eq_true, Bool.and_eq_true,
    derived.contains_tree_iff built, derived.contains_tree_iff built, List.contains_iff_mem]
  exact ⟨fun dominated => dominated.2,
    fun member => ⟨derived.rank_pos_of_mem_dominators built member, member⟩⟩

/-- The dominators of a dominator come last among those of the node. -/
theorem suffix_of_dominates (dominates : tree.dominates upper lower = true) :
    tree.dominators upper <:+ tree.dominators lower := by
  have member := (derived.dominates_iff_mem_dominators built).mp dominates
  obtain ⟨upperKnown, lowerKnown⟩ := derived.rank_pos_of_mem_dominators built member
  obtain ⟨rest, up, suffix⟩ := (derived.wayUp_dominators built lowerKnown).exists_suffix member
  rwa [(derived.wayUp_dominators built upperKnown).unique up]

theorem dominates_of_suffix (positive : 0 < analysis.numbering.rank upper)
    (suffix : tree.dominators upper <:+ tree.dominators lower) :
    tree.dominates upper lower = true :=
  (derived.dominates_iff_mem_dominators built).mpr
    (suffix.subset (derived.mem_dominators_self built positive))

theorem rank_pos_of_dominates (dominates : tree.dominates upper lower = true) :
    0 < analysis.numbering.rank upper :=
  (derived.rank_pos_of_mem_dominators built
    ((derived.dominates_iff_mem_dominators built).mp dominates)).1

theorem dominates_trans (first : tree.dominates upper middle = true)
    (second : tree.dominates middle lower = true) : tree.dominates upper lower = true :=
  derived.dominates_of_suffix built (derived.rank_pos_of_dominates built first)
    ((derived.suffix_of_dominates built first).trans (derived.suffix_of_dominates built second))

theorem dominates_antisymm (first : tree.dominates upper lower = true)
    (second : tree.dominates lower upper = true) : upper = lower := by
  have down := derived.suffix_of_dominates built first
  have up := derived.suffix_of_dominates built second
  have same := down.eq_of_length (Nat.le_antisymm down.length_le up.length_le)
  have upperFirst :=
    (derived.wayUp_dominators built (derived.rank_pos_of_dominates built first)).head?_eq
  have lowerFirst :=
    (derived.wayUp_dominators built (derived.rank_pos_of_dominates built second)).head?_eq
  rw [same, lowerFirst] at upperFirst
  exact (Option.some.inj upperFirst).symm

theorem dominates_total (first : tree.dominates upper node = true)
    (second : tree.dominates lower node = true) :
    tree.dominates upper lower = true ∨ tree.dominates lower upper = true := by
  rcases List.suffix_or_suffix_of_suffix (derived.suffix_of_dominates built first)
    (derived.suffix_of_dominates built second) with above | below
  · exact .inl (derived.dominates_of_suffix built (derived.rank_pos_of_dominates built first) above)
  · exact .inr (derived.dominates_of_suffix built (derived.rank_pos_of_dominates built second) below)

/-! ### Lists of nodes and edges -/

theorem edges_eq :
    List.Forall₂ (fun edge node => analysis.idom? node = some edge.1 ∧ edge.2 = node)
      tree.edges analysis.numbering.belowRoot := by
  have below : tree.nodes.tail = analysis.numbering.belowRoot := by
    rw [DominatorTree.nodes, (eq_of_tree built).2.2, Numbering.belowRoot]
  have known : ∀ node ∈ analysis.numbering.belowRoot, ∃ dominator,
      analysis.idom? node = some dominator := by
    intro node member
    obtain ⟨positive, apart⟩ := derived.depthFirst.lawful.mem_belowRoot_iff.mp member
    exact derived.exists_idom? positive apart
  rw [DominatorTree.edges, below, funext (idom?_of_tree built)]
  generalize analysis.numbering.belowRoot = nodes at known
  induction nodes with
  | nil => exact .nil
  | cons node rest inductionHypothesis =>
      obtain ⟨⟨dominator, found⟩, others⟩ := List.forall_mem_cons.mp known
      simp only [List.filterMap_cons, found, Option.map_some]
      exact .cons ⟨found, rfl⟩ (inductionHypothesis others)

theorem sorted_childrenOf :
    (tree.childrenOf node).Pairwise analysis.numbering.DiscoveredBefore := by
  have lawful := derived.depthFirst.lawful
  apply (derived.pairwise_childrenOf built).imp_of_mem
  intro first second member _ before
  have known := (derived.below_of_idom? ((derived.mem_childrenOf_iff built).mp member)).1
  exact lawful.discoveredBefore_iff.mpr ⟨known, before⟩

theorem count_children (positive : 0 < analysis.numbering.rank node) (apart : node ≠ start) :
    (graph.nodes.flatMap tree.childrenOf).count node = 1 := by
  have lawful := derived.depthFirst.lawful
  have below := lawful.mem_belowRoot_iff.mpr ⟨positive, apart⟩
  rw [(derived.flatMap_childrenOf_perm built).count_eq]
  exact List.count_eq_one_of_mem lawful.nodup_belowRoot below

theorem isRooted : tree.IsRooted graph start analysis := by
  have lawful := derived.depthFirst.lawful
  have known {node : Node} (reached : analysis.contains node = true) :
      0 < analysis.numbering.rank node :=
    lawful.contains_iff_rank_pos.mp reached
  have entry := derived.entry_of_tree built
  refine
    { entry_eq := entry
      idom?_eq := idom?_of_tree built
      contains_eq := ?_
      visited_eq := lawful.order_eq_cons
      sorted_visited := ?_
      wayUp_dominators := fun node reached => derived.wayUp_dominators built (known reached)
      head?_dominators := ?_
      getLast?_dominators := ?_
      falling_dominators := fun node reached => derived.falling_dominators built (known reached)
      depth?_entry := ?_
      depth?_below := ?_
      count_children := fun node reached => derived.count_children built (known reached)
      mem_childrenOf_iff := fun parent child => derived.mem_childrenOf_iff built
      sorted_childrenOf := fun parent => derived.sorted_childrenOf built
      edges_eq := derived.edges_eq built
      dominates_refl := ?_
      dominates_antisymm := fun first second => derived.dominates_antisymm built
      dominates_trans := fun upper middle lower => derived.dominates_trans built
      dominates_total := fun first second node => derived.dominates_total built }
  · intro node
    rw [Bool.eq_iff_iff, derived.contains_tree_iff built]
    exact lawful.contains_iff_rank_pos.symm
  · apply lawful.pairwise_order.imp_of_mem
    intro first second member _ before
    exact lawful.discoveredBefore_iff.mpr ⟨lawful.mem_order_iff.mp member, before⟩
  · intro node reached
    exact (derived.wayUp_dominators built (known reached)).head?_eq
  · intro node reached
    rw [← entry]
    exact (derived.wayUp_dominators built (known reached)).getLast?_eq
  · rw [derived.depth?_eq_length built lawful.rank_start_pos, derived.dominators_entry built]
    rfl
  · intro node reached apart
    obtain ⟨dominator, found⟩ := derived.exists_idom? (known reached) apart
    obtain ⟨depth, above, below⟩ := derived.depth?_succ built found
    exact ⟨dominator, depth, found, above, below⟩
  · intro node reached
    exact (derived.dominates_iff_mem_dominators built).mpr
      (derived.mem_dominators_self built (known reached))

end Analysis.Derived

/-- The tree of a successful analysis is a rooted tree in each of its views, and they agree:
from every reachable node one goes up to the entry through ever smaller positions, a node is one
level below its immediate dominator and among its children only, there is one edge to each node
but the entry, and dominance is an order in which the dominators of a node are comparable. -/
theorem tree_isRooted {graph : FlowGraph} {options : Options} {analysis : Analysis}
    (success : (graph.analyse options).outcome = .ok analysis) :
    ∃ entry tree, graph.entry = some entry ∧ analysis.tree = .ok tree ∧
      tree.IsRooted graph entry analysis := by
  obtain ⟨entry, ⟨designated, -⟩, -, derived⟩ := numbered_of_analyse_eq_ok success
  obtain ⟨tree, built⟩ := derived.exists_tree
  exact ⟨entry, tree, designated, built, derived.isRooted built⟩

/-- The analysis of `lopsided`, whose table is not that of the closest dominators. -/
def lopsidedAnalysis : Analysis where
  numbering :=
    { order := #[⟨0⟩, ⟨1⟩, ⟨2⟩]
      positions := ⟨#[some 1, some 2, some 3, none]⟩
      parents := ⟨#[none, some ⟨0⟩, some ⟨1⟩, none]⟩ }
  semi := ⟨#[⟨0⟩, ⟨0⟩, ⟨1⟩, ⟨3⟩]⟩
  idom := ⟨#[none, some ⟨0⟩, some ⟨1⟩, none]⟩

theorem analyse_lopsided : (lopsided.analyse .standard).outcome = .ok lopsidedAnalysis := by
  cbv

/-- The tree of `lopsided` is a chain, though the last node can be reached past the second. -/
theorem tree_lopsided_isRooted : ∃ tree, lopsidedAnalysis.tree = .ok tree ∧
    tree.IsRooted lopsided ⟨0⟩ lopsidedAnalysis ∧ ⟨2⟩ ∈ tree.childrenOf ⟨1⟩ ∧
      ¬ lopsided.OnEveryPath ⟨0⟩ ⟨1⟩ ⟨2⟩ := by
  obtain ⟨entry, tree, designated, built, rooted⟩ := tree_isRooted analyse_lopsided
  cases designated
  refine ⟨tree, built, rooted, (rooted.mem_childrenOf_iff _ _).mpr (by decide), ?_⟩
  have direct : lopsided.Path ⟨0⟩ ⟨2⟩ [⟨0⟩, ⟨2⟩] :=
    .cons ⟨by decide, by decide⟩ (.single ⟨2⟩)
  intro always
  exact absurd (always _ direct) (by decide)

end FlowDominance
