import Mathlib
import FlowDominance.Proofs.AnalysisVerdict
import FlowDominance.Proofs.DominatorWalk
import FlowDominance.Proofs.EdgeRecords

/-!
# Immediate dominators and dominance queries

On a consistent graph a successful analysis answers in terms of paths.  Its table holds
the closest of the nodes on every path to a node, and going up from a node passes exactly
the nodes on every path to it.
-/

namespace FlowDominance

open FlowGraph BlockGraph

namespace Analysis.Derived

variable {graph : FlowGraph} {start node other : Node} {analysis : Analysis}
  {tree : DominatorTree} {way : List Node} (derived : analysis.Derived graph start)
  (built : analysis.tree = .ok tree)
include derived built

theorem ancestor_of_mem_wayUp (up : tree.WayUp node way) (member : other ∈ way) :
    analysis.numbering.Ancestor other node := by
  induction up with
  | entry =>
      rw [List.mem_singleton.mp member]
      exact .refl
  | @step node parent way _ found up inductionHypothesis =>
      rw [idom?_of_tree built] at found
      rcases List.mem_cons.mp member with rfl | above
      · exact .refl
      · exact (inductionHypothesis above).trans (derived.properAncestor_of_idom? found).ancestor

theorem pairwise_wayUp (up : tree.WayUp node way) :
    way.Pairwise fun lower upper => analysis.numbering.ProperAncestor upper lower := by
  induction up with
  | entry => exact List.pairwise_singleton _ _
  | @step node parent way _ found up inductionHypothesis =>
      rw [idom?_of_tree built] at found
      refine List.pairwise_cons.mpr ⟨?_, inductionHypothesis⟩
      intro upper member
      exact (derived.ancestor_of_mem_wayUp built up member).trans_proper
        (derived.properAncestor_of_idom? found)

theorem nodup_wayUp (up : tree.WayUp node way) : way.Nodup := by
  apply (derived.pairwise_wayUp built up).imp
  intro lower upper proper same
  exact (derived.depthFirst.lawful.properAncestor_iff.mp proper).2 same.symm

/-- In a consistent graph, going up from a node passes the nodes on every path to it. -/
theorem mem_wayUp_iff (consistent : graph.Consistent start) (up : tree.WayUp node way) :
    other ∈ way ↔ graph.OnEveryPath start other node := by
  induction up with
  | entry => rw [derived.entry_of_tree built, List.mem_singleton, onEveryPath_start_iff]
  | @step node parent way _ found up inductionHypothesis =>
      rw [idom?_of_tree built] at found
      have isClosest := derived.closestOnEveryPath_of_idom? consistent found
      rw [List.mem_cons, inductionHypothesis, isClosest.onEveryPath_iff]

theorem pairwise_onEveryPath_wayUp (consistent : graph.Consistent start)
    (up : tree.WayUp node way) :
    way.Pairwise fun lower upper => graph.OnEveryPath start upper lower := by
  induction up with
  | entry => exact List.pairwise_singleton _ _
  | @step node parent way apart found up inductionHypothesis =>
      refine List.pairwise_cons.mpr ⟨?_, inductionHypothesis⟩
      intro upper member
      exact (derived.mem_wayUp_iff built consistent (.step apart found up)).mp
        (List.mem_cons_of_mem _ member)

theorem contains_tree_iff_reaches :
    tree.contains node = true ↔ graph.Reaches start node := by
  rw [derived.contains_tree_iff built, derived.depthFirst.rank_pos_iff]

theorem dominates_iff (consistent : graph.Consistent start) {upper lower : Node} :
    tree.dominates upper lower = true ↔ graph.Reaches start upper ∧ graph.Reaches start lower ∧
      graph.OnEveryPath start upper lower := by
  rw [DominatorTree.dominates, Bool.and_eq_true, Bool.and_eq_true,
    derived.contains_tree_iff_reaches built, derived.contains_tree_iff_reaches built, and_assoc]
  refine and_congr_right fun _ => and_congr_right fun reached => ?_
  obtain ⟨way, up, dominators, -⟩ :=
    derived.exists_dominators built ((derived.depthFirst.rank_pos_iff lower).mpr reached)
  rw [dominators, List.contains_iff_mem, derived.mem_wayUp_iff built consistent up]

end Analysis.Derived

/-! ### Answers in terms of paths -/

variable {graph : FlowGraph} {options : Options} {entry : Node} {analysis : Analysis}

/-- The table of a successful analysis holds, for every reachable node but the entry, the
closest of the other nodes on every path to it, and nothing for all other nodes.  The
graph may be any that is consistent, or one that was built step by step. -/
theorem idom?_isClosest
    (inOrder : graph.Consistent entry ∨ ∃ (α : Type) (history : List (Command α)),
      graph = (Command.replay .empty history).toFlowGraph)
    (designated : graph.entry = some entry)
    (success : (graph.analyse options).outcome = .ok analysis) (node : Node) :
    (node = entry ∨ ¬ graph.Reaches entry node → analysis.idom? node = none) ∧
    (node ≠ entry → graph.Reaches entry node → ∃ dominator,
      analysis.idom? node = some dominator ∧ graph.ClosestOnEveryPath entry dominator node) := by
  have derived := derived_of_analyse_eq_ok designated success
  have consistent : graph.Consistent entry := by
    rcases inOrder with consistent | ⟨α, history, rfl⟩
    · exact consistent
    · exact (BlockGraph.records_replay_empty history).consistent designated
  have reachable := derived.depthFirst.rank_pos_iff node
  constructor
  · intro unsettled
    apply derived.idom?_eq_none
    rcases unsettled with root | unreachable
    · exact .inr root
    · rw [← reachable] at unreachable
      exact .inl (Nat.eq_zero_of_not_pos unreachable)
  · intro apart reached
    obtain ⟨dominator, found⟩ := derived.exists_idom? (reachable.mpr reached) apart
    exact ⟨dominator, found, derived.closestOnEveryPath_of_idom? consistent found⟩

def crossingAnalysis : Analysis where
  numbering :=
    { order := #[⟨0⟩, ⟨1⟩, ⟨2⟩]
      positions := .ofFn 3 fun node => some (node.index + 1)
      parents := .ofFn 3 fun node => if node.index = 0 then none else some ⟨node.index - 1⟩ }
  semi := .replicate 3 ⟨0⟩
  idom := .ofFn 3 fun node => if node.index = 0 then none else some ⟨0⟩

theorem analyse_crossing :
    (crossing.toFlowGraph.analyse .standard).outcome = .ok crossingAnalysis := by
  cbv

theorem crossing_edge : crossing.toFlowGraph.Edge ⟨0⟩ ⟨2⟩ := by
  have targets : crossing.toFlowGraph.successors ⟨0⟩ = [⟨1⟩, ⟨2⟩] := by cbv
  refine ⟨by decide, ?_⟩
  rw [targets]
  decide

theorem isClosest_crossing : crossingAnalysis.idom? ⟨2⟩ = some ⟨0⟩ ∧
    crossing.toFlowGraph.ClosestOnEveryPath ⟨0⟩ ⟨0⟩ ⟨2⟩ := by
  obtain ⟨dominator, found, isClosest⟩ :=
    (idom?_isClosest (.inr ⟨Unit, _, rfl⟩) rfl analyse_crossing ⟨2⟩).2 (by decide)
      (.of_edge crossing_edge)
  have same : crossingAnalysis.idom? ⟨2⟩ = some ⟨0⟩ := by decide
  rw [same] at found
  cases found
  exact ⟨same, isClosest⟩

/-- The dominator tree of a successful analysis decides dominance along paths.  Foreign and
unreachable nodes dominate nothing and are dominated by nothing. -/
theorem tree_decides_dominance (designated : graph.entry = some entry)
    (consistent : graph.Consistent entry)
    (success : (graph.analyse options).outcome = .ok analysis) :
    ∃ tree, analysis.tree = .ok tree ∧
      (∀ upper lower, tree.dominates upper lower = true ↔
        graph.Reaches entry upper ∧ graph.Reaches entry lower ∧
          graph.OnEveryPath entry upper lower) ∧
      (∀ upper lower, tree.strictlyDominates upper lower = true ↔
        upper ≠ lower ∧ graph.Reaches entry upper ∧ graph.Reaches entry lower ∧
          graph.OnEveryPath entry upper lower) ∧
      (∀ node, ¬ graph.Reaches entry node →
        tree.dominators node = [] ∧ tree.depth? node = none) ∧
      ∀ node, graph.Reaches entry node →
        (∀ other, other ∈ tree.dominators node ↔ graph.OnEveryPath entry other node) ∧
        (tree.dominators node).Nodup ∧
        (tree.dominators node).head? = some node ∧
        (tree.dominators node).getLast? = some entry ∧
        (tree.dominators node).Pairwise
          (fun lower upper => graph.OnEveryPath entry upper lower) ∧
        ∃ depth, tree.depth? node = some depth ∧
          {other | graph.OnEveryPath entry other node}.ncard = depth + 1 := by
  have derived := derived_of_analyse_eq_ok designated success
  obtain ⟨tree, built⟩ := derived.exists_tree
  refine ⟨tree, built, ?_, ?_, ?_, ?_⟩
  · intro upper lower
    exact derived.dominates_iff built consistent
  · intro upper lower
    rw [DominatorTree.strictlyDominates, Bool.and_eq_true, decide_eq_true_eq,
      derived.dominates_iff built consistent]
  · intro node unreachable
    rw [← derived.contains_tree_iff_reaches built] at unreachable
    exact ⟨DominatorTree.dominators_of_not_contains unreachable,
      DominatorTree.depth?_of_not_contains unreachable⟩
  · intro node reached
    obtain ⟨way, up, dominators, depth⟩ :=
      derived.exists_dominators built ((derived.depthFirst.rank_pos_iff node).mpr reached)
    have members (other : Node) : other ∈ way ↔ graph.OnEveryPath entry other node :=
      derived.mem_wayUp_iff built consistent up
    have nodup := derived.nodup_wayUp built up
    rw [dominators]
    refine ⟨members, nodup, up.head?_eq, ?_, derived.pairwise_onEveryPath_wayUp built consistent up,
      way.length - 1, depth, ?_⟩
    · rw [up.getLast?_eq, derived.entry_of_tree built]
    · have asFinset : {other | graph.OnEveryPath entry other node} = ↑way.toFinset := by
        ext other
        rw [Set.mem_ofPred_eq, Finset.mem_coe, List.mem_toFinset, members]
      have nonempty : 0 < way.length := by
        cases up <;> simp
      rw [asFinset, Set.ncard_coe_finset, List.toFinset_card_of_nodup nodup]
      omega

theorem dominates_crossing : ∃ tree, crossingAnalysis.tree = .ok tree ∧
    tree.dominates ⟨0⟩ ⟨2⟩ = true ∧ ¬ tree.dominates ⟨1⟩ ⟨2⟩ = true := by
  obtain ⟨tree, built, dominates, -⟩ :=
    tree_decides_dominance rfl consistent_crossing analyse_crossing
  have direct : crossing.toFlowGraph.Path ⟨0⟩ ⟨2⟩ [⟨0⟩, ⟨2⟩] :=
    .cons crossing_edge (.single ⟨2⟩)
  refine ⟨tree, built, (dominates _ _).mpr ?_, ?_⟩
  · exact ⟨.refl _ _, ⟨_, direct⟩, onEveryPath_source _ _ _⟩
  · intro dominated
    have always := ((dominates _ _).mp dominated).2.2
    exact absurd (always _ direct) (by decide)

end FlowDominance
