import FlowDominance.Proofs.PassingChecks

/-!
# Going up a dominator tree

Immediate dominators come before their nodes, so going up from a reachable node ends at
the entry after no more nodes than the node's rank.  Every query of a dominator tree is a
fold over the nodes passed.
-/

namespace FlowDominance

namespace DominatorTree

variable {tree : DominatorTree} {node : Node} {way : List Node}

/-- `tree.WayUp node way` says that going up from `node` passes the nodes `way`, from
`node` itself to the entry. -/
inductive WayUp (tree : DominatorTree) : Node → List Node → Prop where
  | entry : WayUp tree tree.entry [tree.entry]
  | step {node parent : Node} {way : List Node} : node ≠ tree.entry →
      tree.idom? node = some parent → WayUp tree parent way → WayUp tree node (node :: way)

namespace WayUp

theorem head?_eq (up : tree.WayUp node way) : way.head? = some node := by
  cases up <;> rfl

theorem getLast?_eq (up : tree.WayUp node way) : way.getLast? = some tree.entry := by
  induction up with
  | entry => rfl
  | @step node parent way _ _ up inductionHypothesis =>
      cases way with
      | nil => cases up
      | cons next rest => exact inductionHypothesis

/-- A climb with enough steps folds over the way up. -/
theorem climb_eq_foldl {α : Type} (up : tree.WayUp node way) (combine : α → Node → α)
    (start : Node) (steps : Nat) (result : α) (enough : way.length ≤ steps) :
    tree.climb combine start steps node result = (way.foldl combine result, .ok ()) := by
  induction up generalizing steps result with
  | entry =>
      cases steps with
      | zero => cases enough
      | succ steps => simp [climb, above?]
  | @step node parent way apart found up inductionHypothesis =>
      cases steps with
      | zero => cases enough
      | succ steps =>
          have above : tree.above? node = some parent := by rw [above?, if_neg apart, found]
          rw [climb, above, List.foldl_cons]
          exact inductionHypothesis steps _ (Nat.le_of_succ_le_succ enough)

theorem ascend_eq (up : tree.WayUp node way) (inside : tree.contains node = true)
    (enough : way.length ≤ tree.reach) : tree.ascend node = (way, .ok ()) := by
  rw [ascend, if_pos inside, up.climb_eq_foldl _ _ _ _ enough]
  simp

theorem dominators_eq (up : tree.WayUp node way) (inside : tree.contains node = true)
    (enough : way.length ≤ tree.reach) : tree.dominators node = way := by
  rw [dominators, up.ascend_eq inside enough]

theorem depth?_eq (up : tree.WayUp node way) (inside : tree.contains node = true)
    (enough : way.length ≤ tree.reach) : tree.depth? node = some (way.length - 1) := by
  have counted : way.foldl (fun passed _ => passed + 1) 0 = way.length := by
    rw [List.foldl_add_const]
    omega
  rw [depth?, if_pos inside, up.climb_eq_foldl _ _ _ _ enough, counted]

end WayUp

theorem ascend_of_not_contains (outside : ¬ tree.contains node = true) :
    tree.ascend node = ([], .ok ()) :=
  if_neg outside

theorem dominators_of_not_contains (outside : ¬ tree.contains node = true) :
    tree.dominators node = [] := by
  rw [dominators, ascend_of_not_contains outside]

theorem depth?_of_not_contains (outside : ¬ tree.contains node = true) :
    tree.depth? node = none :=
  if_neg outside

end DominatorTree

namespace Analysis

namespace Derived

variable {graph : FlowGraph} {start node : Node} {analysis : Analysis} {tree : DominatorTree}
  (derived : Derived graph start analysis) (built : analysis.tree = .ok tree)
include derived built

theorem entry_of_tree : tree.entry = start := by
  rw [(eq_of_tree built).1, derived.depthFirst.lawful.root?_eq, Option.getD_some]

theorem contains_tree_iff : tree.contains node = true ↔ 0 < analysis.numbering.rank node := by
  have lawful := derived.depthFirst.lawful
  have nonempty : tree.isEmpty = false := by
    have first := lawful.root?_eq
    rw [Numbering.root?] at first
    rw [DominatorTree.isEmpty, (eq_of_tree built).2.2, Array.isEmpty_eq_false_iff]
    rintro empty
    simp [empty] at first
  rw [DominatorTree.contains, nonempty, derived.entry_of_tree built, idom?_of_tree built]
  simp only [Bool.not_false, Bool.and_true, Bool.or_eq_true, decide_eq_true_eq,
    Option.isSome_iff_exists]
  constructor
  · rintro (rfl | ⟨dominator, found⟩)
    · exact lawful.rank_start_pos
    · exact (derived.below_of_idom? found).1
  · intro positive
    by_cases root : node = start
    · exact .inl root
    · exact .inr (derived.exists_idom? positive root)

theorem exists_wayUp (positive : 0 < analysis.numbering.rank node) :
    ∃ way, tree.WayUp node way ∧ way.length ≤ analysis.numbering.rank node := by
  have lawful := derived.depthFirst.lawful
  induction rank : analysis.numbering.rank node using Nat.strongRecOn generalizing node with
  | ind _ inductionHypothesis =>
      by_cases root : node = start
      · have entry : node = tree.entry := by rw [root, derived.entry_of_tree built]
        rw [entry]
        exact ⟨_, .entry, by simp; omega⟩
      · obtain ⟨dominator, found⟩ := derived.exists_idom? positive root
        have proper := derived.properAncestor_of_idom? found
        have smaller := lawful.rank_lt_of_properAncestor proper
        obtain ⟨way, up, short⟩ := inductionHypothesis _ (by omega)
          (lawful.rank_pos_of_properAncestor proper) rfl
        refine ⟨node :: way, .step ?_ ?_ up, by simp; omega⟩
        · rw [derived.entry_of_tree built]
          exact root
        · rw [idom?_of_tree built, found]

theorem reach_of_tree : tree.reach = analysis.numbering.nodeCount + 1 := by
  rw [DominatorTree.reach, (eq_of_tree built).2.1, derived.size_idom]

/-- The dominators of a discovered node are the nodes on its way up, and its depth counts
the steps. -/
theorem exists_dominators (positive : 0 < analysis.numbering.rank node) :
    ∃ way, tree.WayUp node way ∧ tree.dominators node = way ∧
      tree.depth? node = some (way.length - 1) := by
  have inside := (derived.contains_tree_iff built).mpr positive
  obtain ⟨way, up, short⟩ := derived.exists_wayUp built positive
  have enough : way.length ≤ tree.reach := by
    have bound : analysis.numbering.rank node ≤ analysis.numbering.nodeCount :=
      derived.depthFirst.lawful.rank_le_nodeCount
    rw [derived.reach_of_tree built]
    omega
  exact ⟨way, up, up.dominators_eq inside enough, up.depth?_eq inside enough⟩

theorem check_tree_eq_ok : tree.check = .ok () := by
  obtain ⟨checked, same, passed⟩ := exists_checked_tree derived.depthFirst.lawful
    derived.size_idom derived.inOrder_of_mem_belowRoot
  rw [built] at same
  cases same
  exact passed

theorem ascend_ends (node : Node) : (tree.ascend node).2 = .ok () := by
  by_cases inside : tree.contains node = true
  · apply DominatorTree.ascend_ends_of_check (derived.check_tree_eq_ok built)
    rw [DominatorTree.nodes, (eq_of_tree built).2.2, derived.depthFirst.lawful.mem_order_iff]
    exact (derived.contains_tree_iff built).mp inside
  · rw [DominatorTree.ascend_of_not_contains inside]

end Derived

end Analysis

end FlowDominance
