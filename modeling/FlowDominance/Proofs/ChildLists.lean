import FlowDominance.Proofs.DominatorWalk
import FlowDominance.Proofs.GroupedLists

/-!
# Lists of children

A dominator tree is built by adopting the nodes in the order of discovery: each one comes last
in the list of its immediate dominator.  So the children of a node are the nodes it immediately
dominates, in that order, and all lists together hold every reachable node but the entry once.
-/

namespace FlowDominance

namespace DominatorTree

variable {idom : NodeMap (Option Node)} {children later : NodeMap (Array Node)}
  {done : List Node} {node parent : Node}

def dominatedBy (idom : NodeMap (Option Node)) (parent : Node) (nodes : List Node) :
    List Node :=
  nodes.filter fun child => (idom.find? child).join = some parent

/-- What the lists of children are once the nodes in `done` have been adopted. -/
def Adopted (idom : NodeMap (Option Node)) (done : List Node)
    (children : NodeMap (Array Node)) : Prop :=
  ∀ parent, (children.find? parent).map Array.toList =
    if parent.index < idom.size then some (dominatedBy idom parent done) else none

theorem adopted_start (idom : NodeMap (Option Node)) :
    Adopted idom [] (.replicate idom.size #[]) := by
  intro parent
  rw [NodeMap.find?_replicate]
  split <;> rfl

theorem dominatedBy_concat :
    dominatedBy idom parent (done ++ [node]) =
      if (idom.find? node).join = some parent then dominatedBy idom parent done ++ [node]
      else dominatedBy idom parent done := by
  by_cases dominated : (idom.find? node).join = some parent <;> simp [dominatedBy, dominated]

theorem Adopted.next (adopted : Adopted idom done children)
    (taken : adopt idom children node = .ok later) : Adopted idom (done ++ [node]) later := by
  intro parent
  rw [adopt] at taken
  cases read : idom.read node with
  | error fault =>
      rw [read] at taken
      cases taken
  | ok entry =>
      have found := NodeMap.read_eq_ok_iff.mp read
      rw [read] at taken
      rw [dominatedBy_concat, found, Option.join_some]
      cases entry with
      | none =>
          cases taken
          exact adopted parent
      | some dominator =>
          have success : children.update dominator (·.push node) = .ok later := taken
          have before := adopted parent
          rw [NodeMap.find?_of_update success]
          by_cases same : parent = dominator
          · have pushed : ∀ row : Option (Array Node), (row.map (·.push node)).map Array.toList =
                (row.map Array.toList).map (· ++ [node]) := by
              intro row
              cases row <;> simp
            rw [if_pos same, if_pos (congrArg some same.symm), pushed, before]
            split <;> rfl
          · have apart : some dominator ≠ some parent := fun equal =>
              same (Option.some.inj equal).symm
            rw [if_neg same, if_neg apart]
            exact before

end DominatorTree

namespace Analysis

variable {analysis : Analysis} {tree : DominatorTree} {parent child : Node}

theorem foldlM_adopt_of_tree (built : analysis.tree = .ok tree) :
    analysis.numbering.belowRoot.foldlM (DominatorTree.adopt analysis.idom)
      (.replicate analysis.idom.size #[]) = .ok tree.children := by
  rw [Analysis.tree, DominatorTree.build] at built
  cases adopted : analysis.numbering.belowRoot.foldlM (DominatorTree.adopt analysis.idom)
      (.replicate analysis.idom.size #[]) with
  | error fault =>
      rw [adopted] at built
      cases built
  | ok children =>
      rw [adopted] at built
      cases built
      rfl

theorem adopted_of_tree (built : analysis.tree = .ok tree) :
    DominatorTree.Adopted analysis.idom analysis.numbering.belowRoot tree.children := by
  have kept (done : List Node) (node : Node) (rest : List Node)
      (children later : NodeMap (Array Node))
      (split : analysis.numbering.belowRoot = done ++ node :: rest)
      (adopted : DominatorTree.Adopted analysis.idom done children)
      (taken : DominatorTree.adopt analysis.idom children node = .ok later) :
      DominatorTree.Adopted analysis.idom (done ++ [node]) later :=
    adopted.next taken
  have folded := foldlM_adopt_of_tree built
  rcases foldlM_spec (DominatorTree.adopt analysis.idom) (DominatorTree.Adopted analysis.idom)
    analysis.numbering.belowRoot kept _ (DominatorTree.adopted_start analysis.idom) with
    ⟨children, ended, adopted⟩ | ⟨-, -, -, -, fault, -, -, -, failed⟩
  · rw [folded] at ended
    cases ended
    exact adopted
  · rw [folded] at failed
    cases failed

namespace Derived

variable {graph : FlowGraph} {start : Node} (derived : Derived graph start analysis)
  (built : analysis.tree = .ok tree)
include derived built

/-- The children of a node are the nodes it immediately dominates, in the order of discovery. -/
theorem childrenOf_eq :
    tree.childrenOf parent =
      DominatorTree.dominatedBy analysis.idom parent analysis.numbering.belowRoot := by
  rw [DominatorTree.childrenOf, adopted_of_tree built parent]
  split
  · rfl
  · next outside =>
      symm
      rw [Option.getD_none, DominatorTree.dominatedBy, List.filter_eq_nil_iff]
      intro child _ dominated
      have proper := derived.properAncestor_of_idom? (of_decide_eq_true dominated)
      have known := derived.depthFirst.lawful.rank_pos_of_properAncestor proper
      rw [derived.size_idom] at outside
      exact outside (Numbering.lt_nodeCount_of_rank_pos known)

theorem mem_childrenOf_iff : child ∈ tree.childrenOf parent ↔ analysis.idom? child = some parent := by
  rw [derived.childrenOf_eq built, DominatorTree.dominatedBy, List.mem_filter, decide_eq_true_eq,
    derived.depthFirst.lawful.mem_belowRoot_iff]
  exact ⟨fun member => member.2, fun found => ⟨derived.below_of_idom? found, found⟩⟩

theorem pairwise_childrenOf :
    (tree.childrenOf parent).Pairwise fun first second =>
      analysis.numbering.rank first < analysis.numbering.rank second := by
  rw [derived.childrenOf_eq built]
  exact derived.depthFirst.lawful.pairwise_belowRoot.filter _

/-- All lists of children together hold every reachable node but the entry, once. -/
theorem flatMap_childrenOf_perm :
    (graph.nodes.flatMap tree.childrenOf).Perm analysis.numbering.belowRoot := by
  have lawful := derived.depthFirst.lawful
  have distinct : (graph.nodes.map some).Nodup :=
    (Node.nodup_below graph.nodeCount).map fun _ _ => Option.some.inj
  have covered : ∀ child ∈ analysis.numbering.belowRoot,
      analysis.idom? child ∈ graph.nodes.map some := by
    intro child member
    obtain ⟨positive, belowEntry⟩ := lawful.mem_belowRoot_iff.mp member
    obtain ⟨dominator, found⟩ := derived.exists_idom? positive belowEntry
    have known := lawful.rank_pos_of_properAncestor (derived.properAncestor_of_idom? found)
    have inside := FlowGraph.contains_iff.mp (derived.depthFirst.contains_of_rank_pos known)
    rw [found]
    exact List.mem_map_of_mem (FlowGraph.mem_nodes.mpr inside)
  have grouped := flatMap_filter_perm analysis.idom? distinct covered
  rw [List.flatMap_map] at grouped
  have same : tree.childrenOf = fun parent =>
      analysis.numbering.belowRoot.filter fun child => analysis.idom? child = some parent :=
    funext fun parent => derived.childrenOf_eq built
  rw [same]
  exact grouped

end Derived

end Analysis

end FlowDominance
