import FlowDominance.Proofs.DerivedAnalysis
import FlowDominance.Proofs.OrderedTables

/-!
# Checks that always pass

What the optional checks compare holds of every numbering that a traversal yields and of
every finished analysis, whether or not the graph is consistent.
-/

namespace FlowDominance

namespace Numbering.Lawful

variable {numbering : Numbering} {start : Node} (lawful : numbering.Lawful start)
include lawful

theorem recorded : numbering.Recorded start where
  root?_eq := lawful.root?_eq
  parent?_start := lawful.parent?_start
  position?_eq node position := (lawful.nodeAt?_eq_some_iff node position).mp
  hasEarlierParent node position found apart := by
    have placed := (lawful.nodeAt?_eq_some_iff node position).mp found
    obtain ⟨positive, rank⟩ := lawful.position?_eq_some_iff.mp placed
    obtain ⟨parent, up⟩ := lawful.exists_parent node (rank ▸ positive) apart
    have parentPlaced := lawful.position?_eq_some_iff.mpr ⟨lawful.rank_parent_pos up, rfl⟩
    exact ⟨parent, _, up, parentPlaced, rank ▸ lawful.rank_parent_lt up⟩

theorem check_eq_ok : numbering.check start = .ok () :=
  check_eq_ok_iff.mpr lawful.recorded

end Numbering.Lawful

namespace Analysis.Derived

variable {graph : FlowGraph} {start node : Node} {analysis : Analysis}
  (derived : Derived graph start analysis)
include derived

theorem size_idom : analysis.idom.size = analysis.numbering.nodeCount := by
  obtain ⟨relation, -, solves⟩ := derived.equations
  exact solves.size_eq

theorem inOrder (positive : 0 < analysis.numbering.rank node) (apart : node ≠ start) :
    analysis.InOrder node := by
  have lawful := derived.depthFirst.lawful
  obtain ⟨dominator, found⟩ := derived.exists_idom? positive apart
  exact
    { semidominator := ⟨_, derived.find?_semi positive apart,
        lawful.discoveredBefore_of_properAncestor (derived.properAncestor node positive apart)⟩
      dominator := ⟨dominator, found,
        lawful.discoveredBefore_of_properAncestor (derived.properAncestor_of_idom? found)⟩ }

theorem inOrder_of_mem_belowRoot :
    ∀ node ∈ analysis.numbering.belowRoot, analysis.InOrder node := by
  intro node below
  obtain ⟨positive, apart⟩ := derived.depthFirst.lawful.mem_belowRoot_iff.mp below
  exact derived.inOrder positive apart

theorem exists_tree : ∃ tree, analysis.tree = .ok tree :=
  exists_tree_of_inOrder derived.depthFirst.lawful derived.size_idom
    derived.inOrder_of_mem_belowRoot

theorem check_eq_ok : analysis.check = .ok () :=
  (check_eq_ok_iff derived.depthFirst.lawful derived.tabulates.size_eq derived.size_idom).mpr
    derived.inOrder_of_mem_belowRoot

end Analysis.Derived

end FlowDominance
