import FlowDominance.Analysis
import FlowDominance.Proofs.ClosestDominator
import FlowDominance.Proofs.ImmediateDominatorTable

/-!
# Finished analyses

`Analysis.Derived` collects what the three loops of an analysis leave behind: a depth-first
numbering, the semidominators by definition, and a table of immediate dominators that
solves the equations from which it was filled.  It holds of every analysis that succeeds,
also if the graph contradicts itself.  If the graph is consistent, the table is that of
the closest dominators.
-/

namespace FlowDominance

namespace Analysis

/-- The entry of a node in the table of semidominators; a node without one stands for
itself. -/
def semidominatorOf (analysis : Analysis) (node : Node) : Node :=
  (analysis.semi.find? node).getD node

/-- The tables of `analysis` are those of `graph`, seen from `start`. -/
structure Derived (graph : FlowGraph) (start : Node) (analysis : Analysis) : Prop where
  depthFirst : graph.DepthFirst start analysis.numbering
  tabulates : Semidominator.Tabulates graph analysis.numbering start analysis.semi
  properAncestor : ∀ node, 0 < analysis.numbering.rank node → node ≠ start →
    analysis.numbering.ProperAncestor (analysis.semidominatorOf node) node
  equations : ∃ relation : Node → Option Node,
    (∀ node, 0 < analysis.numbering.rank node → node ≠ start →
      RelativeDominator.IsRelative analysis.numbering analysis.semidominatorOf node
        (relation node)) ∧
    ImmediateDominator.Solves analysis.numbering analysis.semidominatorOf relation
      analysis.numbering.belowRoot analysis.idom

namespace Derived

variable {graph : FlowGraph} {start node dominator : Node} {analysis : Analysis}
  (derived : Derived graph start analysis)
include derived

theorem find?_semi (positive : 0 < analysis.numbering.rank node) (apart : node ≠ start) :
    analysis.semi.find? node = some (analysis.semidominatorOf node) := by
  obtain ⟨found, read, -⟩ := derived.tabulates.isSemidominator node positive apart
  rw [semidominatorOf, read, Option.getD_some]

theorem isSemidominatorMap :
    RelativeDominator.IsSemidominatorMap graph analysis.numbering start
      analysis.semidominatorOf := by
  intro node positive apart
  obtain ⟨found, read, isSemidominator⟩ := derived.tabulates.isSemidominator node positive apart
  rw [semidominatorOf, read]
  exact isSemidominator

/-- The immediate dominator of a node is its semidominator, if it has no relative
dominator, and otherwise that of the latter, which comes earlier. -/
theorem idom?_cases (positive : 0 < analysis.numbering.rank node) (apart : node ≠ start) :
    (RelativeDominator.IsRelative analysis.numbering analysis.semidominatorOf node none ∧
      analysis.idom? node = some (analysis.semidominatorOf node)) ∨
    ∃ relative, 0 < analysis.numbering.rank relative ∧ relative ≠ start ∧
      RelativeDominator.IsRelative analysis.numbering analysis.semidominatorOf node
        (some relative) ∧ analysis.idom? node = analysis.idom? relative := by
  obtain ⟨relation, isRelative, solves⟩ := derived.equations
  have lawful := derived.depthFirst.lawful
  have below := lawful.mem_belowRoot_iff.mpr ⟨positive, apart⟩
  have relative := isRelative node positive apart
  rcases Option.eq_none_or_eq_some (relation node) with inherited | ⟨source, inherited⟩
  · left
    rw [inherited] at relative
    refine ⟨relative, ?_⟩
    rw [idom?, solves.find?_of_none node below inherited]
    rfl
  · right
    rw [inherited] at relative
    obtain ⟨sourceBelow, same⟩ := solves.find?_of_some node below source inherited
    obtain ⟨sourceKnown, sourceApart⟩ := lawful.mem_belowRoot_iff.mp sourceBelow
    refine ⟨source, sourceKnown, sourceApart, relative, ?_⟩
    rw [idom?, idom?, same]

theorem exists_idom? (positive : 0 < analysis.numbering.rank node) (apart : node ≠ start) :
    ∃ dominator, analysis.idom? node = some dominator := by
  obtain ⟨relation, -, solves⟩ := derived.equations
  have below := derived.depthFirst.lawful.mem_belowRoot_iff.mpr ⟨positive, apart⟩
  obtain ⟨dominator, found⟩ := solves.exists_dominator node below
  refine ⟨dominator, ?_⟩
  rw [idom?, found]
  rfl

theorem idom?_eq_none (unsettled : analysis.numbering.rank node = 0 ∨ node = start) :
    analysis.idom? node = none := by
  obtain ⟨relation, -, solves⟩ := derived.equations
  have notBelow : node ∉ analysis.numbering.belowRoot := by
    rw [derived.depthFirst.lawful.mem_belowRoot_iff]
    rintro ⟨positive, apart⟩
    rcases unsettled with undiscovered | root
    · omega
    · exact apart root
  by_cases inside : node.index < analysis.numbering.nodeCount
  · rw [idom?, solves.find?_rest node inside notBelow]
    rfl
  · have outside : analysis.idom.find? node = none := by
      apply NodeMap.find?_eq_none_iff.mpr
      rw [solves.size_eq]
      omega
    rw [idom?, outside]
    rfl

theorem below_of_idom? (found : analysis.idom? node = some dominator) :
    0 < analysis.numbering.rank node ∧ node ≠ start := by
  refine ⟨Nat.pos_of_ne_zero fun undiscovered => ?_, fun root => ?_⟩
  · rw [derived.idom?_eq_none (.inl undiscovered)] at found
    cases found
  · rw [derived.idom?_eq_none (.inr root)] at found
    cases found

theorem ancestor_of_idom? (found : analysis.idom? node = some dominator) :
    analysis.numbering.Ancestor dominator (analysis.semidominatorOf node) := by
  have lawful := derived.depthFirst.lawful
  induction rank : analysis.numbering.rank node using Nat.strongRecOn generalizing node with
  | ind _ inductionHypothesis =>
      obtain ⟨positive, apart⟩ := derived.below_of_idom? found
      rcases derived.idom?_cases positive apart with
        ⟨-, same⟩ | ⟨relative, relativeKnown, relativeApart, isRelative, same⟩
      · rw [same] at found
        cases found
        exact .refl
      · rw [same] at found
        obtain ⟨⟨semiAbove, relativeAbove⟩, earlier, -⟩ := isRelative
        have smaller := lawful.rank_lt_of_properAncestor relativeAbove
        have above := inductionHypothesis _ (by omega) found rfl
        have relativeSemi := (derived.properAncestor relative relativeKnown relativeApart).ancestor
        exact above.trans
          (lawful.ancestor_of_rank_le relativeSemi semiAbove.ancestor relativeKnown
            (Nat.le_of_lt earlier))

theorem properAncestor_of_idom? (found : analysis.idom? node = some dominator) :
    analysis.numbering.ProperAncestor dominator node := by
  obtain ⟨positive, apart⟩ := derived.below_of_idom? found
  exact (derived.ancestor_of_idom? found).trans_proper
    (derived.properAncestor node positive apart)

theorem closestOnEveryPath_of_idom? (consistent : graph.Consistent start)
    (found : analysis.idom? node = some dominator) :
    graph.ClosestOnEveryPath start dominator node := by
  have lawful := derived.depthFirst.lawful
  induction rank : analysis.numbering.rank node using Nat.strongRecOn generalizing node with
  | ind _ inductionHypothesis =>
      obtain ⟨positive, apart⟩ := derived.below_of_idom? found
      rcases derived.idom?_cases positive apart with
        ⟨isRelative, same⟩ | ⟨relative, -, -, isRelative, same⟩
      · rw [same] at found
        cases found
        exact RelativeDominator.closestOnEveryPath_of_isRelative_none derived.depthFirst
          consistent derived.isSemidominatorMap positive apart isRelative
      · rw [same] at found
        have smaller := lawful.rank_lt_of_properAncestor isRelative.1.2
        have isClosest := inductionHypothesis _ (by omega) found rfl
        exact RelativeDominator.closestOnEveryPath_of_isRelative_some derived.depthFirst
          consistent derived.isSemidominatorMap positive apart isRelative isClosest

end Derived

end Analysis

end FlowDominance
