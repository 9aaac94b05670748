import FlowDominance.Proofs.RelativeDominatorTable
import FlowDominance.Proofs.SemidominatorLaws

/-!
# Closest dominators from semidominators

If a node has no relative dominator, then its semidominator is its closest dominator;
otherwise it shares the closest dominator of its relative dominator.  Both are shown by
looking for a way past an ancestor: it would enter the tree at a node whose semidominator
comes too early.
-/

namespace FlowDominance

namespace RelativeDominator

open FlowGraph Semidominator

def IsSemidominatorMap (graph : FlowGraph) (numbering : Numbering) (start : Node)
    (value : Node → Node) : Prop :=
  ∀ node, 0 < numbering.rank node → node ≠ start →
    IsSemidominator graph numbering node (value node)

variable {graph : FlowGraph} {numbering : Numbering} {start : Node} {value : Node → Node}
  {node relative closest upper lower : Node}
  (depthFirst : graph.DepthFirst start numbering) (consistent : graph.Consistent start)
  (semidominators : IsSemidominatorMap graph numbering start value)
include depthFirst semidominators

theorem candidate_value (below : numbering.ProperAncestor upper node) :
    Candidate graph numbering node (value node) := by
  have positive : 0 < numbering.rank node := by
    have := depthFirst.lawful.rank_lt_of_properAncestor below
    omega
  have apart := depthFirst.lawful.ne_start_of_properAncestor below
  exact (semidominators node positive apart).1

include consistent

/-- If an ancestor is not on every path to a node, then some node on the way between them
has a semidominator before that ancestor. -/
theorem exists_early_semidominator (above : numbering.Ancestor upper lower)
    (notAlways : ¬ graph.OnEveryPath start upper lower) :
    ∃ inside, numbering.ProperAncestor upper inside ∧ numbering.Ancestor inside lower ∧
      numbering.rank (value inside) < numbering.rank upper := by
  have lawful := depthFirst.lawful
  obtain ⟨outside, inside, before, candidate, below, insideAbove⟩ :=
    exists_bypass_of_not_onEveryPath depthFirst consistent above notAlways
  have insideKnown : 0 < numbering.rank inside := by
    have := lawful.rank_lt_of_properAncestor below
    omega
  have isSemidominator :=
    semidominators inside insideKnown (lawful.ne_start_of_properAncestor below)
  have least := ((isSemidominator_iff lawful).mp isSemidominator).2 outside candidate
  exact ⟨inside, below, insideAbove, by omega⟩

/-- A node on every path to another one does not come after its semidominator. -/
theorem rank_le_value_of_onEveryPath (always : graph.OnEveryPath start upper node)
    (below : numbering.ProperAncestor upper node) :
    numbering.rank upper ≤ numbering.rank (value node) := by
  have lawful := depthFirst.lawful
  have candidate := candidate_value depthFirst semidominators below
  have apart := (lawful.properAncestor_iff.mp below).2
  have higher := candidate.onEveryPath depthFirst consistent always apart
  have known := ((candidate_iff lawful).mp candidate).1
  exact lawful.rank_le_of_ancestor (ancestor_of_onEveryPath depthFirst higher known)

theorem closestOnEveryPath_of_isRelative_none (positive : 0 < numbering.rank node)
    (apart : node ≠ start) (isRelative : IsRelative numbering value node none) :
    graph.ClosestOnEveryPath start (value node) node := by
  have lawful := depthFirst.lawful
  have candidate := (semidominators node positive apart).1
  have proper := candidate.properAncestor depthFirst consistent
  have always : graph.OnEveryPath start (value node) node := by
    by_contra notAlways
    obtain ⟨inside, below, above, early⟩ :=
      exists_early_semidominator depthFirst consistent semidominators proper.ancestor notAlways
    rcases Numbering.ancestor_iff.mp above with rfl | insideProper
    · omega
    · have := isRelative inside ⟨below, insideProper⟩
      omega
  exact
    { ne_target := (lawful.properAncestor_iff.mp proper).2
      onEveryPath := always
      closest_of_onEveryPath := fun other otherApart otherAlways =>
        candidate.onEveryPath depthFirst consistent otherAlways otherApart }

/-- The closest dominator of the relative dominator of a node is on every path to the
node. -/
theorem onEveryPath_of_isRelative_some (positive : 0 < numbering.rank node)
    (isRelative : IsRelative numbering value node (some relative))
    (isClosest : graph.ClosestOnEveryPath start closest relative) :
    graph.OnEveryPath start closest node := by
  have lawful := depthFirst.lawful
  obtain ⟨⟨semiAbove, relativeAbove⟩, earlier, minimal⟩ := isRelative
  have relativeKnown := lawful.rank_pos_of_properAncestor relativeAbove
  have closestAbove :=
    properAncestor_of_closest depthFirst relativeKnown isClosest
  by_contra notAlways
  obtain ⟨inside, below, insideAbove, early⟩ :=
    exists_early_semidominator depthFirst consistent semidominators
      (closestAbove.trans relativeAbove).ancestor notAlways
  rcases insideAbove.total relativeAbove.ancestor with higher | lower
  · have insideAlways :=
      onEveryPath_of_below depthFirst isClosest.onEveryPath below higher relativeKnown
    have := rank_le_value_of_onEveryPath depthFirst consistent semidominators insideAlways below
    omega
  · have closestLate := rank_le_value_of_onEveryPath depthFirst consistent semidominators
      isClosest.onEveryPath closestAbove
    have relativeLeast : numbering.rank (value relative) ≤ numbering.rank (value inside) := by
      rcases Numbering.ancestor_iff.mp insideAbove with rfl | insideProper
      · exact Nat.le_of_lt earlier
      · exact (minimal inside ⟨semiAbove.trans_ancestor lower, insideProper⟩).1
    omega

/-- A node shares the closest dominator of its relative dominator. -/
theorem closestOnEveryPath_of_isRelative_some (positive : 0 < numbering.rank node)
    (apart : node ≠ start) (isRelative : IsRelative numbering value node (some relative))
    (isClosest : graph.ClosestOnEveryPath start closest relative) :
    graph.ClosestOnEveryPath start closest node := by
  have lawful := depthFirst.lawful
  have always := onEveryPath_of_isRelative_some depthFirst consistent semidominators positive
    isRelative isClosest
  obtain ⟨⟨semiAbove, relativeAbove⟩, -, -⟩ := isRelative
  have relativeKnown := lawful.rank_pos_of_properAncestor relativeAbove
  have closestAbove :=
    properAncestor_of_closest depthFirst relativeKnown isClosest
  refine
    { ne_target := (lawful.properAncestor_iff.mp (closestAbove.trans relativeAbove)).2
      onEveryPath := always
      closest_of_onEveryPath := ?_ }
  intro other otherApart otherAlways
  have candidate := (semidominators node positive apart).1
  have toSemidominator := candidate.onEveryPath depthFirst consistent otherAlways otherApart
  have semiKnown := ((candidate_iff lawful).mp candidate).1
  have otherAbove := ancestor_of_onEveryPath depthFirst toSemidominator semiKnown
  have otherProper := otherAbove.trans_proper semiAbove
  have toRelative :=
    onEveryPath_of_below depthFirst otherAlways otherProper relativeAbove.ancestor positive
  exact isClosest.closest_of_onEveryPath other (lawful.properAncestor_iff.mp otherProper).2
    toRelative

end RelativeDominator

end FlowDominance
