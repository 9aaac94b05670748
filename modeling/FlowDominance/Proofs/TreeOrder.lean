import FlowDominance.Proofs.LawfulNumbering

/-!
# The order of a depth-first tree

In a lawful numbering parents have smaller ranks than their children, so the ancestors
of a node form a chain along which ranks fall until the start node is reached.
-/

namespace FlowDominance

namespace Numbering

variable {numbering : Numbering} {start upper middle lower node other : Node}

theorem Ancestor.trans_proper (first : numbering.Ancestor upper middle)
    (second : numbering.ProperAncestor middle lower) :
    numbering.ProperAncestor upper lower := by
  obtain ⟨parent, up, above⟩ := second
  exact ⟨parent, up, first.trans above⟩

theorem ProperAncestor.trans_ancestor (first : numbering.ProperAncestor upper middle)
    (second : numbering.Ancestor middle lower) : numbering.ProperAncestor upper lower := by
  induction second with
  | refl => exact first
  | step up _ inductionHypothesis => exact ⟨_, up, inductionHypothesis.ancestor⟩

theorem ProperAncestor.trans (first : numbering.ProperAncestor upper middle)
    (second : numbering.ProperAncestor middle lower) :
    numbering.ProperAncestor upper lower :=
  first.trans_ancestor second.ancestor

theorem properAncestor_iff_ancestor_parent {parent : Node}
    (up : numbering.parent? lower = some parent) :
    numbering.ProperAncestor upper lower ↔ numbering.Ancestor upper parent := by
  constructor
  · rintro ⟨other, otherUp, above⟩
    rw [up] at otherUp
    cases otherUp
    exact above
  · intro above
    exact ⟨parent, up, above⟩

theorem ancestor_iff_of_parent? {parent : Node} (up : numbering.parent? lower = some parent) :
    numbering.Ancestor upper lower ↔ upper = lower ∨ numbering.Ancestor upper parent := by
  rw [ancestor_iff, properAncestor_iff_ancestor_parent up]

theorem Ancestor.total (first : numbering.Ancestor upper lower)
    (second : numbering.Ancestor other lower) :
    numbering.Ancestor upper other ∨ numbering.Ancestor other upper := by
  induction first with
  | refl => exact .inr second
  | step up above inductionHypothesis =>
      rcases ancestor_iff.mp second with rfl | proper
      · exact .inl (.step up above)
      · exact inductionHypothesis ((properAncestor_iff_ancestor_parent up).mp proper)

namespace Lawful

variable (lawful : numbering.Lawful start)
include lawful

theorem rank_le_of_ancestor (ancestor : numbering.Ancestor upper lower) :
    numbering.rank upper ≤ numbering.rank lower := by
  induction ancestor with
  | refl => exact Nat.le_refl _
  | step up _ inductionHypothesis =>
      have := lawful.rank_parent_lt up
      omega

theorem rank_pos_of_ancestor (ancestor : numbering.Ancestor upper lower)
    (positive : 0 < numbering.rank lower) : 0 < numbering.rank upper := by
  induction ancestor with
  | refl => exact positive
  | step up _ inductionHypothesis =>
      exact inductionHypothesis (lawful.rank_parent_pos up)

theorem rank_lt_of_properAncestor (proper : numbering.ProperAncestor upper lower) :
    numbering.rank upper < numbering.rank lower := by
  obtain ⟨parent, up, above⟩ := proper
  have := lawful.rank_le_of_ancestor above
  have := lawful.rank_parent_lt up
  omega

theorem rank_pos_of_properAncestor (proper : numbering.ProperAncestor upper lower) :
    0 < numbering.rank upper := by
  obtain ⟨parent, up, above⟩ := proper
  exact lawful.rank_pos_of_ancestor above (lawful.rank_parent_pos up)

theorem discoveredBefore_of_properAncestor (proper : numbering.ProperAncestor upper lower) :
    numbering.DiscoveredBefore upper lower :=
  lawful.discoveredBefore_iff.mpr
    ⟨lawful.rank_pos_of_properAncestor proper, lawful.rank_lt_of_properAncestor proper⟩

theorem ne_start_of_properAncestor (proper : numbering.ProperAncestor upper lower) :
    lower ≠ start := by
  rintro rfl
  exact not_properAncestor_of_parent?_eq_none lawful.parent?_start proper

theorem properAncestor_iff :
    numbering.ProperAncestor upper lower ↔
      numbering.Ancestor upper lower ∧ upper ≠ lower := by
  constructor
  · intro proper
    refine ⟨proper.ancestor, ?_⟩
    rintro rfl
    have := lawful.rank_lt_of_properAncestor proper
    omega
  · rintro ⟨ancestor, apart⟩
    exact (ancestor_iff.mp ancestor).resolve_left apart

theorem properAncestor_of_rank_lt (ancestor : numbering.Ancestor upper lower)
    (before : numbering.rank upper < numbering.rank lower) :
    numbering.ProperAncestor upper lower := by
  refine lawful.properAncestor_iff.mpr ⟨ancestor, ?_⟩
  rintro rfl
  omega

/-- Of two ancestors of a node the one with the smaller rank is above the other. -/
theorem ancestor_of_rank_le (first : numbering.Ancestor upper lower)
    (second : numbering.Ancestor other lower) (positive : 0 < numbering.rank lower)
    (before : numbering.rank upper ≤ numbering.rank other) :
    numbering.Ancestor upper other := by
  rcases first.total second with above | below
  · exact above
  · have := lawful.rank_le_of_ancestor below
    have same : upper = other :=
      lawful.eq_of_rank_eq (lawful.rank_pos_of_ancestor first positive) (by omega)
    rw [same]
    exact .refl

theorem start_ancestor (positive : 0 < numbering.rank node) :
    numbering.Ancestor start node := by
  induction rank : numbering.rank node using Nat.strongRecOn generalizing node with
  | ind _ inductionHypothesis =>
      by_cases root : node = start
      · rw [root]
        exact .refl
      · obtain ⟨parent, up⟩ := lawful.exists_parent node positive root
        have smaller := lawful.rank_parent_lt up
        exact .step up (inductionHypothesis _ (by omega) (lawful.rank_parent_pos up) rfl)

end Lawful

end Numbering

end FlowDominance
