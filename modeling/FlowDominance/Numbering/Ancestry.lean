import FlowDominance.Numbering

/-!
# The tree of a numbering

The parents recorded by a numbering link every discovered node to the node it was
discovered from.  This module names the relations of the tree they form.  The relations
are defined for the parents of any numbering, a damaged one included.
-/

namespace FlowDominance

namespace Numbering

/-- `numbering.Ancestor upper lower` says that going from `lower` to its parent, and on
from parent to parent, leads to `upper` in some number of steps, possibly none. -/
inductive Ancestor (numbering : Numbering) (upper : Node) : Node → Prop where
  | refl : Ancestor numbering upper upper
  | step {parent lower : Node} : numbering.parent? lower = some parent →
      Ancestor numbering upper parent → Ancestor numbering upper lower

/-- An ancestor that is reached in at least one step. -/
def ProperAncestor (numbering : Numbering) (upper lower : Node) : Prop :=
  ∃ parent, numbering.parent? lower = some parent ∧ numbering.Ancestor upper parent

/-- `middle` lies on the way from `lower` up to `upper`, and is neither of them. -/
def Between (numbering : Numbering) (upper middle lower : Node) : Prop :=
  numbering.ProperAncestor upper middle ∧ numbering.ProperAncestor middle lower

variable {numbering : Numbering} {upper middle lower : Node}

theorem Ancestor.trans (first : numbering.Ancestor upper middle)
    (second : numbering.Ancestor middle lower) : numbering.Ancestor upper lower := by
  induction second with
  | refl => exact first
  | step up _ inductionHypothesis => exact .step up inductionHypothesis

theorem ProperAncestor.ancestor (proper : numbering.ProperAncestor upper lower) :
    numbering.Ancestor upper lower := by
  obtain ⟨parent, up, above⟩ := proper
  exact .step up above

/-- The ancestors of a node are the node itself and its proper ancestors. -/
theorem ancestor_iff :
    numbering.Ancestor upper lower ↔
      upper = lower ∨ numbering.ProperAncestor upper lower := by
  constructor
  · intro ancestor
    cases ancestor with
    | refl => exact .inl rfl
    | step up above => exact .inr ⟨_, up, above⟩
  · rintro (rfl | proper)
    · exact .refl
    · exact proper.ancestor

theorem not_properAncestor_of_parent?_eq_none (root : numbering.parent? lower = none) :
    ¬ numbering.ProperAncestor upper lower := by
  rintro ⟨parent, up, -⟩
  rw [root] at up
  cases up

end Numbering

end FlowDominance
