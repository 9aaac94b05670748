import FlowDominance.Numbering

/-!
# Checking a numbering

`Numbering.check` compares the three tables of a numbering with each other: the start
node comes first and has no parent, every node is recorded at the position it has in
the order, and every other node has a parent with a smaller position.  The first
disagreement is reported, in the order of the nodes' positions.
-/

namespace FlowDominance

namespace Numbering

def precedes (numbering : Numbering) (node : Node) (bound : Nat) : Bool :=
  (numbering.position? node).any (· < bound)

def checkPlaced (numbering : Numbering) (start : Node) :
    Node × Nat → Except Fault Unit
  | (node, position) => do
      let recorded := numbering.position? node
      if recorded ≠ some position then
        throw (.inconsistent (.misplaced node position recorded))
      if node = start then return
      unless (numbering.parent? node).any (numbering.precedes · position) do
        throw (.inconsistent (.orphan node))

/-- Checks a numbering against the node from which the traversal is said to have started. -/
def check (numbering : Numbering) (start : Node) : Except Fault Unit := do
  if numbering.root? ≠ some start ∨ numbering.position? start ≠ some 1 then
    throw (.inconsistent (.startNotFirst start))
  if (numbering.parent? start).isSome then
    throw (.inconsistent (.startHasParent start))
  numbering.placed.forM (numbering.checkPlaced start)

theorem precedes_iff {numbering : Numbering} {node : Node} {bound : Nat} :
    numbering.precedes node bound = true ↔
      ∃ position, numbering.position? node = some position ∧ position < bound := by
  simp [precedes, Option.any_eq_true_iff_get, Option.isSome_iff_exists]
  constructor
  · rintro ⟨⟨position, placed⟩, bounded⟩
    exact ⟨position, placed, by simpa [placed] using bounded⟩
  · rintro ⟨position, placed, bounded⟩
    exact ⟨⟨position, placed⟩, by simpa [placed] using bounded⟩

end Numbering

end FlowDominance
