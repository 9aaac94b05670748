import FlowDominance.Node

/-!
# Following links

Parents, immediate dominators and relative dominators all link a node to at most one other
node.  What one finds by going on from link to link does not depend on where the links come
from, so it is said here once, for any function from nodes to optional nodes.
-/

namespace FlowDominance

namespace Node

variable {link : Node → Option Node} {node next passed : Node}

/-- The node reached from `node` by following a number of links, if they lead that far. -/
def follow (link : Node → Option Node) : (steps : Nat) → Node → Option Node
  | 0, node => some node
  | steps + 1, node => (link node).bind (follow link steps)

@[simp] theorem follow_zero (link : Node → Option Node) (node : Node) :
    follow link 0 node = some node :=
  rfl

theorem follow_succ_of_link (linked : link node = some next) (steps : Nat) :
    follow link (steps + 1) node = follow link steps next := by
  rw [follow, linked, Option.bind_some]

theorem follow_succ_of_stop (stopped : link node = none) (steps : Nat) :
    follow link (steps + 1) node = none := by
  rw [follow, stopped, Option.bind_none]

theorem follow_add (link : Node → Option Node) (first second : Nat) (node : Node) :
    follow link (first + second) node = (follow link first node).bind (follow link second) := by
  induction first generalizing node with
  | zero => rw [Nat.zero_add, follow_zero, Option.bind_some]
  | succ first inductionHypothesis =>
      rw [Nat.add_right_comm]
      cases linked : link node with
      | none =>
          rw [follow_succ_of_stop linked, follow_succ_of_stop linked, Option.bind_none]
      | some next =>
          rw [follow_succ_of_link linked, follow_succ_of_link linked, inductionHypothesis]

/-- One link more than a way that has been gone already. -/
theorem follow_succ_eq_link {steps : Nat} (reached : follow link steps node = some passed) :
    follow link (steps + 1) node = link passed := by
  rw [follow_add, reached, Option.bind_some, follow]
  cases link passed <;> rfl

theorem follow_eq_none_of_lt {steps further : Nat} (reached : follow link steps node = some passed)
    (stopped : link passed = none) (beyond : steps < further) :
    follow link further node = none := by
  obtain ⟨rest, rfl⟩ := Nat.exists_eq_add_of_lt beyond
  rw [Nat.add_assoc, follow_add, reached, Option.bind_some, follow_succ_of_stop stopped]

end Node

end FlowDominance
