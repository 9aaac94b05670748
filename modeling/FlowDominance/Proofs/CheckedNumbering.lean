import FlowDominance.Numbering.Check
import FlowDominance.Proofs.LawfulNumbering
import FlowDominance.Proofs.LinkWalks
import FlowDominance.Proofs.LoopInvariant
import Mathlib.Tactic.IntervalCases

/-!
# What a checked numbering is good for

A numbering whose three tables come from anywhere may pass `Numbering.check`.  Its order then
begins with the start node and repeats no node, the start node has no parent, and every other node
of the order has one with a smaller position.

That parent need not be in the order.  The check looks up its position in the table of positions,
and it never compares the cells of the nodes outside the order with anything, so a stray position
there passes for a discovery.  Where no cell holds a stray position, all ways up stay in the order
and lead to the start.
-/

namespace FlowDominance

open Node

namespace Numbering

variable {numbering : Numbering} {start node : Node} {position : Nat}

def HasEarlierParent (numbering : Numbering) (node : Node) (bound : Nat) : Prop :=
  ∃ parent earlier, numbering.parent? node = some parent ∧
    numbering.position? parent = some earlier ∧ earlier < bound

/-- What the check compares holds of the three tables. -/
structure Recorded (numbering : Numbering) (start : Node) : Prop where
  root?_eq : numbering.root? = some start
  parent?_start : numbering.parent? start = none
  position?_eq : ∀ node position, numbering.nodeAt? position = some node →
    numbering.position? node = some position
  hasEarlierParent : ∀ node position, numbering.nodeAt? position = some node → node ≠ start →
    numbering.HasEarlierParent node position

/-- Going up from `node` leads to `last` in fewer than `bound` steps, through nodes of the order
only. -/
def ClimbsTo (numbering : Numbering) (node last : Node) (bound : Nat) : Prop :=
  ∃ steps < bound, follow numbering.parent? steps node = some last ∧
    ∀ fewer ≤ steps, ∃ passed ∈ numbering.order.toList,
      follow numbering.parent? fewer node = some passed

/-- The parent of `node` has a position although it is not in the order. -/
def LeavesOrder (numbering : Numbering) (node : Node) : Prop :=
  ∃ stray, numbering.parent? node = some stray ∧ numbering.contains stray = true ∧
    stray ∉ numbering.order.toList

/-! ### What the check compares -/

theorem mem_placed_iff :
    (node, position) ∈ numbering.placed ↔ numbering.nodeAt? position = some node := by
  rw [placed, List.mk_mem_zipIdx_iff_le_and_getElem?_sub]
  cases position with
  | zero => simp [nodeAt?]
  | succ position => simp [nodeAt?]

theorem any_precedes_iff {bound : Nat} :
    (numbering.parent? node).any (numbering.precedes · bound) = true ↔
      numbering.HasEarlierParent node bound := by
  unfold HasEarlierParent
  cases numbering.parent? node with
  | none => simp
  | some parent => simp [precedes_iff]

theorem checkPlaced_eq_ok_iff :
    numbering.checkPlaced start (node, position) = .ok () ↔
      numbering.position? node = some position ∧
        (node ≠ start → numbering.HasEarlierParent node position) := by
  rw [← any_precedes_iff, checkPlaced]
  by_cases recorded : numbering.position? node = some position
  · by_cases root : node = start
    · subst root
      simp [recorded, pure, Except.pure]
    · cases (numbering.parent? node).any (numbering.precedes · position) with
      | true => simp [recorded, root, pure, Except.pure]
      | false => simp [recorded, root, throw, throwThe, MonadExceptOf.throw]
  · simp [recorded, throw, throwThe, MonadExceptOf.throw, bind, Except.bind]

/-- The check passes exactly if all that it compares holds. -/
theorem check_eq_ok_iff : numbering.check start = .ok () ↔ numbering.Recorded start := by
  have loop : numbering.placed.forM (numbering.checkPlaced start) = .ok () ↔
      ∀ node position, numbering.nodeAt? position = some node →
        numbering.position? node = some position ∧
          (node ≠ start → numbering.HasEarlierParent node position) := by
    simp only [forM_eq_ok_iff, Prod.forall, mem_placed_iff, checkPlaced_eq_ok_iff]
  constructor
  · intro passed
    have first : numbering.root? = some start ∧ numbering.position? start = some 1 := by
      by_contra other
      rw [check, if_pos (not_and_or.mp other)] at passed
      cases passed
    have up : numbering.parent? start = none := by
      by_contra some
      have above : (numbering.parent? start).isSome = true := Option.isSome_iff_ne_none.mpr some
      simp [check, first, above, throw, throwThe, MonadExceptOf.throw, bind, Except.bind] at passed
    have each := loop.mp (by simpa [check, first, up] using passed)
    exact
      { root?_eq := first.1
        parent?_start := up
        position?_eq := fun node position found => (each node position found).1
        hasEarlierParent := fun node position found => (each node position found).2 }
  · intro recorded
    have first := recorded.position?_eq start 1 recorded.root?_eq
    have passed := loop.mpr fun node position found =>
      ⟨recorded.position?_eq node position found, recorded.hasEarlierParent node position found⟩
    simp [check, recorded.root?_eq, first, recorded.parent?_start, passed]

namespace Recorded

variable (recorded : numbering.Recorded start)
include recorded

theorem rank_eq (found : numbering.nodeAt? position = some node) :
    numbering.rank node = position :=
  rank_of_position? (recorded.position?_eq node position found)

theorem rank_pos (member : node ∈ numbering.order.toList) : 0 < numbering.rank node := by
  obtain ⟨_ | position, found⟩ := mem_order_iff_exists_nodeAt?.mp member
  · cases found
  · rw [recorded.rank_eq found]
    exact Nat.succ_pos position

theorem nodup_order : numbering.order.toList.Nodup := by
  rw [List.Nodup, List.pairwise_iff_getElem]
  intro first second firstBound secondBound before same
  have placed (index : Nat) (bound : index < numbering.order.toList.length) :
      numbering.position? numbering.order.toList[index] = some (index + 1) :=
    recorded.position?_eq _ _ (by simp [nodeAt?])
  have firstPlaced := placed first firstBound
  rw [same, placed second secondBound] at firstPlaced
  have equal := Option.some.inj firstPlaced
  omega

theorem nodeAt?_of_mem (member : node ∈ numbering.order.toList)
    (found : numbering.position? node = some position) :
    numbering.nodeAt? position = some node := by
  obtain ⟨place, at_place⟩ := mem_order_iff_exists_nodeAt?.mp member
  have same := recorded.position?_eq node place at_place
  rw [found] at same
  cases same
  exact at_place

/-- Going up from a node stays in the order until it comes to the start or to a node with a stray
parent. -/
theorem exists_climbsTo (found : numbering.nodeAt? position = some node) :
    ∃ last, numbering.ClimbsTo node last position ∧
      (last = start ∨ numbering.LeavesOrder last) := by
  have falls (other : Node) (listed : other ∈ numbering.order.toList)
      (goesOn : ¬ (other = start ∨ numbering.LeavesOrder other)) :
      ∃ next, numbering.parent? other = some next ∧ next ∈ numbering.order.toList ∧
        numbering.rank next < numbering.rank other := by
    rw [not_or] at goesOn
    obtain ⟨place, atPlace⟩ := mem_order_iff_exists_nodeAt?.mp listed
    obtain ⟨parent, earlier, up, placed, before⟩ :=
      recorded.hasEarlierParent other place atPlace goesOn.1
    have parentListed : parent ∈ numbering.order.toList := by
      by_contra absent
      exact goesOn.2 ⟨parent, up, contains_iff.mpr ⟨earlier, placed⟩, absent⟩
    refine ⟨parent, up, parentListed, ?_⟩
    rwa [rank_of_position? placed, recorded.rank_eq atPlace]
  have member := mem_order_iff_exists_nodeAt?.mpr ⟨position, found⟩
  obtain ⟨steps, last, reached, ended, short, inside⟩ := exists_follow_of_falls falls member
  have listed (fewer : Nat) (bound : fewer ≤ steps) : ∃ passed ∈ numbering.order.toList,
      follow numbering.parent? fewer node = some passed := by
    obtain ⟨passed, passes, held⟩ := inside fewer bound
    exact ⟨passed, held, passes⟩
  refine ⟨last, ⟨steps, ?_, reached, listed⟩, ended⟩
  obtain ⟨passed, passedListed, passes⟩ := listed steps (Nat.le_refl _)
  rw [reached] at passes
  cases passes
  have positive := recorded.rank_pos passedListed
  rw [recorded.rank_eq found] at short
  omega

end Recorded

/-- What a passed check says of any numbering, damaged or not.  Each node of the order but the start
has a parent with a smaller position, and that parent comes earlier in the order if it is in the
order at all.  Going up leads to the start in fewer steps than the position of a node says, unless
it comes to a node with a stray parent; without stray positions it always does. -/
theorem check_vouches_for_order (passed : numbering.check start = .ok ()) :
    numbering.root? = some start ∧ numbering.order.toList.Nodup ∧
      numbering.parent? start = none ∧
    (∀ node position, numbering.nodeAt? position = some node → node ≠ start →
      ∃ parent earlier, numbering.parent? node = some parent ∧
        numbering.position? parent = some earlier ∧ earlier < position ∧
          (parent ∈ numbering.order.toList → numbering.nodeAt? earlier = some parent)) ∧
    (∀ node position, numbering.nodeAt? position = some node →
      ∃ last, numbering.ClimbsTo node last position ∧
        (last = start ∨ numbering.LeavesOrder last)) ∧
    ((∀ node, numbering.contains node = true → node ∈ numbering.order.toList) →
      ∀ node position, numbering.nodeAt? position = some node →
        numbering.ClimbsTo node start position) := by
  have recorded := check_eq_ok_iff.mp passed
  refine ⟨recorded.root?_eq, recorded.nodup_order, recorded.parent?_start, ?_,
    fun node position => recorded.exists_climbsTo, ?_⟩
  · intro node position found apart
    obtain ⟨parent, earlier, up, placed, before⟩ :=
      recorded.hasEarlierParent node position found apart
    exact ⟨parent, earlier, up, placed, before,
      fun member => recorded.nodeAt?_of_mem member placed⟩
  · intro listed node position found
    obtain ⟨last, climbs, rfl | ⟨stray, -, discovered, absent⟩⟩ := recorded.exists_climbsTo found
    · exact climbs
    · exact absurd (listed stray discovered) absent

/-- The numbering of a way from `n0` through `n2` to `n1`; `n3` was not discovered. -/
def detourNumbering : Numbering where
  order := #[⟨0⟩, ⟨2⟩, ⟨1⟩]
  positions := ⟨#[some 1, some 3, some 2, none]⟩
  parents := ⟨#[none, some ⟨2⟩, some ⟨0⟩, none]⟩

/-- It passes the check and has no stray positions. -/
theorem detour_climbs_to_start : detourNumbering.ClimbsTo ⟨1⟩ ⟨0⟩ 3 := by
  have listed : ∀ node ∈ Node.below 4, detourNumbering.contains node = true →
      node ∈ detourNumbering.order.toList := by
    decide
  obtain ⟨-, -, -, -, -, climbs⟩ :=
    check_vouches_for_order (show detourNumbering.check ⟨0⟩ = .ok () from rfl)
  refine climbs (fun node discovered => ?_) ⟨1⟩ 3 rfl
  exact listed node (Node.mem_below.mpr (lt_nodeCount_of_contains discovered)) discovered

/-- A numbering in which `n2` has a position but is not in the order, and in which `n1` and `n2` are
parents of each other. -/
def phantom : Numbering where
  order := #[⟨0⟩, ⟨1⟩]
  positions := ⟨#[some 1, some 2, some 1]⟩
  parents := ⟨#[none, some ⟨2⟩, some ⟨1⟩]⟩

/-- The stray position of `n2` makes the check pass, though the parent of `n1` does not occur in the
order and going up from `n1` never leads to the start. -/
theorem phantom_passes_check : phantom.check ⟨0⟩ = .ok () ∧ phantom.nodeAt? 2 = some ⟨1⟩ ∧
    phantom.parent? ⟨1⟩ = some ⟨2⟩ ∧ ⟨2⟩ ∉ phantom.order.toList ∧
      ∀ steps, follow phantom.parent? steps ⟨1⟩ ≠ some ⟨0⟩ := by
  refine ⟨rfl, rfl, rfl, by decide, fun steps => ?_⟩
  have turns : follow phantom.parent? (0 + 2) ⟨1⟩ = follow phantom.parent? 0 ⟨1⟩ := rfl
  obtain ⟨earlier, early, equal⟩ := exists_earlier_of_repeat Nat.two_pos turns steps
  rw [← equal]
  interval_cases earlier <;> decide

end Numbering

end FlowDominance
