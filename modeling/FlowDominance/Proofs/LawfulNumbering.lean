import FlowDominance.Numbering.Ancestry
import Mathlib.Data.List.Perm.Subperm

/-!
# Numberings whose tables agree

Nothing in the type of a numbering ties its three tables together.  A numbering that
comes from a traversal is `Lawful`: the positions are those of the order, the order
begins with the start node, and every other discovered node has a parent before it.

Most arguments compare positions.  They are easier to follow with a position of zero
for the undiscovered nodes than with optional positions, so the laws are stated about
`Numbering.rank`.
-/

namespace FlowDominance

namespace Numbering

/-- The position of a node in the order, zero for a node that was not discovered. -/
def rank (numbering : Numbering) (node : Node) : Nat :=
  (numbering.position? node).getD 0

def DiscoveredBefore (numbering : Numbering) (first second : Node) : Prop :=
  ∃ earlier later, numbering.position? first = some earlier ∧
    numbering.position? second = some later ∧ earlier < later

/-- The tables of a numbering agree with each other and begin with `start`. -/
structure Lawful (numbering : Numbering) (start : Node) : Prop where
  size_parents : numbering.parents.size = numbering.nodeCount
  nodeAt?_eq_some_iff : ∀ node position,
    numbering.nodeAt? position = some node ↔ numbering.position? node = some position
  root?_eq : numbering.root? = some start
  parent?_start : numbering.parent? start = none
  rank_parent : ∀ node parent, numbering.parent? node = some parent →
    0 < numbering.rank parent ∧ numbering.rank parent < numbering.rank node
  exists_parent : ∀ node, 0 < numbering.rank node → node ≠ start →
    ∃ parent, numbering.parent? node = some parent

variable {numbering : Numbering} {node other start : Node} {position : Nat}

theorem rank_of_position? (placed : numbering.position? node = some position) :
    numbering.rank node = position := by
  rw [rank, placed, Option.getD_some]

theorem lt_rank_of_position? {bound : Nat} (placed : numbering.position? node = some position)
    (later : bound < position) : bound < numbering.rank node := by
  rwa [rank_of_position? placed]

theorem rank_of_contains_eq_false (absent : numbering.contains node = false) :
    numbering.rank node = 0 := by
  rw [rank, contains_eq_false_iff.mp absent, Option.getD_none]

theorem contains_of_rank_pos (positive : 0 < numbering.rank node) :
    numbering.contains node = true := by
  by_contra absent
  rw [rank_of_contains_eq_false (Bool.eq_false_iff.mpr absent)] at positive
  omega

theorem lt_nodeCount_of_contains (discovered : numbering.contains node = true) :
    node.index < numbering.nodeCount := by
  obtain ⟨position, placed⟩ := contains_iff.mp discovered
  exact lt_nodeCount_of_position? placed

theorem lt_nodeCount_of_rank_pos (positive : 0 < numbering.rank node) :
    node.index < numbering.nodeCount :=
  lt_nodeCount_of_contains (contains_of_rank_pos positive)

theorem exists_find?_of_rank_pos {α : Type} {table : NodeMap α}
    (size : table.size = numbering.nodeCount) (positive : 0 < numbering.rank node) :
    ∃ value, table.find? node = some value := by
  apply NodeMap.exists_find?_of_lt
  rw [size]
  exact lt_nodeCount_of_rank_pos positive

theorem mem_order_iff_exists_nodeAt? :
    node ∈ numbering.order.toList ↔ ∃ position, numbering.nodeAt? position = some node := by
  rw [List.mem_iff_getElem?]
  constructor
  · rintro ⟨index, found⟩
    exact ⟨index + 1, by simpa [nodeAt?] using found⟩
  · rintro ⟨_ | index, found⟩
    · cases found
    · exact ⟨index, by simpa [nodeAt?] using found⟩

namespace Lawful

variable (lawful : numbering.Lawful start)
include lawful

theorem position_pos (placed : numbering.position? node = some position) : 0 < position := by
  cases position with
  | zero => cases (lawful.nodeAt?_eq_some_iff node 0).mpr placed
  | succ position => exact Nat.succ_pos position

theorem position?_eq_some_iff :
    numbering.position? node = some position ↔
      0 < position ∧ numbering.rank node = position := by
  constructor
  · intro placed
    exact ⟨lawful.position_pos placed, rank_of_position? placed⟩
  · rintro ⟨positive, rfl⟩
    obtain ⟨position, placed⟩ := contains_iff.mp (contains_of_rank_pos positive)
    rw [rank_of_position? placed, placed]

theorem contains_iff_rank_pos : numbering.contains node = true ↔ 0 < numbering.rank node := by
  constructor
  · intro discovered
    obtain ⟨position, placed⟩ := contains_iff.mp discovered
    rw [rank_of_position? placed]
    exact lawful.position_pos placed
  · exact contains_of_rank_pos

theorem discoveredBefore_iff :
    numbering.DiscoveredBefore node other ↔
      0 < numbering.rank node ∧ numbering.rank node < numbering.rank other := by
  constructor
  · rintro ⟨earlier, later, placed, otherPlaced, before⟩
    rw [rank_of_position? placed, rank_of_position? otherPlaced]
    exact ⟨lawful.position_pos placed, before⟩
  · rintro ⟨positive, before⟩
    exact ⟨_, _, lawful.position?_eq_some_iff.mpr ⟨positive, rfl⟩,
      lawful.position?_eq_some_iff.mpr ⟨by omega, rfl⟩, before⟩

theorem nodeAt?_rank (positive : 0 < numbering.rank node) :
    numbering.nodeAt? (numbering.rank node) = some node :=
  (lawful.nodeAt?_eq_some_iff _ _).mpr (lawful.position?_eq_some_iff.mpr ⟨positive, rfl⟩)

theorem eq_of_rank_eq (positive : 0 < numbering.rank node)
    (same : numbering.rank node = numbering.rank other) : node = other := by
  have otherPositive : 0 < numbering.rank other := by omega
  have found := lawful.nodeAt?_rank positive
  rw [same, lawful.nodeAt?_rank otherPositive] at found
  exact (Option.some.inj found).symm

theorem rank_start : numbering.rank start = 1 :=
  rank_of_position? ((lawful.nodeAt?_eq_some_iff start 1).mp lawful.root?_eq)

theorem rank_start_pos : 0 < numbering.rank start := by
  rw [lawful.rank_start]
  exact Nat.one_pos

theorem one_lt_rank (positive : 0 < numbering.rank node) (below : node ≠ start) :
    1 < numbering.rank node := by
  rcases Nat.lt_or_ge 1 (numbering.rank node) with later | first
  · exact later
  · have same : numbering.rank node = numbering.rank start := by
      rw [lawful.rank_start]
      omega
    exact absurd (lawful.eq_of_rank_eq positive same) below

theorem rank_parent_pos {parent : Node} (up : numbering.parent? node = some parent) :
    0 < numbering.rank parent :=
  (lawful.rank_parent node parent up).1

theorem rank_parent_lt {parent : Node} (up : numbering.parent? node = some parent) :
    numbering.rank parent < numbering.rank node :=
  (lawful.rank_parent node parent up).2

/-! ### The order as a list -/

theorem mem_order_iff : node ∈ numbering.order.toList ↔ 0 < numbering.rank node := by
  rw [mem_order_iff_exists_nodeAt?]
  constructor
  · rintro ⟨position, found⟩
    have placed := (lawful.nodeAt?_eq_some_iff node position).mp found
    rw [rank_of_position? placed]
    exact lawful.position_pos placed
  · intro positive
    exact ⟨_, lawful.nodeAt?_rank positive⟩

theorem rank_getElem_order (index : Nat) (bound : index < numbering.order.toList.length) :
    numbering.rank numbering.order.toList[index] = index + 1 := by
  have found : numbering.nodeAt? (index + 1) = some numbering.order.toList[index] := by
    simp [nodeAt?]
  exact rank_of_position? ((lawful.nodeAt?_eq_some_iff _ _).mp found)

theorem pairwise_order :
    numbering.order.toList.Pairwise fun first second =>
      numbering.rank first < numbering.rank second := by
  rw [List.pairwise_iff_getElem]
  intro first second firstBound secondBound before
  rw [lawful.rank_getElem_order, lawful.rank_getElem_order]
  omega

theorem nodup_order : numbering.order.toList.Nodup :=
  lawful.pairwise_order.imp fun before same => by
    rw [same] at before
    omega

theorem order_eq_cons : numbering.order.toList = start :: numbering.belowRoot := by
  have first : numbering.order.toList.head? = some start := by
    have := lawful.root?_eq
    rwa [root?, ← Array.getElem?_toList, ← List.head?_eq_getElem?] at this
  exact (List.cons_head?_tail first).symm

theorem mem_belowRoot_iff :
    node ∈ numbering.belowRoot ↔ 0 < numbering.rank node ∧ node ≠ start := by
  have nodup := lawful.nodup_order
  rw [lawful.order_eq_cons] at nodup
  rw [← lawful.mem_order_iff, lawful.order_eq_cons, List.mem_cons]
  constructor
  · rintro below
    refine ⟨.inr below, ?_⟩
    rintro rfl
    exact (List.nodup_cons.mp nodup).1 below
  · rintro ⟨same | below, apart⟩
    · exact absurd same apart
    · exact below

theorem pairwise_belowRoot :
    numbering.belowRoot.Pairwise fun first second =>
      numbering.rank first < numbering.rank second := by
  have sorted := lawful.pairwise_order
  rw [lawful.order_eq_cons] at sorted
  exact (List.pairwise_cons.mp sorted).2

theorem nodup_belowRoot : numbering.belowRoot.Nodup :=
  lawful.pairwise_belowRoot.imp fun before same => by
    rw [same] at before
    omega

theorem placed_eq_map :
    numbering.placed = numbering.order.toList.map fun node => (node, numbering.rank node) := by
  apply List.ext_getElem
  · simp [placed]
  · intro index firstBound secondBound
    have bound : index < numbering.order.toList.length := by simpa using secondBound
    simp only [placed, List.getElem_zipIdx, List.getElem_map]
    rw [lawful.rank_getElem_order index bound, Nat.add_comm]

theorem placedBelowRoot_eq_map :
    numbering.placedBelowRoot =
      numbering.belowRoot.map fun node => (node, numbering.rank node) := by
  rw [placedBelowRoot, lawful.placed_eq_map, belowRoot, List.map_tail]

theorem mem_placedBelowRoot_iff :
    (node, position) ∈ numbering.placedBelowRoot ↔
      0 < numbering.rank node ∧ node ≠ start ∧ position = numbering.rank node := by
  rw [lawful.placedBelowRoot_eq_map, List.mem_map]
  constructor
  · rintro ⟨other, below, same⟩
    cases same
    obtain ⟨positive, apart⟩ := lawful.mem_belowRoot_iff.mp below
    exact ⟨positive, apart, rfl⟩
  · rintro ⟨positive, apart, rfl⟩
    exact ⟨node, lawful.mem_belowRoot_iff.mpr ⟨positive, apart⟩, rfl⟩

/-- Up to `node`, the nodes below the root are those of smaller rank. -/
theorem mem_before_iff {before after : List Node}
    (split : numbering.belowRoot = before ++ node :: after) :
    other ∈ before ↔
      0 < numbering.rank other ∧ other ≠ start ∧ numbering.rank other < numbering.rank node := by
  have sorted := lawful.pairwise_belowRoot
  rw [split] at sorted
  obtain ⟨-, following, ascending⟩ := List.pairwise_append.mp sorted
  rw [← and_assoc, ← lawful.mem_belowRoot_iff, split, List.mem_append, List.mem_cons]
  constructor
  · intro member
    exact ⟨.inl member, ascending other member node List.mem_cons_self⟩
  · rintro ⟨member | rfl | member, smaller⟩
    · exact member
    · omega
    · have := (List.pairwise_cons.mp following).1 other member
      omega

/-- What follows `node` in the order has been discovered after it. -/
theorem mem_after_iff {before after : List Node}
    (split : numbering.order.toList = before ++ node :: after) :
    other ∈ after ↔ numbering.DiscoveredBefore node other := by
  have positive : 0 < numbering.rank node := lawful.mem_order_iff.mp (by simp [split])
  have sorted := lawful.pairwise_order
  rw [split] at sorted
  obtain ⟨-, following, ascending⟩ := List.pairwise_append.mp sorted
  rw [lawful.discoveredBefore_iff]
  constructor
  · intro member
    exact ⟨positive, (List.pairwise_cons.mp following).1 other member⟩
  · rintro ⟨-, later⟩
    have known := lawful.mem_order_iff.mpr (Nat.zero_lt_of_lt later)
    rw [split, List.mem_append, List.mem_cons] at known
    rcases known with member | rfl | member
    · have := ascending other member node List.mem_cons_self
      omega
    · omega
    · exact member

theorem size_le_nodeCount : numbering.size ≤ numbering.nodeCount := by
  have inside : numbering.order.toList ⊆ Node.below numbering.nodeCount := by
    intro node member
    exact Node.mem_below.mpr
      (lt_nodeCount_of_contains (contains_of_rank_pos (lawful.mem_order_iff.mp member)))
  have shorter := (List.subperm_of_subset lawful.nodup_order inside).length_le
  simpa [size] using shorter

theorem rank_le_size : numbering.rank node ≤ numbering.size := by
  rcases Nat.eq_zero_or_pos (numbering.rank node) with undiscovered | positive
  · omega
  · obtain ⟨index, bound, rfl⟩ := List.mem_iff_getElem.mp (lawful.mem_order_iff.mpr positive)
    rw [lawful.rank_getElem_order index bound]
    simpa [size, Nat.succ_le_iff] using bound

theorem rank_le_nodeCount : numbering.rank node ≤ numbering.nodeCount :=
  Nat.le_trans lawful.rank_le_size lawful.size_le_nodeCount

end Lawful

end Numbering

end FlowDominance
