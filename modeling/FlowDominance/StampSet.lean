import FlowDominance.NodeMap

/-!
# Node sets that are cheap to empty

A search that runs once for every node needs a fresh set of visited nodes each time.
Emptying a table of flags would cost as much as the table is long.  A `StampSet`
keeps a number in every cell instead and counts as members the nodes whose number is
that of the current round; starting the next round empties the set in one step.

Round numbers have 32 bits.  When they run out, all cells are reset and counting
starts again, so no number of an earlier round is ever taken for the current one.
-/

namespace FlowDominance

/-- A set of nodes, held as the nodes whose stamp is that of the current round. -/
structure StampSet where
  /-- For each node the round in which it was last inserted, or zero. -/
  stamps : NodeMap UInt32
  round : UInt32

namespace StampSet

/-- The set over `size` nodes before its first round. -/
def fresh (size : Nat) : StampSet :=
  ⟨NodeMap.replicate size 0, 0⟩

def lastRound : UInt32 := 0xffffffff

/-- The empty set, over the same nodes. -/
def nextRound : StampSet → StampSet
  | ⟨stamps, round⟩ =>
      if round = lastRound then ⟨NodeMap.replicate stamps.size 0, 1⟩
      else ⟨stamps, round + 1⟩

@[inline] def contains (set : StampSet) (node : Node) : Bool :=
  set.stamps.find? node = some set.round

/-- The set with `node`, which must have a cell, as a member. -/
def insert : StampSet → Node → Except Fault StampSet
  | ⟨stamps, round⟩, node =>
      match stamps.write node round with
      | .ok stamps => .ok ⟨stamps, round⟩
      | .error fault => .error fault

/-- The number of nodes that are not in the set. -/
def vacancy (set : StampSet) : Nat :=
  set.stamps.countWhere (· ≠ set.round)

theorem insert_eq_ok_iff {set inserted : StampSet} {node : Node} :
    set.insert node = .ok inserted ↔
      inserted.round = set.round ∧ set.stamps.write node set.round = .ok inserted.stamps := by
  obtain ⟨stamps, round⟩ := set
  obtain ⟨newStamps, newRound⟩ := inserted
  simp only [insert]
  cases stamps.write node round with
  | error fault => simp
  | ok written =>
      simp only [Except.ok.injEq, mk.injEq]
      constructor
      · rintro ⟨same, rounds⟩
        exact ⟨rounds.symm, same⟩
      · rintro ⟨rounds, same⟩
        exact ⟨same, rounds.symm⟩

/-- After an insertion the inserted node is a member and nothing else has changed. -/
theorem contains_of_insert {set inserted : StampSet} {node : Node}
    (success : set.insert node = .ok inserted) (other : Node) :
    inserted.contains other = (decide (other = node) || set.contains other) := by
  obtain ⟨rounds, written⟩ := insert_eq_ok_iff.mp success
  by_cases same : other = node
  · simp [contains, rounds, NodeMap.find?_of_write written, same]
  · simp [contains, rounds, NodeMap.find?_of_write written, same]

theorem vacancy_lt_of_insert {set inserted : StampSet} {node : Node}
    (absent : set.contains node = false) (success : set.insert node = .ok inserted) :
    inserted.vacancy < set.vacancy := by
  obtain ⟨rounds, written⟩ := insert_eq_ok_iff.mp success
  obtain ⟨old, found⟩ := NodeMap.exists_find?_of_lt (NodeMap.lt_size_of_write written)
  have stale : old ≠ set.round := by
    simpa [contains, found] using absent
  simp only [vacancy, rounds]
  exact NodeMap.countWhere_lt_of_write written found (by simpa using stale) (by simp)

end StampSet

end FlowDominance
