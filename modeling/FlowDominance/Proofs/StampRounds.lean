import FlowDominance.StampSet
import Mathlib.Logic.Basic

/-!
# Rounds of a stamp set

One set of stamps serves many searches.  No stamp is ever ahead of the current round, so
every round begins with the empty set, also the one after the round numbers have run out.
-/

namespace FlowDominance

namespace StampSet

variable {set inserted : StampSet} {node : Node}

/-- No cell holds a number that a later round could take. -/
def Lawful (set : StampSet) : Prop :=
  ∀ node stamp, set.stamps.find? node = some stamp → stamp.toNat ≤ set.round.toNat

theorem lawful_fresh (size : Nat) : (fresh size).Lawful := by
  intro node stamp found
  rw [fresh, NodeMap.find?_replicate] at found
  split at found
  · cases found
    exact Nat.zero_le _
  · cases found

theorem toNat_round_add_one {round : UInt32} (more : round ≠ lastRound) :
    (round + 1).toNat = round.toNat + 1 := by
  have room : round.toNat ≠ lastRound.toNat := fun same => more (UInt32.toNat_inj.mp same)
  have bound := round.toNat_lt
  simp only [lastRound, UInt32.reduceToNat] at room
  rw [UInt32.toNat_add]
  simp only [UInt32.reduceToNat]
  omega

theorem lawful_nextRound (lawful : set.Lawful) : set.nextRound.Lawful := by
  obtain ⟨stamps, round⟩ := set
  intro node stamp found
  by_cases last : round = lastRound
  · simp only [nextRound, if_pos last, NodeMap.find?_replicate] at found
    split at found
    · cases found
      exact Nat.zero_le _
    · cases found
  · simp only [nextRound, if_neg last] at found ⊢
    rw [toNat_round_add_one last]
    exact Nat.le_succ_of_le (lawful node stamp found)

theorem contains_nextRound (lawful : set.Lawful) (node : Node) :
    set.nextRound.contains node = false := by
  obtain ⟨stamps, round⟩ := set
  simp only [contains, decide_eq_false_iff_not]
  intro found
  by_cases last : round = lastRound
  · simp only [nextRound, if_pos last, NodeMap.find?_replicate] at found
    split at found <;> simp at found
  · simp only [nextRound, if_neg last] at found
    have before : (round + 1).toNat ≤ round.toNat := lawful node _ found
    rw [toNat_round_add_one last] at before
    omega

theorem size_nextRound (set : StampSet) : set.nextRound.stamps.size = set.stamps.size := by
  obtain ⟨stamps, round⟩ := set
  by_cases last : round = lastRound
  · simp [nextRound, last]
  · simp [nextRound, last]

theorem lawful_of_insert (lawful : set.Lawful) (success : set.insert node = .ok inserted) :
    inserted.Lawful := by
  obtain ⟨rounds, written⟩ := insert_eq_ok_iff.mp success
  intro other stamp found
  rw [NodeMap.find?_of_write written] at found
  rw [rounds]
  split at found
  · cases found
    exact Nat.le_refl _
  · exact lawful other stamp found

theorem size_of_insert (success : set.insert node = .ok inserted) :
    inserted.stamps.size = set.stamps.size :=
  NodeMap.size_of_write (insert_eq_ok_iff.mp success).2

theorem exists_insert (inside : node.index < set.stamps.size) :
    ∃ inserted, set.insert node = .ok inserted := by
  obtain ⟨stamps, written⟩ := NodeMap.exists_write_of_lt set.round inside
  exact ⟨⟨stamps, set.round⟩, insert_eq_ok_iff.mpr ⟨rfl, written⟩⟩

end StampSet

end FlowDominance
