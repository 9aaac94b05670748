import FlowDominance.Node.Link
import Mathlib.Data.Finset.Card

/-!
# Where links lead

Links along which a measure falls come to an end, and the measure bounds how soon.  Links that
stay among finitely many nodes for longer than there are nodes run in a circle, and then they
never come to an end at all.
-/

namespace FlowDominance

namespace Node

variable {link : Node → Option Node} {node : Node}

/-- A walk on which a measure falls arrives where it may end, and each step costs at least one. -/
theorem exists_follow_of_falls {holds ends : Node → Prop} {measure : Node → Nat}
    (falls : ∀ node, holds node → ¬ ends node →
      ∃ next, link node = some next ∧ holds next ∧ measure next < measure node)
    (held : holds node) :
    ∃ steps last, follow link steps node = some last ∧ ends last ∧
      steps + measure last ≤ measure node ∧
        ∀ fewer ≤ steps, ∃ passed, follow link fewer node = some passed ∧ holds passed := by
  induction size : measure node using Nat.strongRecOn generalizing node with
  | ind _ inductionHypothesis =>
      by_cases ended : ends node
      · refine ⟨0, node, rfl, ended, by omega, ?_⟩
        rintro fewer (_ | _)
        exact ⟨node, rfl, held⟩
      · obtain ⟨next, linked, nextHeld, smaller⟩ := falls node held ended
        obtain ⟨steps, last, reached, lastEnds, short, inside⟩ :=
          inductionHypothesis _ (by omega) nextHeld rfl
        refine ⟨steps + 1, last, ?_, lastEnds, by omega, ?_⟩
        · rw [follow_succ_of_link linked, reached]
        · rintro (_ | fewer) bound
          · exact ⟨node, rfl, held⟩
          · rw [follow_succ_of_link linked]
            exact inside fewer (Nat.le_of_succ_le_succ bound)

/-- A walk that stays in a list for more steps than the list is long comes back to a node. -/
theorem exists_repeat {nodes : List Node}
    (inside : ∀ steps ≤ nodes.length, ∃ passed ∈ nodes, follow link steps node = some passed) :
    ∃ first period, 0 < period ∧ first + period ≤ nodes.length ∧
      follow link (first + period) node = follow link first node := by
  have more : (nodes.map some).toFinset.card < (Finset.range (nodes.length + 1)).card := by
    have few := List.toFinset_card_le (nodes.map some)
    rw [List.length_map] at few
    rw [Finset.card_range]
    omega
  have hits (steps : Nat) (early : steps ∈ Finset.range (nodes.length + 1)) :
      follow link steps node ∈ (nodes.map some).toFinset := by
    obtain ⟨passed, member, reached⟩ := inside steps (by simpa [Nat.lt_succ_iff] using early)
    rw [reached, List.mem_toFinset]
    exact List.mem_map_of_mem member
  obtain ⟨one, oneEarly, other, otherEarly, apart, same⟩ :=
    Finset.exists_ne_map_eq_of_card_lt_of_maps_to more hits
  rw [Finset.mem_range] at oneEarly otherEarly
  rcases Nat.lt_or_gt_of_ne apart with before | after
  · refine ⟨one, other - one, by omega, by omega, ?_⟩
    rw [Nat.add_sub_cancel' before.le, same]
  · refine ⟨other, one - other, by omega, by omega, ?_⟩
    rw [Nat.add_sub_cancel' after.le, same]

/-- Once it comes back, a walk passes no nodes but those it has passed before. -/
theorem exists_earlier_of_repeat {first period : Nat} (positive : 0 < period)
    (same : follow link (first + period) node = follow link first node) (steps : Nat) :
    ∃ earlier < first + period, follow link earlier node = follow link steps node := by
  induction steps using Nat.strongRecOn with
  | ind steps inductionHypothesis =>
      rcases Nat.lt_or_ge steps (first + period) with early | late
      · exact ⟨steps, early, rfl⟩
      · obtain ⟨rest, rfl⟩ := Nat.exists_eq_add_of_le late
        obtain ⟨earlier, bound, equal⟩ := inductionHypothesis (first + rest) (by omega)
        refine ⟨earlier, bound, ?_⟩
        rw [equal, follow_add, follow_add, same]

end Node

end FlowDominance
