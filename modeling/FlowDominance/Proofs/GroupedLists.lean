import FlowDominance.Node
import Mathlib.Data.List.Perm.Basic
import Mathlib.Data.List.Nodup

/-!
# Lists grouped by a key

A graph keeps its edges grouped by their ends, and a dominator tree keeps its nodes grouped by
their parents.  The groups, one after another, are the list that was grouped, in another order.
-/

namespace FlowDominance

theorem Node.nodup_below (count : Nat) : (below count).Nodup := by
  apply List.nodup_range.map
  intro first second same
  exact congrArg Node.index same

/-- The groups of a list hold every element as often as the list does. -/
theorem flatMap_filter_perm {α κ : Type} [DecidableEq κ] (key : α → κ) {keys : List κ}
    (distinct : keys.Nodup) {elements : List α}
    (covered : ∀ element ∈ elements, key element ∈ keys) :
    (keys.flatMap fun group => elements.filter fun element => key element = group).Perm
      elements := by
  induction keys generalizing elements with
  | nil =>
      have none : elements = [] := List.eq_nil_iff_forall_not_mem.mpr fun element member =>
        absurd (covered element member) List.not_mem_nil
      rw [none]
      exact .refl []
  | cons first rest inductionHypothesis =>
      obtain ⟨fresh, distinctRest⟩ := List.nodup_cons.mp distinct
      have others (group : κ) (member : group ∈ rest) :
          elements.filter (fun element => key element = group) =
            (elements.filter fun element => !decide (key element = first)).filter
              fun element => key element = group := by
        rw [List.filter_filter]
        apply List.filter_congr
        intro element _
        by_cases same : key element = group
        · have apart : key element ≠ first := by
            rintro equal
            rw [equal] at same
            exact fresh (same ▸ member)
          simp [same, same ▸ apart]
        · simp [same]
      have coveredRest : ∀ element ∈ elements.filter fun element => !decide (key element = first),
          key element ∈ rest := by
        intro element member
        obtain ⟨listed, apart⟩ := List.mem_filter.mp member
        rcases List.mem_cons.mp (covered element listed) with same | later
        · simp [same] at apart
        · exact later
      rw [List.flatMap_cons, List.flatMap_congr others]
      exact ((inductionHypothesis distinctRest coveredRest).append_left _).trans
        (List.filter_append_perm _ elements)

theorem filter_flatMap_filter {α κ : Type} [DecidableEq κ] (key : α → κ) {keys : List κ}
    (distinct : keys.Nodup) {group : κ} (member : group ∈ keys) (elements : List α) :
    (keys.flatMap fun other => elements.filter fun element => key element = other).filter
        (fun element => key element = group) =
      elements.filter fun element => key element = group := by
  have apart (other : κ) (different : other ≠ group) :
      (elements.filter fun element => key element = other).filter
        (fun element => key element = group) = [] := by
    rw [List.filter_eq_nil_iff]
    intro element listed
    have same := of_decide_eq_true (List.mem_filter.mp listed).2
    simpa [same] using different
  induction keys with
  | nil => cases member
  | cons first rest inductionHypothesis =>
      obtain ⟨fresh, distinctRest⟩ := List.nodup_cons.mp distinct
      rw [List.flatMap_cons, List.filter_append]
      rcases List.mem_cons.mp member with rfl | later
      · have others : (rest.flatMap fun other =>
            elements.filter fun element => key element = other).filter
              (fun element => key element = group) = [] := by
          rw [List.filter_flatMap, List.flatMap_eq_nil_iff]
          intro other listed
          exact apart other fun same => fresh (same ▸ listed)
        rw [others, List.append_nil, List.filter_filter]
        simp only [Bool.and_self]
      · rw [apart first fun same => fresh (same ▸ later), List.nil_append]
        exact inductionHypothesis distinctRest later

end FlowDominance
