import FlowDominance.Semidominator

/-!
# The search for semidominators, step by step

The search is written with matches that remember what they have found out, because that is what
its end depends on.  The equations here say what one step does without mentioning the end: a step
hands the outcome of a part on to the rest with `Except.bind`.
-/

namespace FlowDominance

theorem StampSet.insert_eq_bind (set : StampSet) (node : Node) :
    set.insert node =
      (set.stamps.write node set.round).bind fun stamps => .ok ⟨stamps, set.round⟩ := by
  rw [insert]
  cases set.stamps.write node set.round <;> rfl

namespace Semidominator

/-- A step of a sweep with a predecessor of the last node. -/
theorem sweep_cons (graph : FlowGraph) (numbering : Numbering) (bound : Nat) (node : Node)
    (pending stack : List Node) (best : Option (Node × Nat)) (seen : StampSet) :
    sweep graph numbering bound (node :: pending) stack best seen =
      match numbering.position? node with
      | none => sweep graph numbering bound pending stack best seen
      | some position =>
          if seen.contains node then sweep graph numbering bound pending stack best seen
          else
            (seen.insert node).bind fun seen =>
              if position < bound then
                sweep graph numbering bound pending stack (some (better node position best)) seen
              else sweep graph numbering bound pending (node :: stack) best seen := by
  rw [sweep]
  cases numbering.position? node with
  | none => rfl
  | some position =>
      dsimp only
      split
      · rfl
      · split
        · next fault failure => rw [failure]; rfl
        · next inserted success => rw [success]; rfl

theorem sweep_nil_cons (graph : FlowGraph) (numbering : Numbering) (bound : Nat) (node : Node)
    (stack : List Node) (best : Option (Node × Nat)) (seen : StampSet) :
    sweep graph numbering bound [] (node :: stack) best seen =
      (graph.predecessorsOf node).bind fun predecessors =>
        sweep graph numbering bound predecessors stack best seen := by
  rw [sweep]
  cases graph.predecessorsOf node <;> rfl

theorem search_eq_bind (graph : FlowGraph) (numbering : Numbering) (target : Node)
    (position : Nat) (seen : StampSet) :
    search graph numbering target position seen =
      (seen.nextRound.insert target).bind fun seen =>
        sweep graph numbering position [] [target] none seen := by
  rw [search]
  cases seen.nextRound.insert target <;> rfl

theorem settle_eq_bind (graph : FlowGraph) (numbering : Numbering) (progress : Progress)
    (node : Node) (position : Nat) :
    settle graph numbering progress (node, position) =
      (search graph numbering node position progress.seen).bind fun (result, seen) =>
        match result with
        | none => .error (.noCandidate node)
        | some semidominator =>
            (progress.found.write node semidominator).bind fun found =>
              .ok (⟨seen, found⟩, .semidominator node semidominator) := by
  rw [settle]
  cases search graph numbering node position progress.seen with
  | error fault => rfl
  | ok found =>
      obtain ⟨result, seen⟩ := found
      cases result with
      | none => rfl
      | some semidominator =>
          simp only [Except.bind]
          cases progress.found.write node semidominator <;> rfl

end Semidominator

end FlowDominance
