import FlowDominance.Proofs.StampRounds
import FlowDominance.Proofs.TreeOrder
import FlowDominance.Semidominator
import FlowDominance.Semidominator.Candidate

/-!
# The search for a semidominator

A search goes back from its target through the nodes discovered after it.  Its invariant
says that every node seen leads to the target, and that each node it passes through is
still on the stack or has had all its predecessors looked at.  When nothing is left to do,
the nodes seen are those that lead to the target, and the best candidate among them is
the semidominator.
-/

namespace FlowDominance

namespace Semidominator

variable {graph : FlowGraph} {numbering : Numbering} {start : Node}
  {source middle target node : Node} {bound : Nat}

/-! ### Candidates in terms of ranks -/

theorem LeadsTo.of_later (edge : middle ∈ graph.predecessors target)
    (later : bound < numbering.rank middle) (leads : LeadsTo graph numbering bound source middle) :
    LeadsTo graph numbering bound source target := by
  have discovered := Numbering.contains_of_rank_pos (by omega : 0 < numbering.rank middle)
  obtain ⟨position, placed⟩ := Numbering.contains_iff.mp discovered
  rw [Numbering.rank_of_position? placed] at later
  exact .step edge placed later leads

theorem LeadsTo.prolong (edge : source ∈ graph.predecessors middle)
    (later : bound < numbering.rank middle) (leads : LeadsTo graph numbering bound middle target) :
    LeadsTo graph numbering bound source target := by
  induction leads with
  | single last => exact .of_later last later (.single edge)
  | step first placed after _ inductionHypothesis =>
      exact .step first placed after inductionHypothesis

section

variable (lawful : numbering.Lawful start)
include lawful

theorem candidate_iff :
    Candidate graph numbering target source ↔
      0 < numbering.rank source ∧ numbering.rank source < numbering.rank target ∧
        LeadsTo graph numbering (numbering.rank target) source target := by
  constructor
  · rintro ⟨bound, position, targetPlaced, sourcePlaced, before, leads⟩
    obtain ⟨-, rfl⟩ := lawful.position?_eq_some_iff.mp targetPlaced
    obtain ⟨positive, rfl⟩ := lawful.position?_eq_some_iff.mp sourcePlaced
    exact ⟨positive, before, leads⟩
  · rintro ⟨positive, before, leads⟩
    exact ⟨_, _, lawful.position?_eq_some_iff.mpr ⟨by omega, rfl⟩,
      lawful.position?_eq_some_iff.mpr ⟨positive, rfl⟩, before, leads⟩

theorem isSemidominator_iff :
    IsSemidominator graph numbering target node ↔
      Candidate graph numbering target node ∧ ∀ source, Candidate graph numbering target source →
        numbering.rank node ≤ numbering.rank source := by
  constructor
  · rintro ⟨candidate, least⟩
    refine ⟨candidate, fun source other => ?_⟩
    obtain ⟨first, position, nodePlaced, sourcePlaced, before⟩ := least source other
    rwa [Numbering.rank_of_position? nodePlaced, Numbering.rank_of_position? sourcePlaced]
  · rintro ⟨candidate, least⟩
    refine ⟨candidate, fun source other => ?_⟩
    have positive := ((candidate_iff lawful).mp candidate).1
    have otherPositive := ((candidate_iff lawful).mp other).1
    exact ⟨_, _, lawful.position?_eq_some_iff.mpr ⟨positive, rfl⟩,
      lawful.position?_eq_some_iff.mpr ⟨otherPositive, rfl⟩, least source other⟩

theorem IsSemidominator.unique {first second : Node}
    (one : IsSemidominator graph numbering target first)
    (other : IsSemidominator graph numbering target second) : first = second := by
  obtain ⟨firstCandidate, firstLeast⟩ := (isSemidominator_iff lawful).mp one
  obtain ⟨secondCandidate, secondLeast⟩ := (isSemidominator_iff lawful).mp other
  have before := firstLeast second secondCandidate
  have after := secondLeast first firstCandidate
  exact lawful.eq_of_rank_eq ((candidate_iff lawful).mp firstCandidate).1 (by omega)

end

/-! ### The better of two candidates -/

theorem better_eq (node : Node) (position : Nat) (best : Option (Node × Nat)) :
    better node position best = (node, position) ∨
      best = some (better node position best) := by
  unfold better
  split
  · exact .inl rfl
  · split
    · exact .inl rfl
    · exact .inr rfl

theorem better_le (node : Node) (position : Nat) (best : Option (Node × Nat)) :
    (better node position best).2 ≤ position := by
  unfold better
  split
  · exact Nat.le_refl _
  · split
    · exact Nat.le_refl _
    · exact Nat.le_of_not_lt ‹_›

theorem better_le_of_eq_some {best : Option (Node × Nat)} {other : Node} {earlier : Nat}
    (found : best = some (other, earlier)) (node : Node) (position : Nat) :
    (better node position best).2 ≤ earlier := by
  rw [found, better]
  split
  · exact Nat.le_of_lt ‹_›
  · exact Nat.le_refl _

/-! ### The invariant of the search -/

/-- What holds throughout the search for the semidominator of `target`. -/
structure Sweep (graph : FlowGraph) (numbering : Numbering) (target : Node)
    (pending stack : List Node) (best : Option (Node × Nat)) (seen : StampSet) : Prop where
  lawful : seen.Lawful
  size_eq : seen.stamps.size = numbering.nodeCount
  target_seen : seen.contains target = true
  leads : ∀ node, seen.contains node = true → node ≠ target →
    0 < numbering.rank node ∧ LeadsTo graph numbering (numbering.rank target) node target
  stack_seen : ∀ node ∈ stack,
    seen.contains node = true ∧ numbering.rank target ≤ numbering.rank node
  pending_leads : ∀ node ∈ pending, LeadsTo graph numbering (numbering.rank target) node target
  closed : ∀ node, seen.contains node = true → numbering.rank target ≤ numbering.rank node →
    node ∈ stack ∨ ∀ source ∈ graph.predecessors node, 0 < numbering.rank source →
      seen.contains source = true ∨ source ∈ pending
  best_seen : ∀ node position, best = some (node, position) →
    seen.contains node = true ∧ numbering.rank node = position ∧
      position < numbering.rank target
  best_least : ∀ node, seen.contains node = true →
    numbering.rank node < numbering.rank target →
      ∃ other position, best = some (other, position) ∧ position ≤ numbering.rank node

namespace Sweep

variable {pending stack : List Node} {best : Option (Node × Nat)} {seen inserted : StampSet}

/-- A predecessor that was never discovered or was seen before needs no attention. -/
theorem skip (invariant : Sweep graph numbering target (node :: pending) stack best seen)
    (done : numbering.rank node = 0 ∨ seen.contains node = true) :
    Sweep graph numbering target pending stack best seen :=
  { invariant with
    pending_leads := fun other member =>
      invariant.pending_leads other (List.mem_cons_of_mem _ member)
    closed := by
      intro other known late
      rcases invariant.closed other known late with waiting | looked
      · exact .inl waiting
      · refine .inr fun source edge positive => ?_
        rcases looked source edge positive with present | listed
        · exact .inl present
        · rcases List.mem_cons.mp listed with rfl | listed
          · exact .inl (done.resolve_left (by omega))
          · exact .inr listed }

section

variable (invariant : Sweep graph numbering target (node :: pending) stack best seen)
  (success : seen.insert node = .ok inserted)
include success

private theorem contains_inserted {other : Node} :
    inserted.contains other = true ↔ other = node ∨ seen.contains other = true := by
  rw [StampSet.contains_of_insert success]
  simp

include invariant

private theorem closed_insert {later : List Node} (subset : stack ⊆ later)
    (listed : numbering.rank target ≤ numbering.rank node → node ∈ later) (other : Node)
    (known : inserted.contains other = true)
    (late : numbering.rank target ≤ numbering.rank other) :
    other ∈ later ∨ ∀ source ∈ graph.predecessors other, 0 < numbering.rank source →
      inserted.contains source = true ∨ source ∈ pending := by
  rcases (contains_inserted success).mp known with rfl | old
  · exact .inl (listed late)
  · rcases invariant.closed other old late with waiting | looked
    · exact .inl (subset waiting)
    · refine .inr fun source edge positive => ?_
      rw [contains_inserted success]
      rcases looked source edge positive with present | waiting
      · exact .inl (.inr present)
      · rcases List.mem_cons.mp waiting with rfl | waiting
        · exact .inl (.inl rfl)
        · exact .inr waiting

private theorem leads_insert (positive : 0 < numbering.rank node) (other : Node)
    (known : inserted.contains other = true) (apart : other ≠ target) :
    0 < numbering.rank other ∧ LeadsTo graph numbering (numbering.rank target) other target := by
  rcases (contains_inserted success).mp known with rfl | old
  · exact ⟨positive, invariant.pending_leads other List.mem_cons_self⟩
  · exact invariant.leads other old apart

theorem candidate (positive : 0 < numbering.rank node)
    (early : numbering.rank node < numbering.rank target) :
    Sweep graph numbering target pending stack
      (some (better node (numbering.rank node) best)) inserted where
  lawful := StampSet.lawful_of_insert invariant.lawful success
  size_eq := (StampSet.size_of_insert success).trans invariant.size_eq
  target_seen := (contains_inserted success).mpr (.inr invariant.target_seen)
  leads := leads_insert invariant success positive
  stack_seen other member :=
    ⟨(contains_inserted success).mpr (.inr (invariant.stack_seen other member).1),
      (invariant.stack_seen other member).2⟩
  pending_leads other member := invariant.pending_leads other (List.mem_cons_of_mem _ member)
  closed := closed_insert invariant success (List.Subset.refl _) (by omega)
  best_seen other position found := by
    rw [contains_inserted success]
    rcases better_eq node (numbering.rank node) best with new | old
    · rw [new] at found
      cases found
      exact ⟨.inl rfl, rfl, early⟩
    · rw [found] at old
      obtain ⟨known, same, before⟩ := invariant.best_seen other position old
      exact ⟨.inr known, same, before⟩
  best_least other known before := by
    refine ⟨_, _, rfl, ?_⟩
    rcases (contains_inserted success).mp known with rfl | old
    · exact better_le other _ best
    · obtain ⟨third, position, found, least⟩ := invariant.best_least other old before
      exact Nat.le_trans (better_le_of_eq_some found node _) least

/-- The search goes on through a predecessor discovered after the target. -/
theorem push (positive : 0 < numbering.rank node)
    (late : numbering.rank target ≤ numbering.rank node) :
    Sweep graph numbering target pending (node :: stack) best inserted where
  lawful := StampSet.lawful_of_insert invariant.lawful success
  size_eq := (StampSet.size_of_insert success).trans invariant.size_eq
  target_seen := (contains_inserted success).mpr (.inr invariant.target_seen)
  leads := leads_insert invariant success positive
  stack_seen := by
    refine List.forall_mem_cons.mpr ⟨⟨(contains_inserted success).mpr (.inl rfl), late⟩, ?_⟩
    intro other member
    exact ⟨(contains_inserted success).mpr (.inr (invariant.stack_seen other member).1),
      (invariant.stack_seen other member).2⟩
  pending_leads other member := invariant.pending_leads other (List.mem_cons_of_mem _ member)
  closed := closed_insert invariant success (List.subset_cons_self _ _)
    (fun _ => List.mem_cons_self)
  best_seen other position found := by
    obtain ⟨known, same, before⟩ := invariant.best_seen other position found
    exact ⟨(contains_inserted success).mpr (.inr known), same, before⟩
  best_least other known before := by
    rcases (contains_inserted success).mp known with rfl | old
    · omega
    · exact invariant.best_least other old before

end

/-- A node taken off the stack puts its predecessors up for inspection. -/
theorem pop (lawful : numbering.Lawful start) (positive : 0 < numbering.rank target)
    (invariant : Sweep graph numbering target [] (node :: stack) best seen) :
    Sweep graph numbering target (graph.predecessors node) stack best seen := by
  obtain ⟨known, late⟩ := invariant.stack_seen node List.mem_cons_self
  refine
    { invariant with
      stack_seen := fun other member =>
        invariant.stack_seen other (List.mem_cons_of_mem _ member)
      pending_leads := ?_
      closed := ?_ }
  · intro source edge
    by_cases same : node = target
    · rw [same] at edge
      exact .single edge
    · have apart : numbering.rank target ≠ numbering.rank node := fun equal =>
        same (lawful.eq_of_rank_eq positive equal).symm
      exact (invariant.leads node known same).2.prolong edge (by omega)
  · intro other otherKnown otherLate
    rcases invariant.closed other otherKnown otherLate with waiting | looked
    · rcases List.mem_cons.mp waiting with rfl | waiting
      · exact .inr fun source edge _ => .inr edge
      · exact .inl waiting
    · refine .inr fun source edge positive => .inl ?_
      exact (looked source edge positive).resolve_right List.not_mem_nil

theorem predecessorsOf_stack (lawful : numbering.Lawful start)
    (nodeCount : numbering.nodeCount = graph.nodeCount) (positive : 0 < numbering.rank target)
    (invariant : Sweep graph numbering target pending (node :: stack) best seen) :
    graph.predecessorsOf node = .ok (graph.predecessors node) := by
  have late := (invariant.stack_seen node List.mem_cons_self).2
  refine FlowGraph.predecessorsOf_of_contains ?_
  rw [FlowGraph.contains_iff, ← nodeCount]
  exact Numbering.lt_nodeCount_of_contains (lawful.contains_iff_rank_pos.mpr (by omega))

/-- When nothing is left to do, everything that leads to the target has been seen. -/
theorem contains_of_leadsTo (invariant : Sweep graph numbering target [] [] best seen)
    (late : numbering.rank target ≤ numbering.rank node) (known : seen.contains node = true)
    (positive : 0 < numbering.rank source)
    (leads : LeadsTo graph numbering (numbering.rank target) source node) :
    seen.contains source = true := by
  have looked (other predecessor : Node) (otherKnown : seen.contains other = true)
      (otherLate : numbering.rank target ≤ numbering.rank other)
      (edge : predecessor ∈ graph.predecessors other)
      (discovered : 0 < numbering.rank predecessor) : seen.contains predecessor = true := by
    rcases invariant.closed other otherKnown otherLate with waiting | done
    · cases waiting
    · exact (done predecessor edge discovered).resolve_right List.not_mem_nil
  induction leads with
  | single edge => exact looked _ _ known late edge positive
  | step edge placed later _ inductionHypothesis =>
      rw [← Numbering.rank_of_position? placed] at later
      exact inductionHypothesis (by omega) (looked _ _ known late edge (by omega))

end Sweep

/-- What the search for the semidominator of `target` has to find. -/
def Finds (graph : FlowGraph) (numbering : Numbering) (target : Node) : Option Node → Prop
  | some found => IsSemidominator graph numbering target found
  | none => ∀ source, ¬ Candidate graph numbering target source

theorem Sweep.finds (lawful : numbering.Lawful start)
    (positive : 0 < numbering.rank target) {best : Option (Node × Nat)} {seen : StampSet}
    (invariant : Sweep graph numbering target [] [] best seen) :
    Finds graph numbering target (best.map Prod.fst) := by
  have seen_of_candidate (source : Node) (other : Candidate graph numbering target source) :
      seen.contains source = true ∧ numbering.rank source < numbering.rank target := by
    obtain ⟨sourcePositive, before, leads⟩ := (candidate_iff lawful).mp other
    exact ⟨invariant.contains_of_leadsTo (Nat.le_refl _) invariant.target_seen sourcePositive
      leads, before⟩
  cases found : best with
  | none =>
      intro source other
      obtain ⟨known, before⟩ := seen_of_candidate source other
      obtain ⟨_, _, exists_best, -⟩ := invariant.best_least source known before
      rw [found] at exists_best
      cases exists_best
  | some entry =>
      obtain ⟨node, position⟩ := entry
      obtain ⟨known, rfl, before⟩ := invariant.best_seen node position found
      have apart : node ≠ target := by
        rintro rfl
        omega
      obtain ⟨nodePositive, leads⟩ := invariant.leads node known apart
      refine (isSemidominator_iff lawful).mpr
        ⟨(candidate_iff lawful).mpr ⟨nodePositive, before, leads⟩, ?_⟩
      intro source other
      obtain ⟨sourceKnown, sourceBefore⟩ := seen_of_candidate source other
      obtain ⟨_, _, same, least⟩ := invariant.best_least source sourceKnown sourceBefore
      rw [found] at same
      cases same
      exact least

/-- A search that is under way ends, and with the semidominator if there is one. -/
theorem sweep_spec (lawful : numbering.Lawful start)
    (nodeCount : numbering.nodeCount = graph.nodeCount) (positive : 0 < numbering.rank target)
    {pending stack : List Node} {best : Option (Node × Nat)} {seen : StampSet}
    (invariant : Sweep graph numbering target pending stack best seen) :
    ∃ found final, sweep graph numbering (numbering.rank target) pending stack best seen =
        .ok (found, final) ∧
      final.Lawful ∧ final.stamps.size = numbering.nodeCount ∧
        Finds graph numbering target found := by
  fun_induction sweep graph numbering (numbering.rank target) pending stack best seen with
  | case1 stack best seen node pending unplaced inductionHypothesis =>
      refine inductionHypothesis (invariant.skip (.inl ?_))
      rw [Numbering.rank, unplaced, Option.getD_none]
  | case2 stack best seen node pending position placed known inductionHypothesis =>
      exact inductionHypothesis (invariant.skip (.inr known))
  | case3 stack best seen node pending position placed fresh fault failure =>
      have inside := Numbering.lt_nodeCount_of_position? placed
      rw [← invariant.size_eq] at inside
      obtain ⟨inserted, success⟩ := StampSet.exists_insert inside
      rw [success] at failure
      cases failure
  | case4 stack best seen node pending position placed fresh inserted success early
      inductionHypothesis =>
      obtain ⟨nodePositive, rfl⟩ := lawful.position?_eq_some_iff.mp placed
      exact inductionHypothesis (invariant.candidate success nodePositive early)
  | case5 stack best seen node pending position placed fresh inserted success late
      inductionHypothesis =>
      obtain ⟨nodePositive, rfl⟩ := lawful.position?_eq_some_iff.mp placed
      exact inductionHypothesis (invariant.push success nodePositive (Nat.le_of_not_lt late))
  | case6 best seen =>
      exact ⟨_, seen, rfl, invariant.lawful, invariant.size_eq,
        invariant.finds lawful positive⟩
  | case7 best seen node stack fault failure =>
      rw [invariant.predecessorsOf_stack lawful nodeCount positive] at failure
      cases failure
  | case8 best seen node stack predecessors looked inductionHypothesis =>
      rw [invariant.predecessorsOf_stack lawful nodeCount positive] at looked
      cases looked
      exact inductionHypothesis (invariant.pop lawful positive)

/-- Every search ends, with the semidominator of its target if the target has one. -/
theorem search_spec (lawful : numbering.Lawful start)
    (nodeCount : numbering.nodeCount = graph.nodeCount) (positive : 0 < numbering.rank target)
    {seen : StampSet} (seenLawful : seen.Lawful)
    (size : seen.stamps.size = numbering.nodeCount) :
    ∃ found final, search graph numbering target (numbering.rank target) seen =
        .ok (found, final) ∧
      final.Lawful ∧ final.stamps.size = numbering.nodeCount ∧
        Finds graph numbering target found := by
  have newSize : seen.nextRound.stamps.size = numbering.nodeCount :=
    (StampSet.size_nextRound seen).trans size
  have inside : target.index < seen.nextRound.stamps.size := by
    rw [newSize]
    exact Numbering.lt_nodeCount_of_rank_pos positive
  obtain ⟨inserted, success⟩ := StampSet.exists_insert inside
  have only (node : Node) : inserted.contains node = true ↔ node = target := by
    rw [StampSet.contains_of_insert success, StampSet.contains_nextRound seenLawful]
    simp
  have invariant : Sweep graph numbering target [] [target] none inserted :=
    { lawful := StampSet.lawful_of_insert (StampSet.lawful_nextRound seenLawful) success
      size_eq := (StampSet.size_of_insert success).trans newSize
      target_seen := (only target).mpr rfl
      leads := fun node known apart => absurd ((only node).mp known) apart
      stack_seen := by
        intro node member
        rw [List.mem_singleton.mp member]
        exact ⟨(only target).mpr rfl, Nat.le_refl _⟩
      pending_leads := fun node member => absurd member List.not_mem_nil
      closed := by
        intro node known late
        rw [(only node).mp known]
        exact .inl (List.mem_singleton_self target)
      best_seen := fun node position found => nomatch found
      best_least := by
        intro node known before
        rw [(only node).mp known] at before
        omega }
  rw [search, success]
  exact sweep_spec lawful nodeCount positive invariant

end Semidominator

end FlowDominance
