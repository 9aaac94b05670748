import FlowDominance.Proofs.CandidateSearch
import FlowDominance.Proofs.LoopInvariant

/-!
# The table of semidominators

Every discovered node but the first is searched for once, the latest discovery first.
Either all of them have candidates and the table holds their semidominators, or the run
ends at the latest of those that have none.
-/

namespace FlowDominance

namespace Semidominator

variable {graph : FlowGraph} {numbering : Numbering} {start : Node}

/-- `node` has been discovered from another node and has no candidate. -/
def Starved (graph : FlowGraph) (numbering : Numbering) (start node : Node) : Prop :=
  numbering.contains node = true ∧ node ≠ start ∧
    ∀ source, ¬ Candidate graph numbering node source

/-- `semi` holds the semidominator of every discovered node but the first; the other nodes
stand for themselves. -/
structure Tabulates (graph : FlowGraph) (numbering : Numbering) (start : Node)
    (semi : NodeMap Node) : Prop where
  size_eq : semi.size = numbering.nodeCount
  isSemidominator : ∀ node, 0 < numbering.rank node → node ≠ start →
    ∃ found, semi.find? node = some found ∧ IsSemidominator graph numbering node found
  find?_self : ∀ node, node.index < numbering.nodeCount →
    numbering.rank node = 0 ∨ node = start → semi.find? node = some node

/-- What holds after the nodes in `done` have been searched for. -/
structure Progress.Holds (graph : FlowGraph) (numbering : Numbering) (done : List Node)
    (progress : Progress) : Prop where
  lawful : progress.seen.Lawful
  size_seen : progress.seen.stamps.size = numbering.nodeCount
  size_found : progress.found.size = numbering.nodeCount
  isSemidominator : ∀ node ∈ done, ∃ found, progress.found.find? node = some found ∧
    IsSemidominator graph numbering node found
  find?_self : ∀ node, node.index < numbering.nodeCount → node ∉ done →
    progress.found.find? node = some node

theorem Progress.holds_start (graph : FlowGraph) (numbering : Numbering) :
    (Progress.start numbering.nodeCount).Holds graph numbering [] where
  lawful := StampSet.lawful_fresh _
  size_seen := by simp [Progress.start, StampSet.fresh]
  size_found := by simp [Progress.start]
  isSemidominator node member := absurd member List.not_mem_nil
  find?_self node inside _ := by
    rw [Progress.start, NodeMap.find?_ofFn, if_pos inside, id]

/-- Settling a node enters its semidominator into the table, unless it has none. -/
theorem settle_spec (lawful : numbering.Lawful start)
    (nodeCount : numbering.nodeCount = graph.nodeCount) {done : List Node}
    {progress : Progress} (holds : progress.Holds graph numbering done) {node : Node}
    (positive : 0 < numbering.rank node) :
    (∃ next found, settle graph numbering progress (node, numbering.rank node) =
        .ok (next, .semidominator node found) ∧
      IsSemidominator graph numbering node found ∧
        next.found.find? node = some found ∧ next.Holds graph numbering (done ++ [node])) ∨
    (settle graph numbering progress (node, numbering.rank node) = .error (.noCandidate node) ∧
      ∀ source, ¬ Candidate graph numbering node source) := by
  obtain ⟨seen, table⟩ := progress
  obtain ⟨result, final, searched, finalLawful, finalSize, finds⟩ :=
    search_spec lawful nodeCount positive holds.lawful holds.size_seen
  cases result with
  | none =>
      refine .inr ⟨?_, finds⟩
      simp only [settle, searched]
  | some found =>
      left
      have inside : node.index < table.size := by
        rw [holds.size_found]
        exact Numbering.lt_nodeCount_of_rank_pos positive
      obtain ⟨written, success⟩ := NodeMap.exists_write_of_lt found inside
      refine ⟨⟨final, written⟩, found, ?_, finds, ?_, ?_⟩
      · simp only [settle, searched, success]
      · rw [NodeMap.find?_of_write success, if_pos rfl]
      · refine
          { lawful := finalLawful
            size_seen := finalSize
            size_found := (NodeMap.size_of_write success).trans holds.size_found
            isSemidominator := ?_
            find?_self := ?_ }
        · intro other member
          rw [NodeMap.find?_of_write success]
          split
          · next same => exact ⟨found, rfl, same ▸ finds⟩
          · next apart =>
              rcases List.mem_append.mp member with old | new
              · exact holds.isSemidominator other old
              · exact absurd (List.mem_singleton.mp new) apart
        · intro other otherInside absent
          rw [List.mem_append, not_or, List.mem_singleton] at absent
          rw [NodeMap.find?_of_write success, if_neg absent.2]
          exact holds.find?_self other otherInside absent.1

theorem Progress.Holds.next (lawful : numbering.Lawful start)
    (nodeCount : numbering.nodeCount = graph.nodeCount) {done : List Node}
    {progress next : Progress} {record : Record} (holds : progress.Holds graph numbering done)
    {node : Node} (positive : 0 < numbering.rank node)
    (taken : settle graph numbering progress (node, numbering.rank node) = .ok (next, record)) :
    next.Holds graph numbering (done ++ [node]) := by
  rcases settle_spec lawful nodeCount holds positive with
    ⟨settled, found, success, -, -, further⟩ | ⟨failure, -⟩
  · rw [success] at taken
    cases taken
    exact further
  · rw [failure] at taken
    cases taken

theorem outcome_semidominators :
    (semidominators graph numbering).outcome =
      (Traced.foldNoting (settle graph numbering) numbering.placedBelowRoot.reverse
        (.start numbering.nodeCount) #[]).outcome.bind fun progress => .ok progress.found := by
  rw [semidominators, Traced.outcome_bind]
  rfl

theorem placedBelowRoot_reverse (lawful : numbering.Lawful start) :
    numbering.placedBelowRoot.reverse =
      numbering.belowRoot.reverse.map fun node => (node, numbering.rank node) := by
  rw [lawful.placedBelowRoot_eq_map, List.map_reverse]

/-- The nodes settled before `node` are those below the root that follow it. -/
theorem belowRoot_of_split (lawful : numbering.Lawful start) {node : Node} {position : Nat}
    {before after : List (Node × Nat)}
    (split : numbering.placedBelowRoot.reverse = before ++ (node, position) :: after) :
    numbering.belowRoot =
      (after.map Prod.fst).reverse ++ node :: (before.map Prod.fst).reverse := by
  have mapped := congrArg (List.map Prod.fst) split
  rw [placedBelowRoot_reverse lawful, List.map_map, List.map_append, List.map_cons] at mapped
  rw [← List.reverse_inj]
  simpa [Function.comp_def] using mapped

theorem mem_settled_of_rank_lt (lawful : numbering.Lawful start) {node other : Node}
    {position : Nat} {before after : List (Node × Nat)}
    (split : numbering.placedBelowRoot.reverse = before ++ (node, position) :: after)
    (positive : 0 < numbering.rank other) (apart : other ≠ start)
    (later : numbering.rank node < numbering.rank other) : other ∈ before.map Prod.fst := by
  have nodes := belowRoot_of_split lawful split
  have member := lawful.mem_belowRoot_iff.mpr ⟨positive, apart⟩
  have notBefore : other ∉ (after.map Prod.fst).reverse := by
    rw [lawful.mem_before_iff nodes]
    omega
  rw [nodes, List.mem_append, List.mem_cons] at member
  rcases member.resolve_left notBefore with rfl | settled
  · omega
  · exact List.mem_reverse.mp settled

end Semidominator

open Semidominator

variable {graph : FlowGraph} {numbering : Numbering} {start : Node}

/-- The table of semidominators is found, unless a node has no candidate; then the latest
such node is reported. -/
theorem semidominators_spec (lawful : numbering.Lawful start)
    (nodeCount : numbering.nodeCount = graph.nodeCount) :
    (∃ semi, (semidominators graph numbering).outcome = .ok semi ∧
      Tabulates graph numbering start semi) ∨
    ∃ node, (semidominators graph numbering).outcome = .error (.noCandidate node) ∧
      Starved graph numbering start node ∧
        ∀ other, Starved graph numbering start other →
          numbering.rank other ≤ numbering.rank node := by
  have placed {node : Node} {position : Nat} :
      (node, position) ∈ numbering.placedBelowRoot.reverse ↔
        0 < numbering.rank node ∧ node ≠ start ∧ position = numbering.rank node := by
    rw [List.mem_reverse, lawful.mem_placedBelowRoot_iff]
  have kept (done : List (Node × Nat)) (entry : Node × Nat) (rest : List (Node × Nat))
      (progress : Progress) (records : Array Record) (next : Progress) (record : Record)
      (split : numbering.placedBelowRoot.reverse = done ++ entry :: rest)
      (holds : progress.Holds graph numbering (done.map Prod.fst))
      (taken : settle graph numbering progress entry = .ok (next, record)) :
      next.Holds graph numbering ((done ++ [entry]).map Prod.fst) := by
    have member : entry ∈ numbering.placedBelowRoot.reverse := by simp [split]
    obtain ⟨node, position⟩ := entry
    obtain ⟨positive, -, rfl⟩ := placed.mp member
    have further := holds.next lawful nodeCount positive taken
    simpa using further
  rw [outcome_semidominators]
  rcases Traced.foldNoting_spec (settle graph numbering)
    (fun done progress _ => progress.Holds graph numbering (done.map Prod.fst))
    numbering.placedBelowRoot.reverse kept _ (Progress.holds_start graph numbering) with
    ⟨final, noted, folded, holds⟩ | ⟨before, entry, after, progress, noted, fault, split, holds,
      failure, folded⟩
  · rw [folded]
    refine .inl ⟨final.found, rfl, ?_⟩
    refine
      { size_eq := holds.size_found
        isSemidominator := ?_
        find?_self := ?_ }
    · intro node positive apart
      exact holds.isSemidominator node
        (List.mem_map.mpr ⟨_, placed.mpr ⟨positive, apart, rfl⟩, rfl⟩)
    · intro node inside unsettled
      refine holds.find?_self node inside ?_
      intro member
      obtain ⟨⟨other, position⟩, entryMember, rfl⟩ := List.mem_map.mp member
      obtain ⟨positive, apart, -⟩ := placed.mp entryMember
      rcases unsettled with undiscovered | root
      · exact absurd undiscovered (Nat.ne_of_gt positive)
      · exact apart root
  · have member : entry ∈ numbering.placedBelowRoot.reverse := by simp [split]
    obtain ⟨node, position⟩ := entry
    obtain ⟨positive, apart, rfl⟩ := placed.mp member
    rcases settle_spec lawful nodeCount holds positive with
      ⟨settled, found, success, -⟩ | ⟨notFound, none⟩
    · rw [success] at failure
      cases failure
    · rw [notFound] at failure
      cases failure
      rw [folded]
      refine .inr ⟨node, rfl, ⟨lawful.contains_iff_rank_pos.mpr positive, apart, none⟩, ?_⟩
      rintro other ⟨discovered, otherApart, starved⟩
      by_contra later
      have settled := mem_settled_of_rank_lt lawful split
        (lawful.contains_iff_rank_pos.mp discovered) otherApart (Nat.lt_of_not_le later)
      obtain ⟨found, -, candidate, -⟩ := holds.isSemidominator other settled
      exact starved found candidate

theorem tabulates_of_semidominators (lawful : numbering.Lawful start)
    (nodeCount : numbering.nodeCount = graph.nodeCount) {semi : NodeMap Node}
    (searched : (semidominators graph numbering).outcome = .ok semi) :
    Tabulates graph numbering start semi := by
  rcases semidominators_spec lawful nodeCount with ⟨found, ended, tabulates⟩ | ⟨node, ended, -⟩
  · rw [searched] at ended
    cases ended
    exact tabulates
  · rw [searched] at ended
    cases ended

end FlowDominance
