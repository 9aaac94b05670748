import FlowDominance.Analysis
import FlowDominance.Proofs.DepthFirstSearch
import FlowDominance.Proofs.SemidominatorTable

/-!
# Analyses that agree on candidates

After the numbering only the search for semidominators looks at the graph, and what it
finds is a matter of candidates.  So if two graphs lead to the same numbering, and every
node has the same candidates in both, their analyses take the same course: the searches may
meet the predecessors in another order, but they settle the same nodes with the same
semidominators, and fail at the same node.
-/

namespace FlowDominance

namespace Semidominator

variable {graph other : FlowGraph} {numbering : Numbering} {start source target node : Node}
  {bound : Nat}

def SameCandidates (graph other : FlowGraph) (numbering : Numbering) : Prop :=
  ∀ target source, Candidate graph numbering target source ↔ Candidate other numbering target source

theorem SameCandidates.isSemidominator_iff (same : SameCandidates graph other numbering) :
    IsSemidominator graph numbering target node ↔ IsSemidominator other numbering target node := by
  simp only [IsSemidominator, same target]

/-- A walk back between discovered nodes goes through discovered nodes, so it is one in every
graph that lists their discovered predecessors. -/
theorem LeadsTo.of_discovered
    (listed : ∀ source target, 0 < numbering.rank source → 0 < numbering.rank target →
      source ∈ graph.predecessors target → source ∈ other.predecessors target)
    (sourceKnown : 0 < numbering.rank source) (targetKnown : 0 < numbering.rank target)
    (leads : LeadsTo graph numbering bound source target) :
    LeadsTo other numbering bound source target := by
  induction leads with
  | single edge => exact .single (listed _ _ sourceKnown targetKnown edge)
  | @step middle target position edge placed later _ inductionHypothesis =>
      have middleKnown := Nat.zero_lt_of_lt (Numbering.lt_rank_of_position? placed later)
      exact .step (listed _ _ middleKnown targetKnown edge) placed later
        (inductionHypothesis middleKnown)

theorem Candidate.of_discovered (lawful : numbering.Lawful start)
    (listed : ∀ source target, 0 < numbering.rank source → 0 < numbering.rank target →
      source ∈ graph.predecessors target → source ∈ other.predecessors target)
    (candidate : Candidate graph numbering target source) :
    Candidate other numbering target source := by
  obtain ⟨positive, before, leads⟩ := (candidate_iff lawful).mp candidate
  exact (candidate_iff lawful).mpr
    ⟨positive, before, leads.of_discovered listed positive (by omega)⟩

/-- Predecessors that were not discovered, repetitions and the order of the lists have no
influence on candidates. -/
theorem sameCandidates_of_discovered (lawful : numbering.Lawful start)
    (listed : ∀ source target, 0 < numbering.rank source → 0 < numbering.rank target →
      (source ∈ graph.predecessors target ↔ source ∈ other.predecessors target)) :
    SameCandidates graph other numbering := by
  intro target source
  constructor
  · intro candidate
    exact candidate.of_discovered lawful fun source target sourceKnown targetKnown =>
      (listed source target sourceKnown targetKnown).mp
  · intro candidate
    exact candidate.of_discovered lawful fun source target sourceKnown targetKnown =>
      (listed source target sourceKnown targetKnown).mpr

/-! ### The search for all semidominators -/

variable {done : List Node} {first second : Progress} (lawful : numbering.Lawful start)
  (same : SameCandidates graph other numbering)
include lawful same

theorem Progress.Holds.found_eq (firstHolds : first.Holds graph numbering done)
    (secondHolds : second.Holds other numbering done) : first.found = second.found := by
  apply NodeMap.ext_find?
  intro node
  by_cases settled : node ∈ done
  · obtain ⟨found, read, isSemidominator⟩ := firstHolds.isSemidominator node settled
    obtain ⟨otherFound, otherRead, otherIs⟩ := secondHolds.isSemidominator node settled
    have equal := isSemidominator.unique lawful (same.isSemidominator_iff.mpr otherIs)
    rw [read, otherRead, equal]
  · by_cases inside : node.index < numbering.nodeCount
    · rw [firstHolds.find?_self node inside settled, secondHolds.find?_self node inside settled]
    · have outside := Nat.le_of_not_lt inside
      rw [NodeMap.find?_eq_none_iff.mpr (firstHolds.size_found ▸ outside),
        NodeMap.find?_eq_none_iff.mpr (secondHolds.size_found ▸ outside)]

theorem settle_alike (nodeCount : numbering.nodeCount = graph.nodeCount)
    (otherCount : numbering.nodeCount = other.nodeCount)
    (firstHolds : first.Holds graph numbering done)
    (secondHolds : second.Holds other numbering done) (positive : 0 < numbering.rank node) :
    (∃ fault, settle graph numbering first (node, numbering.rank node) = .error fault ∧
      settle other numbering second (node, numbering.rank node) = .error fault) ∨
    ∃ firstNext secondNext record,
      settle graph numbering first (node, numbering.rank node) = .ok (firstNext, record) ∧
      settle other numbering second (node, numbering.rank node) = .ok (secondNext, record) ∧
        firstNext.Holds graph numbering (done ++ [node]) ∧
          secondNext.Holds other numbering (done ++ [node]) := by
  rcases settle_spec lawful nodeCount firstHolds positive with
    ⟨firstNext, found, taken, isSemidominator, -, firstFurther⟩ | ⟨failure, none⟩
  · rcases settle_spec lawful otherCount secondHolds positive with
      ⟨secondNext, otherFound, otherTaken, otherIs, -, secondFurther⟩ | ⟨-, otherNone⟩
    · have equal := isSemidominator.unique lawful (same.isSemidominator_iff.mpr otherIs)
      rw [← equal] at otherTaken
      exact .inr ⟨firstNext, secondNext, _, taken, otherTaken, firstFurther, secondFurther⟩
    · exact absurd ((same node found).mp isSemidominator.1) (otherNone found)
  · rcases settle_spec lawful otherCount secondHolds positive with
      ⟨-, otherFound, -, otherIs, -, -⟩ | ⟨otherFailure, -⟩
    · exact absurd ((same node otherFound).mpr otherIs.1) (none otherFound)
    · exact .inl ⟨_, failure, otherFailure⟩

end Semidominator

open Semidominator

variable {graph other : FlowGraph} {numbering : Numbering} {start : Node}

/-- Two graphs with the same candidates have the same semidominators, or fail alike. -/
theorem semidominators_eq (lawful : numbering.Lawful start)
    (nodeCount : numbering.nodeCount = graph.nodeCount)
    (otherCount : numbering.nodeCount = other.nodeCount)
    (same : SameCandidates graph other numbering) :
    semidominators graph numbering = semidominators other numbering := by
  rw [semidominators, semidominators]
  refine (Traced.foldNoting_alike (settle graph numbering) (settle other numbering)
    (fun done first second => first.Holds graph numbering (done.map Prod.fst) ∧
      second.Holds other numbering (done.map Prod.fst))
    numbering.placedBelowRoot.reverse ?_ _ _ ?_).bind_eq ?_
  · intro done entry rest first second split holds
    have member : entry ∈ numbering.placedBelowRoot.reverse := by simp [split]
    obtain ⟨node, position⟩ := entry
    obtain ⟨positive, -, rfl⟩ :=
      lawful.mem_placedBelowRoot_iff.mp (List.mem_reverse.mp member)
    rw [List.map_append]
    exact settle_alike lawful same nodeCount otherCount holds.1 holds.2 positive
  · exact ⟨Progress.holds_start graph numbering, Progress.holds_start other numbering⟩
  · rintro first second ⟨firstHolds, secondHolds⟩
    rw [firstHolds.found_eq lawful same secondHolds]

/-- What an analysis needs to know of a graph is its size and entry, the numbering, and the
candidates. -/
theorem FlowGraph.analyse_eq (options : Options) (nodeCount : other.nodeCount = graph.nodeCount)
    (entry : other.entry = graph.entry)
    (numbered : ∀ start, graph.contains start = true → graph.entry = some start →
      other.number start = graph.number start)
    (same : ∀ start numbering, graph.entry = some start → graph.DepthFirst start numbering →
      SameCandidates graph other numbering) :
    other.analyse options = graph.analyse options := by
  unfold analyse
  rw [usableEntry_congr nodeCount entry, nodeCount]
  apply Traced.bind_congr
  intro start success
  obtain ⟨designated, bound⟩ := usableEntry_eq_ok_iff.mp success
  have inside := contains_iff.mpr bound
  rw [numbered start inside designated]
  by_cases refused : options.refuses graph.nodeCount = true
  · simp only [refused, if_true, Traced.error_bind]
  · simp only [refused]
    apply Traced.bind_congr
    intro numbering found
    have depthFirst := depthFirst_of_number_eq_ok inside found
    have semi := semidominators_eq depthFirst.lawful depthFirst.nodeCount_eq
      (depthFirst.nodeCount_eq.trans nodeCount.symm) (same start numbering designated depthFirst)
    rw [semi]

end FlowDominance
