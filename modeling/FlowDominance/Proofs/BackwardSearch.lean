import FlowDominance.Proofs.NumberingLaws
import FlowDominance.Proofs.TableHandover

/-!
# Searching backwards

A search for a semidominator looks at nothing but lists of predecessors and positions.  It is
therefore right for lists of any contents, also if the numbering was made of another graph: it
goes through whole walks back from its target, finds the candidate that was discovered first,
and is not led astray by what earlier searches have seen.
-/

namespace FlowDominance

open FlowGraph

namespace Semidominator

variable {graph : FlowGraph} {numbering : Numbering} {source target : Node} {bound : Nat}

/-- The nodes `passed` lie on a walk back from `target` to `source`, each time to a predecessor,
and all of them were discovered after position `bound`. -/
def WalkBack (graph : FlowGraph) (numbering : Numbering) (bound : Nat) (target source : Node)
    (passed : List Node) : Prop :=
  (target :: (passed ++ [source])).IsChain (fun node before =>
    before ∈ graph.predecessors node) ∧
  ∀ node ∈ passed, ∃ position, numbering.position? node = some position ∧ bound < position

theorem leadsTo_iff_exists_walkBack :
    LeadsTo graph numbering bound source target ↔
      ∃ passed, WalkBack graph numbering bound target source passed := by
  constructor
  · intro leads
    induction leads with
    | single edge => exact ⟨[], by simpa [WalkBack] using edge⟩
    | @step middle target position edge placed later _ inductionHypothesis =>
        obtain ⟨passed, walk, late⟩ := inductionHypothesis
        refine ⟨middle :: passed, ?_, ?_⟩
        · simpa using ⟨edge, walk⟩
        · simpa using ⟨⟨position, placed, later⟩, late⟩
  · rintro ⟨passed, walk, late⟩
    induction passed generalizing target with
    | nil => exact .single (by simpa using walk)
    | cons middle passed inductionHypothesis =>
        obtain ⟨edge, rest⟩ := List.isChain_cons_cons.mp walk
        obtain ⟨⟨position, placed, later⟩, others⟩ := List.forall_mem_cons.mp late
        exact .step edge placed later (inductionHypothesis rest others)

/-- What the search for all semidominators yields, for the lists of predecessors of `graph` and
a numbering of any graph `host` with as many nodes.  Candidates are given by walks back.  All
nodes but the start have one, or else of those that have none the one discovered last is
reported.  Then every discovered node but the start has the candidate discovered first, and the
other nodes stand for themselves. -/
theorem semidominators_by_definition {host graph : FlowGraph} {start : Node}
    {numbering : Numbering} (sameCount : graph.nodeCount = host.nodeCount)
    (inside : host.contains start = true) (numbered : host.number start = .ok numbering) :
    (∀ target source, Candidate graph numbering target source ↔
      ∃ bound position, numbering.position? target = some bound ∧
        numbering.position? source = some position ∧ position < bound ∧
          ∃ passed, WalkBack graph numbering bound target source passed) ∧
    ((∃ semi, (semidominators graph numbering).outcome = .ok semi) ↔
      ∀ node, numbering.contains node = true → node ≠ start →
        ∃ source, Candidate graph numbering node source) ∧
    (∀ semi, (semidominators graph numbering).outcome = .ok semi →
      semi.size = graph.nodeCount ∧
      (∀ node, numbering.contains node = true → node ≠ start →
        ∃ found, semi.find? node = some found ∧ IsSemidominator graph numbering node found) ∧
      ∀ node, graph.contains node = true → numbering.contains node = false ∨ node = start →
        semi.find? node = some node) ∧
    ∀ fault, (semidominators graph numbering).outcome = .error fault →
      ∃ node, fault = .noCandidate node ∧ LatestStarved graph numbering start node := by
  have depthFirst := depthFirst_of_number_eq_ok inside numbered
  have lawful := depthFirst.lawful
  have nodeCount : numbering.nodeCount = graph.nodeCount :=
    depthFirst.nodeCount_eq.trans sameCount.symm
  refine ⟨?_, ⟨?_, ?_⟩, ?_, ?_⟩
  · intro target source
    simp only [Candidate, leadsTo_iff_exists_walkBack]
  · rintro ⟨semi, searched⟩ node discovered apart
    have tabulates := tabulates_of_semidominators lawful nodeCount searched
    obtain ⟨source, -, isSemidominator⟩ :=
      tabulates.isSemidominator node (lawful.contains_iff_rank_pos.mp discovered) apart
    exact ⟨source, isSemidominator.1⟩
  · intro supplied
    cases ended : (semidominators graph numbering).outcome with
    | ok semi => exact ⟨semi, rfl⟩
    | error fault =>
        obtain ⟨node, -, ⟨discovered, apart, none⟩, -⟩ :=
          latestStarved_of_semidominators lawful nodeCount ended
        obtain ⟨source, candidate⟩ := supplied node discovered apart
        exact absurd candidate (none source)
  · intro semi searched
    have tabulates := tabulates_of_semidominators lawful nodeCount searched
    refine ⟨tabulates.size_eq.trans nodeCount, ?_, ?_⟩
    · intro node discovered apart
      exact tabulates.isSemidominator node (lawful.contains_iff_rank_pos.mp discovered) apart
    · intro node owned unsettled
      apply tabulates.find?_self node
      · rw [nodeCount]
        exact contains_iff.mp owned
      · exact unsettled.imp_left Numbering.rank_of_contains_eq_false
  · intro fault failed
    exact latestStarved_of_semidominators lawful nodeCount failed

/-- Lists of predecessors that do not fit the edges of `branching`, and that name foreign and
undiscovered nodes. -/
def unrelated : FlowGraph :=
  .ofAdjacency 5 none #[] #[[], [⟨2⟩], [⟨3⟩, ⟨0⟩], [⟨2⟩, ⟨9⟩, ⟨4⟩], [⟨0⟩]]

def deserted : FlowGraph :=
  .ofAdjacency 5 none #[] #[]

/-- With the lists of `unrelated` the entry is found to be the semidominator of `n3` through
`n2`, which was discovered later.  Without any predecessors `n2` is reported. -/
theorem semidominators_unrelated : IsSemidominator unrelated branchingNumbering ⟨3⟩ ⟨0⟩ ∧
    LatestStarved deserted branchingNumbering ⟨0⟩ ⟨2⟩ := by
  have sameCount : unrelated.nodeCount = branching.nodeCount := rfl
  have desertedCount : deserted.nodeCount = branching.nodeCount := rfl
  obtain ⟨-, -, tabulated, -⟩ :=
    semidominators_by_definition sameCount (by decide) number_branching
  obtain ⟨-, -, -, reported⟩ :=
    semidominators_by_definition desertedCount (by decide) number_branching
  have searched : (semidominators unrelated branchingNumbering).outcome =
      .ok ⟨#[⟨0⟩, ⟨0⟩, ⟨0⟩, ⟨0⟩, ⟨4⟩]⟩ := by cbv
  have failed : (semidominators deserted branchingNumbering).outcome =
      .error (.noCandidate ⟨2⟩) := by cbv
  constructor
  · obtain ⟨found, read, isSemidominator⟩ := (tabulated _ searched).2.1 ⟨3⟩ (by decide) (by decide)
    cases read
    exact isSemidominator
  · obtain ⟨node, named, starved⟩ := reported _ failed
    cases named
    exact starved

end Semidominator

end FlowDominance
