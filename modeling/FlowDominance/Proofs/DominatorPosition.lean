import FlowDominance.Proofs.BoundedAnswers

/-!
# Where dominators stand in the depth-first tree

Immediate dominators are handed down along chains of relative dominators, yet each of them
stands in a simple place.  The semidominator of a node is above it in the depth-first tree, and
the immediate dominator is the semidominator or a node above that.  It is higher up exactly if
some node between the semidominator and the node has a semidominator that is higher up: that
node can then be entered from above without passing the semidominator.

This holds of every analysis that succeeds, also of a graph that contradicts itself.  That each
dominator comes before its node, which is all that a check of an analysis looks for, says less.
-/

namespace FlowDominance

namespace Analysis.Derived

variable {graph : FlowGraph} {start node middle upper dominator : Node} {analysis : Analysis}
  (derived : Derived graph start analysis)
include derived

theorem below_of_between (between : analysis.numbering.Between upper middle node) :
    0 < analysis.numbering.rank middle ∧ middle ≠ start := by
  have lawful := derived.depthFirst.lawful
  exact ⟨lawful.rank_pos_of_properAncestor between.2, lawful.ne_start_of_properAncestor between.1⟩

/-- The semidominator of a relative dominator is above the semidominator of the node. -/
theorem properAncestor_of_isRelative
    (isRelative : RelativeDominator.IsRelative analysis.numbering analysis.semidominatorOf node
      (some middle)) :
    analysis.numbering.ProperAncestor (analysis.semidominatorOf middle)
      (analysis.semidominatorOf node) := by
  have lawful := derived.depthFirst.lawful
  obtain ⟨between, earlier, -⟩ := isRelative
  obtain ⟨positive, apart⟩ := derived.below_of_between between
  have higher := (derived.properAncestor middle positive apart).ancestor
  apply lawful.properAncestor_of_rank_lt _ earlier
  exact lawful.ancestor_of_rank_le higher between.1.ancestor positive (Nat.le_of_lt earlier)

/-- The immediate dominator differs from the semidominator exactly if a node between the
semidominator and the node has a semidominator higher up. -/
theorem idom?_ne_semidominatorOf_iff (found : analysis.idom? node = some dominator) :
    dominator ≠ analysis.semidominatorOf node ↔
      ∃ middle, analysis.numbering.Between (analysis.semidominatorOf node) middle node ∧
        analysis.numbering.ProperAncestor (analysis.semidominatorOf middle)
          (analysis.semidominatorOf node) := by
  have lawful := derived.depthFirst.lawful
  obtain ⟨positive, apart⟩ := derived.below_of_idom? found
  rcases derived.idom?_cases positive apart with
    ⟨isRelative, same⟩ | ⟨relative, -, -, isRelative, same⟩
  · rw [same] at found
    cases found
    refine ⟨fun different => absurd rfl different, ?_⟩
    rintro ⟨middle, between, higher⟩
    have notEarlier := isRelative middle between
    have earlier := lawful.rank_lt_of_properAncestor higher
    omega
  · have higher := derived.properAncestor_of_isRelative isRelative
    refine ⟨fun _ => ⟨relative, isRelative.1, higher⟩, fun _ => ?_⟩
    rw [same] at found
    have above := (derived.ancestor_of_idom? found).trans_proper higher
    exact (lawful.properAncestor_iff.mp above).2

end Analysis.Derived

variable {graph : FlowGraph} {options : Options} {analysis : Analysis}

/-- In a successful analysis every visited node but the entry has a semidominator, which is a
proper ancestor of it, and an immediate dominator, which is an ancestor of the semidominator.
The two differ exactly if some node between the semidominator and the node has a semidominator
that is a proper ancestor of the former. -/
theorem idom_stands_above_semidominator
    (success : (graph.analyse options).outcome = .ok analysis) (node : Node)
    (visited : node ∈ analysis.visited) (apart : graph.entry ≠ some node) :
    ∃ semidominator dominator, analysis.semidominator? node = .ok (some semidominator) ∧
      analysis.idom? node = some dominator ∧
      analysis.numbering.ProperAncestor semidominator node ∧
      analysis.numbering.Ancestor dominator semidominator ∧
      (dominator ≠ semidominator ↔
        ∃ middle other, analysis.numbering.Between semidominator middle node ∧
          analysis.semidominator? middle = .ok (some other) ∧
            analysis.numbering.ProperAncestor other semidominator) := by
  obtain ⟨start, -, derived, positive, notStart⟩ := below_entry_of_visited success visited apart
  have semidominatorOf {other : Node} (known : 0 < analysis.numbering.rank other)
      (below : other ≠ start) :
      analysis.semidominator? other = .ok (some (analysis.semidominatorOf other)) := by
    rw [derived.semidominator?_eq_ok, if_pos ⟨known, below⟩]
  obtain ⟨dominator, found⟩ := derived.exists_idom? positive notStart
  refine ⟨_, dominator, semidominatorOf positive notStart, found,
    derived.properAncestor node positive notStart, derived.ancestor_of_idom? found, ?_⟩
  rw [derived.idom?_ne_semidominatorOf_iff found]
  constructor
  · rintro ⟨middle, between, higher⟩
    obtain ⟨known, below⟩ := derived.below_of_between between
    exact ⟨middle, _, between, semidominatorOf known below, higher⟩
  · rintro ⟨middle, other, between, answered, higher⟩
    obtain ⟨known, below⟩ := derived.below_of_between between
    rw [semidominatorOf known below] at answered
    cases answered
    exact ⟨middle, between, higher⟩

/-- A chain of four nodes.  Its lists of predecessors tell of two more edges, one past `n1` and
one past `n2`, of which its lists of successors know nothing. -/
def overlapping : FlowGraph :=
  .ofAdjacency 4 (some ⟨0⟩) #[[⟨1⟩], [⟨2⟩], [⟨3⟩], []] #[[], [⟨0⟩], [⟨1⟩, ⟨0⟩], [⟨2⟩, ⟨1⟩]]

def overlappingAnalysis : Analysis where
  numbering :=
    { order := #[⟨0⟩, ⟨1⟩, ⟨2⟩, ⟨3⟩]
      positions := ⟨#[some 1, some 2, some 3, some 4]⟩
      parents := ⟨#[none, some ⟨0⟩, some ⟨1⟩, some ⟨2⟩]⟩ }
  semi := ⟨#[⟨0⟩, ⟨0⟩, ⟨0⟩, ⟨1⟩]⟩
  idom := ⟨#[none, some ⟨0⟩, some ⟨0⟩, some ⟨0⟩]⟩

theorem analyse_overlapping :
    (overlapping.analyse .standard).outcome = .ok overlappingAnalysis := by
  cbv

/-- In `overlapping` the semidominator of `n3` is `n1`.  The entry is the semidominator of the
node between them, and for that reason the immediate dominator of `n3` as well. -/
theorem overlapping_idom_above_semidominator :
    overlappingAnalysis.semidominator? ⟨3⟩ = .ok (some ⟨1⟩) ∧
      overlappingAnalysis.idom? ⟨3⟩ = some ⟨0⟩ ∧
        overlappingAnalysis.numbering.ProperAncestor ⟨1⟩ ⟨3⟩ ∧
          ∃ middle, overlappingAnalysis.numbering.Between ⟨1⟩ middle ⟨3⟩ ∧
            overlappingAnalysis.semidominator? middle = .ok (some ⟨0⟩) := by
  have answered : overlappingAnalysis.semidominator? ⟨3⟩ = .ok (some ⟨1⟩) := by cbv
  have held : overlappingAnalysis.idom? ⟨3⟩ = some ⟨0⟩ := by decide
  obtain ⟨semidominator, dominator, sameAnswer, sameDominator, proper, -, differ⟩ :=
    idom_stands_above_semidominator analyse_overlapping ⟨3⟩ (by decide) (by decide)
  rw [answered] at sameAnswer
  cases sameAnswer
  rw [held] at sameDominator
  cases sameDominator
  obtain ⟨middle, other, between, middleAnswered, higher⟩ := differ.mp (by decide)
  obtain ⟨parent, up, above⟩ := higher
  cases up
  cases above with
  | refl => exact ⟨answered, held, proper, middle, between, middleAnswered⟩
  | step up _ => cases up

end FlowDominance
