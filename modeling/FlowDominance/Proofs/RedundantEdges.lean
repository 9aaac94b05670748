import FlowDominance.Proofs.CandidateAgreement
import FlowDominance.Proofs.DominanceQueries
import FlowDominance.Proofs.FaultClassification
import FlowDominance.Proofs.PaddedSuccessors

/-!
# Edges that change nothing

An edge from a node to one of its dominators leads back to where every path has been
before.  Adding it changes neither the order of discovery, since its target is known by the
time it is looked at, nor a semidominator: a walk back over the new edge to a node before
the dominator comes through the dominator anyway.  Repeated edges, and edges out of nodes
that cannot be reached, change nothing either.
-/

namespace FlowDominance

open FlowGraph Semidominator

namespace FlowGraph

/-- `extended` is `graph` with an edge that comes last at both of its ends. -/
structure AddsEdge (extended graph : FlowGraph) (source target : Node) : Prop where
  nodeCount_eq : extended.nodeCount = graph.nodeCount
  entry_eq : extended.entry = graph.entry
  successors_eq : ∀ node, extended.successors node =
    if source = node then graph.successors node ++ [target] else graph.successors node
  predecessors_eq : ∀ node, extended.predecessors node =
    if target = node then graph.predecessors node ++ [source] else graph.predecessors node

end FlowGraph

variable {graph extended : FlowGraph} {numbering : Numbering} {start source target node : Node}
  {bound : Nat}

/-! ### Walks back over the new edge -/

namespace Semidominator

variable (depthFirst : graph.DepthFirst start numbering) (consistent : graph.Consistent start)
include depthFirst consistent

/-- Going back from a node to one discovered before its dominator, one comes through the
dominator. -/
theorem LeadsTo.of_dominator {upper lower : Node}
    (leads : LeadsTo graph numbering bound source lower)
    (always : graph.OnEveryPath start upper lower) (sourceKnown : 0 < numbering.rank source)
    (lowerKnown : 0 < numbering.rank lower)
    (before : numbering.rank source < numbering.rank upper) :
    LeadsTo graph numbering bound source upper := by
  induction leads with
  | @single lower listed =>
      by_cases met : upper = lower
      · rw [met]
        exact .single listed
      · have edge := edge_of_mem_predecessors depthFirst consistent listed sourceKnown lowerKnown
        have above :=
          ancestor_of_onEveryPath depthFirst (always.of_edge edge met) sourceKnown
        have := depthFirst.lawful.rank_le_of_ancestor above
        omega
  | @step middle lower position listed placed later rest inductionHypothesis =>
      by_cases met : upper = lower
      · rw [met]
        exact .step listed placed later rest
      · have middleKnown := Nat.zero_lt_of_lt (Numbering.lt_rank_of_position? placed later)
        have edge := edge_of_mem_predecessors depthFirst consistent listed middleKnown lowerKnown
        exact inductionHypothesis (always.of_edge edge met) middleKnown

end Semidominator

namespace FlowGraph.AddsEdge

variable (adds : extended.AddsEdge graph source target)
include adds

theorem mem_predecessors_iff {other : Node} :
    other ∈ extended.predecessors node ↔
      other ∈ graph.predecessors node ∨ (other = source ∧ node = target) := by
  rw [adds.predecessors_eq]
  by_cases same : target = node
  · simp [same]
  · simp [same, Ne.symm same]

theorem pads (inside : graph.contains target = true)
    (superfluous : graph.Superfluous start source target) : extended.Pads graph start where
  nodeCount_eq := adds.nodeCount_eq
  exists_extra node _ _ := by
    rw [adds.successors_eq]
    split
    · next same =>
        refine ⟨[target], rfl, ?_⟩
        intro other member
        rw [List.mem_singleton.mp member, ← same]
        exact ⟨inside, superfluous⟩
    · exact ⟨[], (List.append_nil _).symm, fun other member => absurd member List.not_mem_nil⟩

section

variable (depthFirst : graph.DepthFirst start numbering) (consistent : graph.Consistent start)
include depthFirst consistent

theorem leadsTo_of_extended {first last : Node}
    (always : graph.OnEveryPath start target source)
    (leads : LeadsTo extended numbering bound first last) (firstKnown : 0 < numbering.rank first)
    (before : numbering.rank first < bound) (after : bound ≤ numbering.rank last) :
    LeadsTo graph numbering bound first last := by
  induction leads with
  | single listed =>
      rcases adds.mem_predecessors_iff.mp listed with old | ⟨rfl, rfl⟩
      · exact .single old
      · have above := ancestor_of_onEveryPath depthFirst always firstKnown
        have := depthFirst.lawful.rank_le_of_ancestor above
        omega
  | @step middle last position listed placed later _ inductionHypothesis =>
      have middleLater := Numbering.lt_rank_of_position? placed later
      have rest := inductionHypothesis (Nat.le_of_lt middleLater)
      rcases adds.mem_predecessors_iff.mp listed with old | ⟨rfl, rfl⟩
      · exact .step old placed later rest
      · exact rest.of_dominator depthFirst consistent always firstKnown (by omega) (by omega)

theorem sameCandidates (superfluous : graph.Superfluous start source target) :
    SameCandidates graph extended numbering := by
  have lawful := depthFirst.lawful
  rcases superfluous with present | always
  · apply sameCandidates_of_discovered lawful
    intro first last firstKnown lastKnown
    rw [adds.mem_predecessors_iff]
    constructor
    · exact .inl
    · rintro (old | ⟨rfl, rfl⟩)
      · exact old
      · exact (Semidominator.mem_predecessors_iff depthFirst consistent firstKnown
          lastKnown).mpr present
  · intro last first
    constructor
    · intro candidate
      apply candidate.of_discovered lawful
      intro _ _ _ _ old
      exact adds.mem_predecessors_iff.mpr (.inl old)
    · intro candidate
      obtain ⟨positive, before, leads⟩ := (candidate_iff lawful).mp candidate
      exact (candidate_iff lawful).mpr ⟨positive, before, adds.leadsTo_of_extended depthFirst
        consistent always leads positive before (Nat.le_refl _)⟩

end

/-- A superfluous edge leaves the whole run of an analysis as it was. -/
theorem analyse_eq (options : Options) (designated : graph.entry = some start)
    (consistent : graph.Consistent start) (inside : graph.contains target = true)
    (superfluous : graph.Superfluous start source target) :
    extended.analyse options = graph.analyse options := by
  apply FlowGraph.analyse_eq options adds.nodeCount_eq adds.entry_eq
  · intro other _ same
    rw [designated] at same
    cases same
    exact number_of_pads (adds.pads inside superfluous)
  · intro other numbering same depthFirst
    rw [designated] at same
    cases same
    exact adds.sameCandidates depthFirst consistent superfluous

end FlowGraph.AddsEdge

/-! ### Growing graphs -/

namespace BlockGraph

variable {α : Type} {graph : BlockGraph α} {edges : List (Node × Node)} {analysis : Analysis}

theorem Records.addsEdge (records : Records graph edges)
    (sourceInside : source.index < graph.nodeCount)
    (targetInside : target.index < graph.nodeCount) :
    (graph.withEdge source target).toFlowGraph.AddsEdge graph.toFlowGraph source target where
  nodeCount_eq := nodeCount_withEdge
  entry_eq := rfl
  successors_eq node := by
    have further := records.withEdge sourceInside targetInside
    rw [further.successors_toFlowGraph_eq, records.successors_toFlowGraph_eq, targetsFrom_concat]
  predecessors_eq node := by
    have further := records.withEdge sourceInside targetInside
    rw [further.predecessors_toFlowGraph_eq, records.predecessors_toFlowGraph_eq,
      sourcesTo_concat]

/-- Edges that can be added to a graph without a change of its analysis. -/
inductive Redundant (graph : BlockGraph α) (analysis : Analysis) (source target : Node) :
    Prop where
  /-- An edge to a node that dominates its source. -/
  | back {tree : DominatorTree} : analysis.tree = .ok tree →
      tree.dominates target source = true → Redundant graph analysis source target
  | loop : source = target → Redundant graph analysis source target
  | toEntry : graph.entry = some target → Redundant graph analysis source target
  | repeated : graph.toFlowGraph.Edge source target → Redundant graph analysis source target
  /-- An edge out of a node that cannot be reached. -/
  | dead : (∀ start, graph.entry = some start → ¬ graph.toFlowGraph.Reaches start source) →
      Redundant graph analysis source target

theorem Redundant.superfluous (redundant : Redundant graph analysis source target)
    (designated : graph.entry = some start) (consistent : graph.toFlowGraph.Consistent start)
    (derived : analysis.Derived graph.toFlowGraph start) :
    graph.toFlowGraph.Superfluous start source target := by
  cases redundant with
  | back built dominates => exact .inr ((derived.dominates_iff built consistent).mp dominates).2.2
  | loop same =>
      rw [same]
      exact .inr (onEveryPath_self _ start target)
  | toEntry entered =>
      rw [designated] at entered
      cases entered
      exact .inr (onEveryPath_source _ start source)
  | repeated edge => exact .inl edge.2
  | dead unreachable =>
      exact .inr fun nodes path => absurd ⟨nodes, path⟩ (unreachable start designated)

end BlockGraph

open BlockGraph

/-- An edge back to a dominator, to the node it leaves or to the entry, an edge that is
there already, and an edge out of an unreachable node can be added to a graph that has been
analysed, and leave its numbering, semidominators and immediate dominators as they are. -/
theorem analyse_addEdge_of_redundant {α : Type} {graph : BlockGraph α} {options : Options}
    {analysis : Analysis} (grown : ∃ history, graph = Command.replay .empty history)
    (success : (graph.toFlowGraph.analyse options).outcome = .ok analysis)
    (sourceInside : graph.contains source = true) (targetInside : graph.contains target = true)
    (redundant : Redundant graph analysis source target) :
    ∃ extended, graph.addEdge source target = .ok extended ∧
      (extended.toFlowGraph.analyse options).outcome = .ok analysis := by
  obtain ⟨history, rfl⟩ := grown
  have records := records_replay_empty history
  obtain ⟨start, ⟨designated, -⟩, -, derived⟩ := numbered_of_analyse_eq_ok success
  have consistent := records.consistent designated
  rw [BlockGraph.contains_iff] at sourceInside targetInside
  refine ⟨_, addEdge_eq_ok_iff.mpr ⟨⟨sourceInside, targetInside⟩, rfl⟩, ?_⟩
  have adds := records.addsEdge sourceInside targetInside
  have same := adds.analyse_eq options designated consistent
    (FlowGraph.contains_iff.mpr targetInside)
    (redundant.superfluous designated consistent derived)
  rw [same, success]

theorem analyse_crossing_with_back_edge :
    ∃ extended, crossing.addEdge ⟨1⟩ ⟨0⟩ = .ok extended ∧
      (extended.toFlowGraph.analyse .standard).outcome = .ok crossingAnalysis := by
  have built : crossingAnalysis.tree = .ok
      { entry := ⟨0⟩
        idom := crossingAnalysis.idom
        children := ⟨#[#[⟨1⟩, ⟨2⟩], #[], #[]]⟩
        order := #[⟨0⟩, ⟨1⟩, ⟨2⟩] } := by cbv
  exact analyse_addEdge_of_redundant ⟨_, rfl⟩ analyse_crossing (by decide) (by decide)
    (.back built (by decide))

end FlowDominance
