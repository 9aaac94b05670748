import FlowDominance.Proofs.DerivedAnalysis

/-!
# From one table to the next

Each stage of an analysis reads the tables of the stages before it.  The laws of one table
are what the next stage assumes of its input, and the laws of all tables together make up a
finished analysis.
-/

namespace FlowDominance

namespace Semidominator

def LatestStarved (graph : FlowGraph) (numbering : Numbering) (start node : Node) : Prop :=
  Starved graph numbering start node ∧
    ∀ other, Starved graph numbering start other → numbering.rank other ≤ numbering.rank node

/-- The semidominator of `node` is not above `node` in the depth-first tree. -/
def Strayed (graph : FlowGraph) (numbering : Numbering) (start semidominator node : Node) :
    Prop :=
  numbering.contains node = true ∧ node ≠ start ∧
    IsSemidominator graph numbering node semidominator ∧
      ¬ numbering.ProperAncestor semidominator node

def EarliestStrayed (graph : FlowGraph) (numbering : Numbering)
    (start semidominator node : Node) : Prop :=
  Strayed graph numbering start semidominator node ∧
    ∀ other otherNode, Strayed graph numbering start other otherNode →
      numbering.rank node ≤ numbering.rank otherNode

variable {graph : FlowGraph} {numbering : Numbering} {start node : Node} {semi : NodeMap Node}

/-- Only for want of a candidate are there no semidominators. -/
theorem latestStarved_of_semidominators (lawful : numbering.Lawful start)
    (nodeCount : numbering.nodeCount = graph.nodeCount) {fault : Fault}
    (failed : (semidominators graph numbering).outcome = .error fault) :
    ∃ node, fault = .noCandidate node ∧ LatestStarved graph numbering start node := by
  rcases semidominators_spec lawful nodeCount with ⟨semi, ended, -⟩ | ⟨node, ended, latest⟩
  · rw [failed] at ended
    cases ended
  · rw [failed] at ended
    cases ended
    exact ⟨node, rfl, latest⟩

namespace Tabulates

variable (tabulates : Tabulates graph numbering start semi)
include tabulates

theorem not_starved (lawful : numbering.Lawful start) (node : Node) :
    ¬ Starved graph numbering start node := by
  rintro ⟨discovered, apart, none⟩
  obtain ⟨found, -, isSemidominator⟩ :=
    tabulates.isSemidominator node (lawful.contains_iff_rank_pos.mp discovered) apart
  exact none found isSemidominator.1

theorem isSemidominator_getD (positive : 0 < numbering.rank node) (apart : node ≠ start) :
    IsSemidominator graph numbering node ((semi.find? node).getD node) := by
  obtain ⟨found, read, isSemidominator⟩ := tabulates.isSemidominator node positive apart
  rwa [read, Option.getD_some]

theorem readsAs (lawful : numbering.Lawful start) :
    numbering.ReadsAs semi fun node => (semi.find? node).getD node := by
  constructor
  · intro node positive
    obtain ⟨found, read⟩ := Numbering.exists_find?_of_rank_pos tabulates.size_eq positive
    rw [read, Option.getD_some]
  · intro node positive
    by_cases root : node = start
    · have inside := Numbering.lt_nodeCount_of_rank_pos positive
      rwa [tabulates.find?_self node inside (.inr root), Option.getD_some]
    · exact ((candidate_iff lawful).mp (tabulates.isSemidominator_getD positive root).1).1

end Tabulates

end Semidominator

namespace RelativeDominator.Tabulates

variable {numbering : Numbering} {start : Node} {semi : NodeMap Node} {value : Node → Node}
  {relatives : NodeMap (Option Node)}
  (tabulates : RelativeDominator.Tabulates numbering start value relatives)
  (lawful : numbering.Lawful start)
include tabulates

/-- The entry of a node is its relative dominator, and that lies above it. -/
theorem relation_cases {node source : Node} (positive : 0 < numbering.rank node)
    (inherited : (relatives.find? node).join = some source) :
    node ≠ start ∧ IsRelative numbering value node (some source) := by
  have inside := Numbering.lt_nodeCount_of_rank_pos positive
  have apart : node ≠ start := by
    intro root
    rw [tabulates.find?_none node inside (.inr root)] at inherited
    cases inherited
  obtain ⟨relative, read, isRelative⟩ := tabulates.isRelative node positive apart
  rw [read, Option.join_some] at inherited
  rw [inherited] at isRelative
  exact ⟨apart, isRelative⟩

include lawful

theorem readsAs (reads : numbering.ReadsAs semi value) :
    ImmediateDominator.ReadsAs numbering semi relatives value
      fun node => (relatives.find? node).join where
  semi_eq := reads.find?_eq
  relatives_eq node positive := by
    obtain ⟨relative, read⟩ := Numbering.exists_find?_of_rank_pos tabulates.size_eq positive
    rw [read, Option.join_some]
  inside node source positive inherited := by
    obtain ⟨-, between, -⟩ := tabulates.relation_cases positive inherited
    have known := lawful.rank_pos_of_properAncestor between.2
    exact Numbering.lt_nodeCount_of_rank_pos known

/-- A node never inherits from one that is settled after it. -/
theorem resolved {node : Node} (positive : 0 < numbering.rank node) :
    ImmediateDominator.Resolved numbering start (fun node => (relatives.find? node).join)
      node := by
  intro source inherited
  obtain ⟨-, between, -⟩ := tabulates.relation_cases positive inherited
  exact ⟨lawful.rank_pos_of_properAncestor between.2,
    lawful.ne_start_of_properAncestor between.1, lawful.rank_lt_of_properAncestor between.2⟩

end RelativeDominator.Tabulates

open Semidominator

section

variable {graph : FlowGraph} {numbering : Numbering} {start node : Node} {semi : NodeMap Node}
  (tabulates : Tabulates graph numbering start semi) (lawful : numbering.Lawful start)
include tabulates

theorem strayed_of_tabulates (positive : 0 < numbering.rank node) (apart : node ≠ start)
    (stray : ¬ numbering.ProperAncestor ((semi.find? node).getD node) node) :
    Strayed graph numbering start ((semi.find? node).getD node) node :=
  ⟨Numbering.contains_of_rank_pos positive, apart, tabulates.isSemidominator_getD positive apart,
    stray⟩

theorem derived_of_tables {relatives idom : NodeMap (Option Node)}
    (depthFirst : graph.DepthFirst start numbering)
    (related : RelativeDominator.Tabulates numbering start
      (fun node => (semi.find? node).getD node) relatives)
    (properAncestor : ∀ node, 0 < numbering.rank node → node ≠ start →
      numbering.ProperAncestor ((semi.find? node).getD node) node)
    (solves : ImmediateDominator.Solves numbering (fun node => (semi.find? node).getD node)
      (fun node => (relatives.find? node).join) numbering.belowRoot idom) :
    Analysis.Derived graph start ⟨numbering, semi, idom⟩ where
  depthFirst := depthFirst
  tabulates := tabulates
  properAncestor := properAncestor
  equations := by
    refine ⟨_, ?_, solves⟩
    intro node positive apart
    obtain ⟨relative, read, isRelative⟩ := related.isRelative node positive apart
    rw [read]
    exact isRelative

include lawful

theorem not_strayed_of_tabulates {semidominator : Node}
    (proper : numbering.ProperAncestor ((semi.find? node).getD node) node) :
    ¬ Strayed graph numbering start semidominator node := by
  rintro ⟨discovered, apart, isSemidominator, stray⟩
  have positive := lawful.contains_iff_rank_pos.mp discovered
  have same := (tabulates.isSemidominator_getD positive apart).unique lawful isSemidominator
  rw [same] at proper
  exact stray proper

end

end FlowDominance
