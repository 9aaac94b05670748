import FlowDominance.Proofs.GrowthHistory
import FlowDominance.Proofs.RootedTree

/-!
# Dominators from predecessors

The usual definition of dominators by equations says that a node is dominated by itself and by
what dominates all its predecessors.  An analysis never looks at the dominators of predecessors,
so for its tables this is a law to be shown: apart from the node itself, the dominators of a node
are those that its reachable predecessors have in common, and the immediate dominator is the
lowest of them.

Where an edge closes a loop, a node dominates one of its own predecessors.  It never dominates all
of them, since its parent in the depth-first tree is one.  Unreachable predecessors have no
dominators and do not count.
-/

namespace FlowDominance

open FlowGraph

/-- In `tree`, the node `dominator` is the lowest of those that dominate all of `nodes`. -/
structure DominatorTree.IsNearestCommon (tree : DominatorTree) (nodes : List Node)
    (dominator : Node) : Prop where
  dominates : ∀ node ∈ nodes, tree.dominates dominator node = true
  nearest : ∀ other, (∀ node ∈ nodes, tree.dominates other node = true) →
    tree.dominates other dominator = true

/-! ### The law along paths -/

namespace FlowGraph

variable {graph : FlowGraph} {start node other : Node} {numbering : Numbering}

theorem onEveryPath_of_predecessors (depthFirst : graph.DepthFirst start numbering)
    (consistent : graph.Consistent start) (apart : node ≠ start)
    (common : ∀ source ∈ graph.predecessors node, 0 < numbering.rank source →
      graph.OnEveryPath start other source) : graph.OnEveryPath start other node := by
  intro nodes path
  have known := depthFirst.rank_pos_of_path path depthFirst.lawful.rank_start_pos
  rcases path.exists_last_edge with same | ⟨source, front, toSource, edge, subset⟩
  · exact absurd same.symm apart
  · have sourceKnown := known source (subset toSource.target_mem)
    have listed := (Semidominator.mem_predecessors_iff depthFirst consistent sourceKnown
      (known node path.target_mem)).mpr edge.2
    exact subset (common source listed sourceKnown front toSource)

/-- The nodes on every path to all reachable predecessors of a node are the other nodes on every
path to the node itself. -/
theorem forall_onEveryPath_predecessor_iff (depthFirst : graph.DepthFirst start numbering)
    (consistent : graph.Consistent start) (positive : 0 < numbering.rank node)
    (apart : node ≠ start) :
    (∀ source ∈ graph.predecessors node, 0 < numbering.rank source →
      graph.OnEveryPath start other source) ↔
        graph.OnEveryPath start other node ∧ other ≠ node := by
  constructor
  · intro common
    refine ⟨onEveryPath_of_predecessors depthFirst consistent apart common, ?_⟩
    rintro rfl
    obtain ⟨parent, up⟩ := depthFirst.lawful.exists_parent other positive apart
    have parentKnown := depthFirst.lawful.rank_parent_pos up
    have listed := (Semidominator.mem_predecessors_iff depthFirst consistent parentKnown
      positive).mpr (depthFirst.mem_successors_of_parent other parent up)
    have above := Semidominator.ancestor_of_onEveryPath depthFirst
      (common parent listed parentKnown) parentKnown
    have := depthFirst.lawful.rank_le_of_ancestor above
    have := depthFirst.lawful.rank_parent_lt up
    omega
  · rintro ⟨always, different⟩ source listed sourceKnown
    have edge := Semidominator.edge_of_mem_predecessors depthFirst consistent listed sourceKnown
      positive
    exact always.of_edge edge different

end FlowGraph

/-! ### The law of the tree -/

namespace Analysis.Derived

variable {graph : FlowGraph} {start node other dominator : Node} {analysis : Analysis}
  {tree : DominatorTree} (derived : analysis.Derived graph start)
  (built : analysis.tree = .ok tree)
include derived built

theorem not_mem_dominators_idom? (found : analysis.idom? node = some dominator) :
    node ∉ tree.dominators dominator := by
  have positive := (derived.below_of_idom? found).1
  have nodup := derived.nodup_wayUp built (derived.wayUp_dominators built positive)
  rw [derived.dominators_eq_cons built found] at nodup
  exact (List.nodup_cons.mp nodup).1

theorem eq_of_isNearestCommon {nodes : List Node} {single : Node}
    (isNearest : tree.IsNearestCommon nodes dominator) (member : single ∈ nodes)
    (alone : ∀ other ∈ nodes, other = single) (known : 0 < analysis.numbering.rank single) :
    dominator = single := by
  have itself : tree.dominates single single = true :=
    (derived.dominates_iff_mem_dominators built).mpr (derived.mem_dominators_self built known)
  apply derived.dominates_antisymm built (isNearest.dominates single member)
  apply isNearest.nearest
  intro other otherMember
  rw [alone other otherMember]
  exact itself

variable (consistent : graph.Consistent start)
include consistent

theorem mem_dominators_iff (other : Node) (positive : 0 < analysis.numbering.rank node) :
    other ∈ tree.dominators node ↔ graph.OnEveryPath start other node :=
  derived.mem_wayUp_iff built consistent (derived.wayUp_dominators built positive)

/-- What all reachable predecessors of a node have for dominators in common dominates the
immediate dominator, and the other way round. -/
theorem forall_mem_dominators_predecessor_iff (other : Node)
    (found : analysis.idom? node = some dominator) :
    (∀ source ∈ (graph.predecessors node).filter analysis.contains,
      other ∈ tree.dominators source) ↔ other ∈ tree.dominators dominator := by
  have depthFirst := derived.depthFirst
  obtain ⟨positive, apart⟩ := derived.below_of_idom? found
  have reached (source : Node) :
      analysis.contains source = true ↔ 0 < analysis.numbering.rank source :=
    depthFirst.lawful.contains_iff_rank_pos
  have onPaths (source : Node) (known : 0 < analysis.numbering.rank source) :=
    derived.mem_dominators_iff built consistent other known
  calc (∀ source ∈ (graph.predecessors node).filter analysis.contains,
        other ∈ tree.dominators source)
      ↔ ∀ source ∈ graph.predecessors node, 0 < analysis.numbering.rank source →
          graph.OnEveryPath start other source := by
        simp only [List.mem_filter, reached, and_imp]
        exact forall₃_congr fun source _ known => onPaths source known
    _ ↔ graph.OnEveryPath start other node ∧ other ≠ node :=
        forall_onEveryPath_predecessor_iff depthFirst consistent positive apart
    _ ↔ other ∈ tree.dominators node ∧ other ≠ node := by
        rw [onPaths node positive]
    _ ↔ other ∈ tree.dominators dominator := by
        rw [derived.dominators_eq_cons built found, List.mem_cons]
        have := derived.not_mem_dominators_idom? built found
        grind

theorem isNearestCommon_idom? (found : analysis.idom? node = some dominator) :
    tree.IsNearestCommon ((graph.predecessors node).filter analysis.contains) dominator := by
  have common (other : Node) :=
    derived.forall_mem_dominators_predecessor_iff built consistent other found
  have known := derived.depthFirst.lawful.rank_pos_of_properAncestor
    (derived.properAncestor_of_idom? found)
  constructor <;> simp only [derived.dominates_iff_mem_dominators built]
  · exact (common dominator).mpr (derived.mem_dominators_self built known)
  · exact fun other => (common other).mp

end Analysis.Derived

/-! ### Graphs built step by step -/

open BlockGraph

/-- In a graph with any history, the dominators of a node other than the entry are, apart from
the node itself, those that its reachable predecessors have in common.  Its immediate dominator
is the nearest of these, and the predecessor itself if there is only one. -/
theorem dominators_shared_by_predecessors {α : Type} (history : List (Command α))
    {options : Options} {analysis : Analysis}
    (success : ((Command.replay .empty history).toFlowGraph.analyse options).outcome = .ok analysis)
    (node : Node) (visited : node ∈ analysis.visited)
    (apart : (Command.replay .empty history).entry ≠ some node) :
    ∃ tree sources, analysis.tree = .ok tree ∧
      (Command.replay .empty history).predecessors node = .ok sources ∧
      sources.filter analysis.contains ≠ [] ∧
      (∀ other, (∀ source ∈ sources.filter analysis.contains, other ∈ tree.dominators source) ↔
        other ∈ tree.dominators node ∧ other ≠ node) ∧
      ∃ dominator, analysis.idom? node = some dominator ∧
        tree.IsNearestCommon (sources.filter analysis.contains) dominator ∧
        ∀ source ∈ sources.filter analysis.contains,
          (∀ other ∈ sources.filter analysis.contains, other = source) → dominator = source := by
  have records := records_replay_empty history
  generalize Command.replay .empty history = graph at success apart records
  obtain ⟨start, designated, derived, positive, notStart⟩ :=
    below_entry_of_visited success visited apart
  have consistent := records.consistent designated
  obtain ⟨tree, built⟩ := derived.exists_tree
  obtain ⟨dominator, found⟩ := derived.exists_idom? positive notStart
  have owned : graph.contains node = true := by
    rw [BlockGraph.contains_iff]
    exact FlowGraph.contains_iff.mp (derived.depthFirst.contains_of_rank_pos positive)
  have common (other : Node) :=
    derived.forall_mem_dominators_predecessor_iff built consistent other found
  have isNearest := derived.isNearestCommon_idom? built consistent found
  have withoutNode := derived.not_mem_dominators_idom? built found
  rw [records.predecessors_toFlowGraph_eq] at common isNearest
  refine ⟨tree, _, built, records.predecessors_eq_ok_iff.mpr ⟨owned, rfl⟩, ?_, ?_, dominator, found,
    isNearest, ?_⟩
  · intro none
    rw [none] at common
    exact withoutNode ((common node).mp (by simp))
  · intro other
    rw [common other, derived.dominators_eq_cons built found, List.mem_cons]
    grind
  · intro source member alone
    exact derived.eq_of_isNearestCommon built isNearest member alone
      (derived.depthFirst.lawful.contains_iff_rank_pos.mp (List.mem_filter.mp member).2)

/-- A loop that is entered at `n1` and closed from `n2`, and that the unreachable node `n3` also
leads into. -/
def looping : List (Command Unit) :=
  [.addNode (), .addNode (), .addNode (), .addNode (), .addEdge ⟨3⟩ ⟨1⟩, .addEdge ⟨2⟩ ⟨1⟩,
    .addEdge ⟨0⟩ ⟨1⟩, .addEdge ⟨1⟩ ⟨2⟩, .setEntry ⟨0⟩]

def loopingAnalysis : Analysis where
  numbering :=
    { order := #[⟨0⟩, ⟨1⟩, ⟨2⟩]
      positions := ⟨#[some 1, some 2, some 3, none]⟩
      parents := ⟨#[none, some ⟨0⟩, some ⟨1⟩, none]⟩ }
  semi := ⟨#[⟨0⟩, ⟨0⟩, ⟨1⟩, ⟨3⟩]⟩
  idom := ⟨#[none, some ⟨0⟩, some ⟨1⟩, none]⟩

theorem analyse_looping :
    ((Command.replay .empty looping).toFlowGraph.analyse .strict).outcome =
      .ok loopingAnalysis := by
  cbv

/-- Of the three predecessors of `n1` one is unreachable, and one is dominated by `n1`.  What the
reachable ones have in common dominates `n1`, and the entry is the nearest such node. -/
theorem looping_shared_by_predecessors : ∃ tree, loopingAnalysis.tree = .ok tree ∧
    (Command.replay .empty looping).predecessors ⟨1⟩ = .ok [⟨3⟩, ⟨2⟩, ⟨0⟩] ∧
      (∀ other, other ∈ tree.dominators ⟨2⟩ ∧ other ∈ tree.dominators ⟨0⟩ ↔
        other ∈ tree.dominators ⟨1⟩ ∧ other ≠ ⟨1⟩) ∧
          loopingAnalysis.idom? ⟨1⟩ = some ⟨0⟩ ∧ tree.IsNearestCommon [⟨2⟩, ⟨0⟩] ⟨0⟩ := by
  have listed : (Command.replay .empty looping).predecessors ⟨1⟩ = .ok [⟨3⟩, ⟨2⟩, ⟨0⟩] := by cbv
  have reached : ([⟨3⟩, ⟨2⟩, ⟨0⟩] : List Node).filter loopingAnalysis.contains = [⟨2⟩, ⟨0⟩] := by
    decide
  obtain ⟨tree, sources, built, same, -, shared, dominator, found, isNearest, -⟩ :=
    dominators_shared_by_predecessors looping analyse_looping ⟨1⟩ (by decide) (by decide)
  rw [listed] at same
  cases same
  cases found
  rw [reached] at shared isNearest
  refine ⟨tree, built, listed, ?_, rfl, isNearest⟩
  intro other
  rw [← shared other]
  simp

end FlowDominance
