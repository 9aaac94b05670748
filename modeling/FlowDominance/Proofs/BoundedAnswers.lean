import FlowDominance.Proofs.ReachablePart
import FlowDominance.Proofs.RootedTree

/-!
# Nothing out of bounds

The lists of a flow graph may name any nodes, also such as the graph does not own.  Nevertheless
an analysis asks for no cell that a table lacks and for the neighbours of no foreign node, and
going up its trees always ends.  The same holds of every question about a finished analysis,
whatever node or position it is about; and no foreign node ever gets into an answer.
-/

namespace FlowDominance

open FlowGraph

/-! ### Records -/

namespace Traced

variable {α β σ : Type} {P : Record → Prop}

def Notes (P : Record → Prop) (run : Traced α) : Prop :=
  ∀ record ∈ run.records, P record

theorem notes_liftM (outcome : Except Fault α) : Notes P (liftM outcome : Traced α) := by
  intro record noted
  have without : (liftM outcome : Traced α).records = #[] := rfl
  simp [without] at noted

theorem notes_pure (result : α) : Notes P (pure result : Traced α) := by
  intro record noted
  simp at noted

theorem notes_note {record : Record} (satisfied : P record) : Notes P (note record) := by
  intro other noted
  rw [records_note, Array.mem_singleton] at noted
  rwa [noted]

theorem notes_bind {first : Traced α} {next : α → Traced β} (before : Notes P first)
    (after : ∀ result, first.outcome = .ok result → Notes P (next result)) :
    Notes P (first >>= next) := by
  intro record noted
  rw [records_bind] at noted
  cases ended : first.outcome with
  | error fault =>
      rw [ended] at noted
      exact before record noted
  | ok result =>
      rw [ended] at noted
      rcases Array.mem_append.mp noted with early | late
      · exact before record early
      · exact after result ended record late

theorem notes_ite_check_bind (check : Except Fault Unit) (asked : Bool) {next : Unit → Traced β}
    (after : Notes P (next ())) :
    Notes P (if asked = true then liftM check >>= next else next ()) := by
  split
  · exact notes_bind (notes_liftM check) fun _ _ => after
  · exact after

theorem notes_foldNoting {step : σ → α → Except Fault (σ × Record)}
    (each : ∀ state element next record, step state element = .ok (next, record) → P record)
    (elements : List α) (state : σ) {records : Array Record}
    (before : ∀ record ∈ records, P record) :
    Notes P (foldNoting step elements state records) := by
  induction elements generalizing state records with
  | nil => exact before
  | cons element rest inductionHypothesis =>
      rw [foldNoting]
      cases taken : step state element with
      | error fault => exact before
      | ok progress =>
          apply inductionHypothesis
          intro record noted
          rcases Array.mem_push.mp noted with old | rfl
          · exact before record old
          · exact each state element progress.1 _ taken

end Traced

/-- A record does not speak of more nodes than there are. -/
def Record.Possible : Record → Prop
  | .numbered visited nodeCount _ => visited ≤ nodeCount
  | _ => True

variable {graph : FlowGraph}

theorem semidominators_notes (numbering : Numbering) :
    Traced.Notes Record.Possible (semidominators graph numbering) := by
  refine Traced.notes_bind (Traced.notes_foldNoting ?_ _ _ (by simp)) fun progress _ =>
    Traced.notes_pure _
  intro progress entry next record taken
  simp only [Semidominator.settle] at taken
  split at taken
  · cases taken
  · cases taken
  · split at taken
    · cases taken
    · cases taken
      trivial

theorem immediateDominators_notes (numbering : Numbering) (semi : NodeMap Node)
    (relatives : NodeMap (Option Node)) :
    Traced.Notes Record.Possible (immediateDominators numbering semi relatives) := by
  refine Traced.notes_foldNoting ?_ _ _ (by simp)
  intro idom node next record taken
  simp only [ImmediateDominator.settle] at taken
  split at taken
  · cases taken
  · split at taken
    · cases taken
    · cases taken
      trivial

theorem analyse_notes (graph : FlowGraph) (options : Options) :
    Traced.Notes Record.Possible (graph.analyse options) := by
  unfold analyse
  refine Traced.notes_bind (Traced.notes_liftM _) ?_
  intro entry usable
  have inside := contains_iff.mpr (usableEntry_eq_ok_iff.mp usable).2
  by_cases refused : options.refuses graph.nodeCount = true
  · simp only [refused, if_true, Traced.error_bind]
    exact Traced.notes_bind (Traced.notes_note trivial) fun _ _ =>
      Traced.notes_liftM (.error (.tooLarge graph.nodeCount options.nodeLimit))
  simp only [refused]
  refine Traced.notes_bind (Traced.notes_liftM _) ?_
  intro numbering numbered
  have depthFirst := depthFirst_of_number_eq_ok inside numbered
  have possible : (Record.numbered numbering.size graph.nodeCount entry).Possible := by
    rw [← depthFirst.nodeCount_eq]
    exact depthFirst.lawful.size_le_nodeCount
  refine Traced.notes_ite_check_bind _ _ ?_
  refine Traced.notes_bind (Traced.notes_note possible) fun _ _ => ?_
  refine Traced.notes_bind (semidominators_notes numbering) fun semi _ => ?_
  refine Traced.notes_bind (Traced.notes_liftM _) fun relatives _ => ?_
  refine Traced.notes_bind (immediateDominators_notes numbering semi relatives) fun idom _ => ?_
  refine Traced.notes_ite_check_bind _ _ ?_
  exact Traced.notes_bind (Traced.notes_note trivial) fun _ _ => Traced.notes_pure _

/-! ### Neighbours -/

/-- The graphs `graph` and `other` differ at most in the neighbours of nodes that they do not
own. -/
structure FlowGraph.SameWithin (graph other : FlowGraph) : Prop where
  nodeCount_eq : other.nodeCount = graph.nodeCount
  entry_eq : other.entry = graph.entry
  successors_eq : ∀ node, graph.contains node = true →
    other.successors node = graph.successors node
  predecessors_eq : ∀ node, graph.contains node = true →
    other.predecessors node = graph.predecessors node

theorem FlowGraph.SameWithin.agrees {other : FlowGraph} (same : graph.SameWithin other) :
    graph.Agrees other where
  nodeCount_eq := same.nodeCount_eq
  entry_eq := same.entry_eq
  successors_eq start node _ inside _ := same.successors_eq node inside
  mem_predecessors_iff start source target _ _ _ inside _ := by
    rw [same.predecessors_eq target inside]

theorem FlowGraph.SameWithin.analyse_eq {other : FlowGraph} (same : graph.SameWithin other)
    (options : Options) : other.analyse options = graph.analyse options := by
  have agrees := same.agrees
  apply FlowGraph.analyse_eq options same.nodeCount_eq same.entry_eq
  · intro start _ designated
    exact number_of_pads (agrees.pads designated)
  · intro start numbering designated depthFirst
    exact agrees.sameCandidates designated depthFirst

/-! ### Answers -/

/-- Whatever node or position `numbering` is asked about, it answers with nodes of `graph` and
with positions of its order. -/
structure Numbering.StaysWithin (numbering : Numbering) (graph : FlowGraph) : Prop where
  nodeCount_eq : numbering.nodeCount = graph.nodeCount
  size_le : numbering.size ≤ graph.nodeCount
  contains_root : ∃ root, numbering.root? = some root ∧ graph.contains root = true
  contains_nodeAt : ∀ position, ∀ node ∈ numbering.nodeAt? position, graph.contains node = true
  position_le : ∀ node, ∀ position ∈ numbering.position? node,
    graph.contains node = true ∧ 0 < position ∧ position ≤ numbering.size
  contains_parent : ∀ node, ∀ parent ∈ numbering.parent? node,
    graph.contains parent = true ∧ graph.contains node = true

/-- Every question about `analysis` has an answer, and the answer names only nodes of `graph`. -/
structure Analysis.StaysWithin (analysis : Analysis) (graph : FlowGraph) : Prop where
  entry : ∃ entry, analysis.entry = .ok entry ∧ graph.contains entry = true
  visited : ∀ node ∈ analysis.visited, graph.contains node = true
  unreachable : ∀ node ∈ analysis.unreachable, graph.contains node = true
  semidominator : ∀ node, ∃ answer, analysis.semidominator? node = .ok answer ∧
    ∀ semidominator ∈ answer, graph.contains semidominator = true ∧ graph.contains node = true
  idom : ∀ node, ∀ dominator ∈ analysis.idom? node,
    graph.contains dominator = true ∧ graph.contains node = true
  semidominatorEdges : ∃ edges, analysis.semidominatorEdges = .ok edges ∧
    ∀ edge ∈ edges, graph.contains edge.1 = true ∧ graph.contains edge.2 = true

/-- Going up `tree` never runs in a circle and ends at the entry, and `tree` shows only nodes of
`graph`. -/
structure DominatorTree.StaysWithin (tree : DominatorTree) (graph : FlowGraph) : Prop where
  entry : graph.contains tree.entry = true
  nodes : ∀ node ∈ tree.nodes, graph.contains node = true
  contains : ∀ node, tree.contains node = true → graph.contains node = true
  idom : ∀ node, ∀ dominator ∈ tree.idom? node,
    graph.contains dominator = true ∧ graph.contains node = true
  childrenOf : ∀ node, ∀ child ∈ tree.childrenOf node,
    graph.contains node = true ∧ graph.contains child = true
  edges : ∀ edge ∈ tree.edges, graph.contains edge.1 = true ∧ graph.contains edge.2 = true
  ascend_ends : ∀ node, (tree.ascend node).2 = .ok ()
  wayUp_dominators : ∀ node, tree.contains node = true → tree.WayUp node (tree.dominators node)
  dominators : ∀ node, ∀ dominator ∈ tree.dominators node,
    graph.contains dominator = true ∧ graph.contains node = true
  /-- A node of the tree has one dominator more than its depth says, so at least one. -/
  length_dominators : ∀ node, tree.contains node = true →
    ∃ depth, tree.depth? node = some depth ∧ (tree.dominators node).length = depth + 1

namespace Analysis.Derived

variable {graph : FlowGraph} {start node : Node} {analysis : Analysis} {tree : DominatorTree}
  (derived : Derived graph start analysis)
include derived

theorem contains_of_idom? {dominator : Node} (found : analysis.idom? node = some dominator) :
    graph.contains dominator = true ∧ graph.contains node = true :=
  derived.depthFirst.contains_of_properAncestor (derived.properAncestor_of_idom? found)

theorem contains_semidominatorOf (positive : 0 < analysis.numbering.rank node)
    (apart : node ≠ start) :
    graph.contains (analysis.semidominatorOf node) = true ∧ graph.contains node = true :=
  derived.depthFirst.contains_of_properAncestor (derived.properAncestor node positive apart)

theorem entry_eq : analysis.entry = .ok start := by
  rw [Analysis.entry, derived.depthFirst.lawful.root?_eq]

theorem semidominator?_eq_ok : analysis.semidominator? node =
    .ok (if 0 < analysis.numbering.rank node ∧ node ≠ start then
      some (analysis.semidominatorOf node) else none) := by
  have known : analysis.contains node = true ↔ 0 < analysis.numbering.rank node :=
    derived.depthFirst.lawful.contains_iff_rank_pos
  rw [Analysis.semidominator?, derived.entry_eq]
  by_cases below : 0 < analysis.numbering.rank node ∧ node ≠ start
  · have inside := known.mpr below.1
    have found := derived.find?_semi below.1 below.2
    rw [if_pos below, ← found]
    simp [bind, Except.bind, pure, Except.pure, below.2, inside]
  · have without : (node = start || !analysis.contains node) = true := by
      rw [← known] at below
      grind
    rw [if_neg below]
    simp only [bind, Except.bind, without, if_true]
    rfl

theorem semidominatorEdges_eq : analysis.semidominatorEdges =
    .ok (analysis.numbering.belowRoot.map fun node => (analysis.semidominatorOf node, node)) := by
  apply mapM_eq_ok
  intro node member
  obtain ⟨positive, apart⟩ := derived.depthFirst.lawful.mem_belowRoot_iff.mp member
  rw [NodeMap.read_eq_ok_iff.mpr (derived.find?_semi positive apart)]
  rfl

theorem numbering_staysWithin : analysis.numbering.StaysWithin graph := by
  have depthFirst := derived.depthFirst
  have lawful := depthFirst.lawful
  have placed {node : Node} {position : Nat}
      (found : analysis.numbering.position? node = some position) :
      0 < position ∧ analysis.numbering.rank node = position :=
    lawful.position?_eq_some_iff.mp found
  refine
    { nodeCount_eq := depthFirst.nodeCount_eq
      size_le := ?_
      contains_root := ⟨start, lawful.root?_eq, depthFirst.contains_start⟩
      contains_nodeAt := ?_
      position_le := ?_
      contains_parent := ?_ }
  · rw [← depthFirst.nodeCount_eq]
    exact lawful.size_le_nodeCount
  · intro position node found
    obtain ⟨positive, rfl⟩ := placed ((lawful.nodeAt?_eq_some_iff node position).mp found)
    exact depthFirst.contains_of_rank_pos positive
  · intro node position found
    obtain ⟨positive, rfl⟩ := placed found
    exact ⟨depthFirst.contains_of_rank_pos positive, positive, lawful.rank_le_size⟩
  · intro node parent up
    exact depthFirst.contains_of_properAncestor ⟨parent, up, .refl⟩

theorem staysWithin : analysis.StaysWithin graph := by
  have depthFirst := derived.depthFirst
  have lawful := depthFirst.lawful
  refine
    { entry := ⟨start, derived.entry_eq, depthFirst.contains_start⟩
      visited := ?_
      unreachable := ?_
      semidominator := ?_
      idom := fun node dominator found => derived.contains_of_idom? found
      semidominatorEdges := ⟨_, derived.semidominatorEdges_eq, ?_⟩ }
  · intro node member
    exact depthFirst.contains_of_rank_pos (lawful.mem_order_iff.mp member)
  · intro node member
    have below := Node.mem_below.mp (List.mem_filter.mp member).1
    rw [depthFirst.nodeCount_eq] at below
    exact contains_iff.mpr below
  · intro node
    refine ⟨_, derived.semidominator?_eq_ok, ?_⟩
    intro semidominator found
    split at found
    · next below =>
        cases found
        exact derived.contains_semidominatorOf below.1 below.2
    · cases found
  · intro edge member
    obtain ⟨node, below, rfl⟩ := List.mem_map.mp member
    obtain ⟨positive, apart⟩ := lawful.mem_belowRoot_iff.mp below
    exact derived.contains_semidominatorOf positive apart

theorem tree_staysWithin (built : analysis.tree = .ok tree) : tree.StaysWithin graph := by
  have depthFirst := derived.depthFirst
  have lawful := depthFirst.lawful
  have inTree (node : Node) (inside : tree.contains node = true) :
      0 < analysis.numbering.rank node :=
    (derived.contains_tree_iff built).mp inside
  refine
    { entry := ?_
      nodes := ?_
      contains := fun node inside => depthFirst.contains_of_rank_pos (inTree node inside)
      idom := ?_
      childrenOf := ?_
      edges := ?_
      ascend_ends := derived.ascend_ends built
      wayUp_dominators := fun node inside => derived.wayUp_dominators built (inTree node inside)
      dominators := ?_
      length_dominators := ?_ }
  · rw [derived.entry_of_tree built]
    exact depthFirst.contains_start
  · intro node member
    rw [DominatorTree.nodes, (eq_of_tree built).2.2] at member
    exact depthFirst.contains_of_rank_pos (lawful.mem_order_iff.mp member)
  · intro node dominator found
    rw [idom?_of_tree built] at found
    exact derived.contains_of_idom? found
  · intro node child member
    exact derived.contains_of_idom? ((derived.mem_childrenOf_iff built).mp member)
  · intro edge member
    obtain ⟨node, -, found⟩ := List.mem_filterMap.mp member
    obtain ⟨dominator, up, rfl⟩ := Option.map_eq_some_iff.mp found
    rw [idom?_of_tree built] at up
    exact derived.contains_of_idom? up
  · intro node dominator member
    obtain ⟨upper, lower⟩ := derived.rank_pos_of_mem_dominators built member
    exact ⟨depthFirst.contains_of_rank_pos upper, depthFirst.contains_of_rank_pos lower⟩
  · intro node inside
    have positive := inTree node inside
    refine ⟨_, derived.depth?_eq_length built positive, ?_⟩
    have nonempty := List.length_pos_of_mem (derived.mem_dominators_self built positive)
    omega

end Analysis.Derived

/-- Whatever a graph lists as neighbours and whatever is asked for, no table is asked for a cell
that it lacks, no walk goes on for ever and no more nodes are numbered than there are.  Foreign
nodes are not asked for neighbours: what a graph would answer makes no difference.  An analysis
that succeeds answers every question with nodes of the graph, and all ways up its tree end. -/
theorem analyse_stays_within (graph : FlowGraph) (options : Options) :
    (∀ size index, (graph.analyse options).outcome ≠ .error (.outOfBounds size index)) ∧
    (∀ node, (graph.analyse options).outcome ≠ .error (.endlessWalk node)) ∧
    (∀ visited nodeCount entry,
      .numbered visited nodeCount entry ∈ (graph.analyse options).records →
        visited ≤ nodeCount) ∧
    (∀ other, graph.SameWithin other → other.analyse options = graph.analyse options) ∧
    ∀ analysis, (graph.analyse options).outcome = .ok analysis →
      analysis.numbering.StaysWithin graph ∧ analysis.StaysWithin graph ∧
        ∃ tree, analysis.tree = .ok tree ∧ tree.StaysWithin graph := by
  refine ⟨?_, ?_, ?_, fun other same => same.analyse_eq options, ?_⟩
  · intro size index ended
    have verdict := analyse_verdict graph options
    rw [ended] at verdict
    cases verdict
  · intro node ended
    have verdict := analyse_verdict graph options
    rw [ended] at verdict
    cases verdict
  · intro visited nodeCount entry noted
    exact analyse_notes graph options _ noted
  · intro analysis succeeded
    obtain ⟨entry, -, -, derived⟩ := numbered_of_analyse_eq_ok succeeded
    obtain ⟨tree, built⟩ := derived.exists_tree
    exact ⟨derived.numbering_staysWithin, derived.staysWithin, tree, built,
      derived.tree_staysWithin built⟩

/-- The graph `lopsidedShuffled`, which answers for foreign nodes as if they were its entry. -/
def lopsidedEverywhere : FlowGraph :=
  { lopsidedShuffled with
    successors := fun node =>
      lopsidedShuffled.successors (if lopsidedShuffled.contains node then node else ⟨0⟩)
    predecessors := fun node =>
      lopsidedShuffled.predecessors (if lopsidedShuffled.contains node then node else ⟨0⟩) }

theorem analyse_lopsidedShuffled_stays_within :
    Record.numbered 3 4 ⟨0⟩ ∈ (lopsidedShuffled.analyse .strict).records ∧ 3 ≤ 4 ∧
      lopsidedEverywhere.analyse .strict = lopsidedShuffled.analyse .strict ∧
        (lopsidedShuffled.analyse .strict).outcome = .ok lopsidedAnalysis ∧
          lopsidedAnalysis.StaysWithin lopsidedShuffled ∧
            ∃ tree, lopsidedAnalysis.tree = .ok tree ∧ tree.StaysWithin lopsidedShuffled := by
  obtain ⟨-, -, possible, sameRun, within⟩ := analyse_stays_within lopsidedShuffled .strict
  have noted : Record.numbered 3 4 ⟨0⟩ ∈ (lopsidedShuffled.analyse .strict).records := by
    have first : (lopsidedShuffled.analyse .strict).records[0]? = some (.numbered 3 4 ⟨0⟩) := by
      cbv
    exact Array.mem_of_getElem? first
  have succeeded : (lopsidedShuffled.analyse .strict).outcome = .ok lopsidedAnalysis := by
    cbv
  have same : lopsidedShuffled.SameWithin lopsidedEverywhere :=
    { nodeCount_eq := rfl
      entry_eq := rfl
      successors_eq := fun node inside => by simp [lopsidedEverywhere, inside]
      predecessors_eq := fun node inside => by simp [lopsidedEverywhere, inside] }
  obtain ⟨-, answers, tree⟩ := within lopsidedAnalysis succeeded
  exact ⟨noted, possible 3 4 ⟨0⟩ noted, sameRun _ same, succeeded, answers, tree⟩

end FlowDominance
