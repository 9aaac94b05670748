import FlowDominance.Proofs.GrowthHistory
import FlowDominance.Proofs.ReachablePart

/-!
# Graphs rebuilt from their edges

A graph lists its edges grouped by their sources, and can be built again from that list.
Grouping keeps the order of the edges out of one node, so the successors come back as they were;
the edges into a node may come back in another order.  An analysis follows successors in order
and takes predecessors as a set, so it cannot tell the two graphs apart.
-/

namespace FlowDominance

namespace BlockGraph

variable {α β : Type} {graph : BlockGraph α} {edges : List (Node × Node)} {node entry : Node}

/-- `rebuilt` has the nodes and edges of `graph`; only the edges into a node may have changed
their order. -/
structure Rebuilds (graph : BlockGraph α) (rebuilt : BlockGraph β) : Prop where
  nodeCount_eq : rebuilt.nodeCount = graph.nodeCount
  successors_eq : ∀ node, rebuilt.successors node = graph.successors node
  predecessors_perm : ∀ node, graph.contains node = true → ∃ sources others,
    graph.predecessors node = .ok sources ∧ rebuilt.predecessors node = .ok others ∧
      others.Perm sources
  edgeCount_eq : rebuilt.edgeCount = graph.edgeCount
  edges_eq : rebuilt.edges = graph.edges

/-! ### Graphs built from a list of edges -/

theorem nodeCount_discrete (count : Nat) (data : α) : (discrete count data).nodeCount = count := by
  simp [discrete, nodeCount]

theorem records_discrete (count : Nat) (data : α) : Records (discrete count data) [] := by
  have isolated {node : Node} {block : Block α}
      (found : (discrete count data).block? node = some block) : block = .isolated data := by
    rw [block?, discrete, Array.getElem?_replicate] at found
    split at found
    · exact (Option.some.inj found).symm
    · cases found
  exact
    { edgeCount_eq := rfl
      contains_ends := fun source target member => absurd member List.not_mem_nil
      successors_eq := fun node block found => by rw [isolated found]; rfl
      predecessors_eq := fun node block found => by rw [isolated found]; rfl
      contains_entry := fun node designated => by cases designated }

theorem addEdges_cons (graph : BlockGraph α) (source target : Node) (rest : List (Node × Node)) :
    graph.addEdges ((source, target) :: rest) =
      (graph.addEdge source target).bind fun grown => grown.addEdges rest :=
  rfl

theorem Records.exists_addEdges (records : Records graph edges) {more : List (Node × Node)}
    (inside : ∀ edge ∈ more, edge.1.index < graph.nodeCount ∧ edge.2.index < graph.nodeCount) :
    ∃ grown, graph.addEdges more = .ok grown ∧ grown.nodeCount = graph.nodeCount ∧
      Records grown (edges ++ more) := by
  induction more generalizing graph edges with
  | nil => exact ⟨graph, rfl, rfl, by rwa [List.append_nil]⟩
  | cons edge rest inductionHypothesis =>
      obtain ⟨source, target⟩ := edge
      obtain ⟨sourceInside, targetInside⟩ := inside _ List.mem_cons_self
      have added : graph.addEdge source target = .ok (graph.withEdge source target) :=
        addEdge_eq_ok_iff.mpr ⟨⟨sourceInside, targetInside⟩, rfl⟩
      have insideRest : ∀ edge ∈ rest, edge.1.index < (graph.withEdge source target).nodeCount ∧
          edge.2.index < (graph.withEdge source target).nodeCount := by
        intro edge member
        rw [nodeCount_withEdge]
        exact inside edge (List.mem_cons_of_mem _ member)
      obtain ⟨grown, success, sameCount, further⟩ :=
        inductionHypothesis (records.withEdge sourceInside targetInside) insideRest
      refine ⟨grown, ?_, sameCount.trans nodeCount_withEdge, ?_⟩
      · rw [addEdges_cons, added]
        exact success
      · rwa [List.append_assoc] at further

theorem exists_ofEdges {count : Nat}
    (inside : ∀ edge ∈ edges, edge.1.index < count ∧ edge.2.index < count) :
    ∃ built, ofEdges count edges = .ok built ∧ built.nodeCount = count ∧ Records built edges := by
  have sameCount := nodeCount_discrete count ()
  obtain ⟨grown, success, grownCount, records⟩ :=
    (records_discrete count ()).exists_addEdges (sameCount.symm ▸ inside)
  rw [sameCount] at grownCount
  rw [List.nil_append] at records
  by_cases none : count = 0
  · refine ⟨grown, ?_, grownCount, records⟩
    rw [ofEdges, success]
    exact if_pos none
  · have first : (⟨0⟩ : Node).index < grown.nodeCount := by
      rw [grownCount]
      exact Nat.pos_of_ne_zero none
    refine ⟨{ grown with entry := some ⟨0⟩ }, ?_, grownCount, records.setEntry first⟩
    rw [ofEdges, success]
    exact (if_neg none).trans (setEntry_eq_ok_iff.mpr ⟨first, rfl⟩)

/-! ### The edges of a graph, and the list it was built from -/

namespace Records

variable (records : Records graph edges)
include records

/-- A graph lists the edges out of a node in the order in which they were added. -/
theorem filter_edges_eq (inside : graph.contains node = true) :
    (graph.edges.filter fun edge => edge.1 = node) = edges.filter fun edge => edge.1 = node := by
  rw [records.edges_eq]
  exact filter_flatMap_filter Prod.fst (Node.nodup_below graph.nodeCount)
    (Node.mem_below.mpr (contains_iff.mp inside)) edges

theorem targetsFrom_edges_eq (inside : graph.contains node = true) :
    targetsFrom graph.edges node = targetsFrom edges node := by
  rw [targetsFrom, records.filter_edges_eq inside, targetsFrom]

theorem sourcesTo_edges_perm (node : Node) :
    (sourcesTo graph.edges node).Perm (sourcesTo edges node) :=
  (records.edges_perm.filter _).map _

section

variable {rebuilt : BlockGraph β} (rebuiltRecords : Records rebuilt graph.edges)
  (sameCount : rebuilt.nodeCount = graph.nodeCount)
include rebuiltRecords sameCount

theorem rebuilds : Rebuilds graph rebuilt := by
  have sameNodes (node : Node) : rebuilt.contains node = graph.contains node := by
    rw [Bool.eq_iff_iff, contains_iff, contains_iff, sameCount]
  refine
    { nodeCount_eq := sameCount
      successors_eq := ?_
      predecessors_perm := ?_
      edgeCount_eq := ?_
      edges_eq := ?_ }
  · intro node
    cases inside : graph.contains node with
    | true =>
        rw [rebuiltRecords.successors_eq_ok_iff.mpr ⟨(sameNodes node).trans inside, rfl⟩,
          records.successors_eq_ok_iff.mpr ⟨inside, rfl⟩, records.targetsFrom_edges_eq inside]
    | false =>
        rw [BlockGraph.successors, BlockGraph.successors, block_of_foreign inside,
          block_of_foreign ((sameNodes node).trans inside), sameCount]
        rfl
  · intro node inside
    exact ⟨_, _, records.predecessors_eq_ok_iff.mpr ⟨inside, rfl⟩,
      rebuiltRecords.predecessors_eq_ok_iff.mpr ⟨(sameNodes node).trans inside, rfl⟩,
      records.sourcesTo_edges_perm node⟩
  · rw [rebuiltRecords.edgeCount_eq, records.edgeCount_eq, records.edges_perm.length_eq]
  · have regrouped : ∀ node ∈ graph.nodes, (graph.edges.filter fun edge => edge.1 = node) =
        edges.filter fun edge => edge.1 = node :=
      fun node member => records.filter_edges_eq (contains_iff.mpr (Node.mem_below.mp member))
    calc rebuilt.edges
        = graph.nodes.flatMap fun node => graph.edges.filter fun edge => edge.1 = node := by
          rw [rebuiltRecords.edges_eq, nodes, sameCount, nodes]
      _ = graph.nodes.flatMap fun node => edges.filter fun edge => edge.1 = node :=
          List.flatMap_congr regrouped
      _ = graph.edges := records.edges_eq.symm

theorem agrees (sameEntry : rebuilt.entry = graph.entry) :
    graph.toFlowGraph.Agrees rebuilt.toFlowGraph where
  nodeCount_eq := sameCount
  entry_eq := sameEntry
  successors_eq _ node _ inside _ := by
    rw [rebuiltRecords.successors_toFlowGraph_eq, records.successors_toFlowGraph_eq]
    exact records.targetsFrom_edges_eq (contains_iff.mpr (FlowGraph.contains_iff.mp inside))
  mem_predecessors_iff _ source target _ _ _ _ _ := by
    rw [rebuiltRecords.predecessors_toFlowGraph_eq, records.predecessors_toFlowGraph_eq]
    exact (records.sourcesTo_edges_perm target).mem_iff.symm

end

end Records

/-- A graph can be rebuilt from its own list of edges, whatever its history.  The rebuilt graph
has the same successors, the same predecessors up to their order, and the same list of edges,
and once it has the same entry every analysis of it runs as before. -/
theorem rebuilt_from_edges (history : List (Command α))
    (designated : (Command.replay empty history).entry = some entry) :
    ∃ rebuilt entered,
      ofEdges (Command.replay empty history).nodeCount (Command.replay empty history).edges =
          .ok rebuilt ∧
        Rebuilds (Command.replay empty history) rebuilt ∧ rebuilt.setEntry entry = .ok entered ∧
          ∀ options, entered.toFlowGraph.analyse options =
            (Command.replay empty history).toFlowGraph.analyse options := by
  have records := records_replay history
  generalize Command.replay empty history = graph at designated records
  have inside : ∀ edge ∈ graph.edges,
      edge.1.index < graph.nodeCount ∧ edge.2.index < graph.nodeCount :=
    fun edge member => records.lt_nodeCount (records.edges_perm.mem_iff.mp member)
  obtain ⟨rebuilt, built, sameCount, rebuiltRecords⟩ := exists_ofEdges inside
  have entryInside : entry.index < rebuilt.nodeCount := by
    rw [sameCount]
    exact contains_iff.mp (records.contains_entry entry designated)
  refine ⟨rebuilt, { rebuilt with entry := some entry }, built,
    records.rebuilds rebuiltRecords sameCount, setEntry_eq_ok_iff.mpr ⟨entryInside, rfl⟩, ?_⟩
  intro options
  have agrees := records.agrees (rebuiltRecords.setEntry entryInside) sameCount designated.symm
  apply FlowGraph.analyse_eq options agrees.nodeCount_eq agrees.entry_eq
  · intro start _ startsAt
    exact FlowGraph.number_of_pads (agrees.pads startsAt)
  · intro start numbering startsAt depthFirst
    exact agrees.sameCandidates startsAt depthFirst

/-- A history in which an edge out of the second node is older than those out of the first. -/
def interleaved : List (Command Unit) :=
  [.addNode (), .addNode (), .addNode (), .addEdge ⟨1⟩ ⟨2⟩, .addEdge ⟨0⟩ ⟨2⟩, .addEdge ⟨0⟩ ⟨1⟩,
    .setEntry ⟨0⟩]

theorem interleaved_rebuilt : ∃ rebuilt entered,
    ofEdges 3 [(⟨0⟩, ⟨2⟩), (⟨0⟩, ⟨1⟩), (⟨1⟩, ⟨2⟩)] = .ok rebuilt ∧
      Rebuilds (Command.replay empty interleaved) rebuilt ∧
        (Command.replay empty interleaved).predecessors ⟨2⟩ = .ok [⟨1⟩, ⟨0⟩] ∧
          rebuilt.setEntry ⟨0⟩ = .ok entered ∧
            entered.toFlowGraph.analyse .strict =
              (Command.replay empty interleaved).toFlowGraph.analyse .strict := by
  have designated : (Command.replay empty interleaved).entry = some ⟨0⟩ := rfl
  obtain ⟨rebuilt, entered, built, rebuilds, success, same⟩ :=
    rebuilt_from_edges interleaved designated
  exact ⟨rebuilt, entered, built, rebuilds, rfl, success, same .strict⟩

end BlockGraph

end FlowDominance
