import FlowDominance.Proofs.EdgeRecords
import FlowDominance.Proofs.GroupedLists
import FlowDominance.Proofs.LoopInvariant
import Mathlib.Algebra.Ring.Nat

/-!
# A graph mirrors its history

What a growing graph answers can be told from the commands it was given: from those that were
not refused, and from the nodes it returned.  `Mirrors` says so answer by answer.  It speaks of
the graph after any history, and the beginning of a history is a history, so it also says what
every single command meets.
-/

namespace FlowDominance

namespace BlockGraph

variable {α : Type} {graph changed : BlockGraph α} {edges : List (Node × Node)}
  {node source target : Node}

namespace Command

/-- The calls of a history that succeeded, oldest first, each with the graph it met. -/
def calls (graph : BlockGraph α) : List (Command α) → List (BlockGraph α × Command α)
  | [] => []
  | command :: rest =>
      match command.run graph with
      | ⟨changed, .ok ()⟩ => (graph, command) :: calls changed rest
      | ⟨left, .error _⟩ => calls left rest

def handle? : BlockGraph α × Command α → Option Node
  | (graph, addNode data) => some (graph.addNode data).1
  | _ => none

def edge? : BlockGraph α × Command α → Option (Node × Node)
  | (_, addEdge source target) => some (source, target)
  | _ => none

def designated? : BlockGraph α × Command α → Option Node
  | (_, setEntry node) => some node
  | _ => none

def handles (history : List (Command α)) : List Node :=
  (calls empty history).filterMap handle?

/-- The edges that the successful calls of `addEdge` in a history added, oldest first. -/
def addedEdges (history : List (Command α)) : List (Node × Node) :=
  (calls empty history).filterMap edge?

def designations (history : List (Command α)) : List Node :=
  (calls empty history).filterMap designated?

section

variable (holds : BlockGraph α → List (BlockGraph α × Command α) → Prop)
  (kept : ∀ graph done command changed, holds graph done →
    command.run graph = ⟨changed, .ok ()⟩ → holds changed (done ++ [(graph, command)]))
include kept

private theorem replay_from (history : List (Command α)) (graph : BlockGraph α)
    (done : List (BlockGraph α × Command α)) (invariant : holds graph done) :
    holds (replay graph history) (done ++ calls graph history) := by
  -- `done` are the calls made before the part of the history that is left
  induction history generalizing graph done with
  | nil =>
      rw [calls, List.append_nil]
      exact invariant
  | cons command rest inductionHypothesis =>
      rw [replay_cons, calls]
      rcases ran : command.run graph with ⟨left, fault | ⟨⟩⟩
      · cases graph_of_refused ran
        rw [apply_of_refused ran]
        exact inductionHypothesis graph done invariant
      · have further := inductionHypothesis left _ (kept graph done command left invariant ran)
        rw [apply_of_ok ran]
        rwa [List.append_assoc] at further

/-- What holds at first and is kept by every successful call holds after any history, of the
graph and of the calls that succeeded. -/
theorem replay_induction (initially : holds empty []) (history : List (Command α)) :
    holds (replay empty history) (calls empty history) :=
  replay_from holds kept history empty [] initially

end

end Command

/-- The answers of `graph` are those that its history calls for. -/
structure Mirrors (history : List (Command α)) (graph : BlockGraph α) : Prop where
  /-- Nodes are handed out as `n0`, `n1` and so on. -/
  handles_eq : Command.handles history = Node.below graph.nodeCount
  successors_eq : ∀ node, graph.contains node = true →
    graph.successors node = .ok (targetsFrom (Command.addedEdges history) node)
  predecessors_eq : ∀ node, graph.contains node = true →
    graph.predecessors node = .ok (sourcesTo (Command.addedEdges history) node)
  /-- Repeated edges are repeated as often at both ends. -/
  count_eq : ∀ source target targets sources, graph.successors source = .ok targets →
    graph.predecessors target = .ok sources → targets.count target = sources.count source
  edgeCount_eq : graph.edgeCount = (Command.addedEdges history).length
  length_edges : graph.edges.length = graph.edgeCount
  sum_outDegree : ∃ degrees, graph.nodes.mapM graph.outDegree = .ok degrees ∧
    degrees.sum = graph.edgeCount
  sum_inDegree : ∃ degrees, graph.nodes.mapM graph.inDegree = .ok degrees ∧
    degrees.sum = graph.edgeCount
  contains_successor : ∀ node targets, graph.successors node = .ok targets →
    ∀ target ∈ targets, graph.contains target = true
  contains_predecessor : ∀ node sources, graph.predecessors node = .ok sources →
    ∀ source ∈ sources, graph.contains source = true
  contains_entry : ∀ node, graph.entry = some node → graph.contains node = true
  entry_eq : graph.entry = (Command.designations history).getLast?
  /-- Which calls succeed can be told from the commands alone: those that name nodes added
  before. -/
  addedEdges_eq : Command.addedEdges history = Command.enteredEdges 0 history
  lastEntry_eq : graph.entry = Command.lastEntry 0 none history
  /-- Between nodes of the graph every edge can be added. -/
  accepts_edge : ∀ source target, graph.contains source = true →
    graph.contains target = true → ∃ changed, graph.enterEdge source target = ⟨changed, .ok ()⟩
  /-- A foreign source is named before the target is looked at. -/
  refuses_source : ∀ source target, graph.contains source = false →
    graph.enterEdge source target = ⟨graph, .error (.unknownNode source graph.nodeCount)⟩
  refuses_target : ∀ source target, graph.contains source = true →
    graph.contains target = false →
      graph.enterEdge source target = ⟨graph, .error (.unknownNode target graph.nodeCount)⟩
  accepts_entry : ∀ node, graph.contains node = true →
    ∃ changed, graph.designate node = ⟨changed, .ok ()⟩
  refuses_entry : ∀ node, graph.contains node = false →
    graph.designate node = ⟨graph, .error (.unknownNode node graph.nodeCount)⟩
  /-- A foreign node carries no value that could be changed. -/
  ignores_data : ∀ node change, graph.contains node = false →
    graph.data? node = none ∧ graph.mapData node change = graph

/-! ### What a command meets -/

theorem enterEdge_of_foreign_source (outside : graph.contains source = false) (target : Node) :
    graph.enterEdge source target = ⟨graph, .error (.unknownNode source graph.nodeCount)⟩ := by
  simp [enterEdge, outside]

theorem enterEdge_of_foreign_target (inside : graph.contains source = true)
    (outside : graph.contains target = false) :
    graph.enterEdge source target = ⟨graph, .error (.unknownNode target graph.nodeCount)⟩ := by
  simp [enterEdge, inside, outside]

theorem designate_of_foreign (outside : graph.contains node = false) :
    graph.designate node = ⟨graph, .error (.unknownNode node graph.nodeCount)⟩ := by
  simp [designate, outside]

theorem mapData_of_foreign (outside : graph.contains node = false) (change : α → α) :
    graph.mapData node change = graph := by
  obtain ⟨blocks, edgeCount, entry⟩ := graph
  have beyond : blocks.size ≤ node.index := by simpa [contains] using outside
  rw [mapData, mk.injEq]
  refine ⟨?_, rfl, rfl⟩
  apply Array.ext_getElem?
  intro index
  rw [Array.getElem?_modify]
  split
  · next same => rw [← same, Array.getElem?_eq_none beyond, Option.map_none]
  · rfl

/-! ### What a successful call changes -/

section

variable {command : Command α} (ran : command.run graph = ⟨changed, .ok ()⟩)
include ran

theorem below_of_run :
    Node.below changed.nodeCount =
      Node.below graph.nodeCount ++ (Command.handle? (graph, command)).toList := by
  cases command with
  | addNode data =>
      cases ran
      rw [nodeCount_addNode, Node.below, List.range_succ, List.map_append]
      rfl
  | addEdge source target =>
      obtain ⟨-, rfl⟩ := enterEdge_eq_ok_iff.mp ran
      rw [nodeCount_withEdge]
      exact (List.append_nil _).symm
  | setEntry node =>
      obtain ⟨-, rfl⟩ := designate_eq_ok_iff.mp ran
      exact (List.append_nil _).symm
  | mapData node change =>
      cases ran
      rw [nodeCount_mapData]
      exact (List.append_nil _).symm

theorem entry_of_run : changed.entry = (Command.designated? (graph, command)).or graph.entry := by
  cases command with
  | addNode data =>
      cases ran
      rfl
  | addEdge source target =>
      obtain ⟨-, rfl⟩ := enterEdge_eq_ok_iff.mp ran
      rfl
  | setEntry node =>
      obtain ⟨-, rfl⟩ := designate_eq_ok_iff.mp ran
      rfl
  | mapData node change =>
      cases ran
      rfl

end

/-! ### What a history leaves behind -/

theorem filterMap_concat {β γ : Type} (read : β → Option γ) (elements : List β) (last : β) :
    (elements ++ [last]).filterMap read = elements.filterMap read ++ (read last).toList := by
  cases found : read last <;> simp [found]

theorem below_replay (history : List (Command α)) :
    Node.below (Command.replay (empty : BlockGraph α) history).nodeCount =
      Command.handles history := by
  refine Command.replay_induction
    (fun graph done => Node.below graph.nodeCount = done.filterMap Command.handle?) ?_ rfl history
  intro graph done command changed holds ran
  rw [below_of_run ran, holds, filterMap_concat]

/-- The edges that a history enters, read off its commands alone, are those of its successful
calls. -/
theorem enteredEdges_eq (graph : BlockGraph α) (history : List (Command α)) :
    Command.enteredEdges graph.nodeCount history =
      (Command.calls graph history).filterMap Command.edge? := by
  induction history generalizing graph with
  | nil => rfl
  | cons command rest inductionHypothesis =>
      rw [Command.calls]
      cases command with
      | addNode data =>
          have further := inductionHypothesis (graph.addNode data).2
          rwa [nodeCount_addNode] at further
      | addEdge source target =>
          rw [Command.enteredEdges]
          rcases ran : (Command.addEdge source target).run graph with ⟨left, fault | ⟨⟩⟩
          · have outside : ¬ (source.index < graph.nodeCount ∧ target.index < graph.nodeCount) := by
              intro inside
              rw [Command.run, enterEdge_eq_ok_iff.mpr ⟨inside, rfl⟩] at ran
              cases ran
            cases Command.graph_of_refused ran
            rw [if_neg outside]
            exact inductionHypothesis graph
          · obtain ⟨inside, rfl⟩ := enterEdge_eq_ok_iff.mp ran
            have further := inductionHypothesis (graph.withEdge source target)
            rw [nodeCount_withEdge] at further
            rw [if_pos inside, further]
            rfl
      | setEntry node =>
          rcases ran : (Command.setEntry node).run graph with ⟨left, fault | ⟨⟩⟩
          · cases Command.graph_of_refused ran
            exact inductionHypothesis graph
          · obtain ⟨-, rfl⟩ := designate_eq_ok_iff.mp ran
            exact inductionHypothesis { graph with entry := some node }
      | mapData node change =>
          have further := inductionHypothesis (graph.mapData node change)
          rwa [nodeCount_mapData] at further

theorem records_replay (history : List (Command α)) :
    Records (Command.replay empty history) (Command.addedEdges history) := by
  rw [Command.addedEdges, ← enteredEdges_eq]
  exact records_replay_empty history

theorem entry_replay (history : List (Command α)) :
    (Command.replay (empty : BlockGraph α) history).entry =
      (Command.designations history).getLast? := by
  refine Command.replay_induction
    (fun graph done => graph.entry = (done.filterMap Command.designated?).getLast?) ?_ rfl history
  intro graph done command changed holds ran
  rw [entry_of_run ran, holds, filterMap_concat, List.getLast?_append]
  cases Command.designated? (graph, command) <;> rfl

theorem entry_replay_eq_lastEntry (graph : BlockGraph α) (history : List (Command α)) :
    (Command.replay graph history).entry =
      Command.lastEntry graph.nodeCount graph.entry history := by
  induction history generalizing graph with
  | nil => rfl
  | cons command rest inductionHypothesis =>
      rw [Command.replay_cons, inductionHypothesis]
      cases command with
      | addNode data =>
          rw [Command.apply_of_ok rfl, nodeCount_addNode]
          rfl
      | addEdge source target =>
          rw [apply_addEdge, Command.lastEntry]
          split
          · rw [nodeCount_withEdge]
            rfl
          · rfl
      | setEntry node =>
          rw [apply_setEntry, Command.lastEntry]
          split <;> rfl
      | mapData node change =>
          rw [Command.apply_of_ok rfl, nodeCount_mapData]
          rfl

/-! ### Degrees and edges -/

theorem block_of_foreign (outside : graph.contains node = false) :
    graph.block node = .error (.outOfBounds graph.nodeCount node.index) :=
  dif_neg (of_decide_eq_false outside)

namespace Records

variable (records : Records graph edges)
include records

theorem exists_block (inside : graph.contains node = true) : ∃ block,
    graph.block node = .ok block ∧ block.successors.toList = targetsFrom edges node ∧
      block.predecessors.toList = sourcesTo edges node := by
  have bound : node.index < graph.blocks.size := contains_iff.mp inside
  have found : graph.block? node = some graph.blocks[node.index] :=
    Array.getElem?_eq_getElem bound
  exact ⟨_, dif_pos bound, records.successors_eq node _ found,
    records.predecessors_eq node _ found⟩

theorem successors_eq_ok_iff {targets : List Node} :
    graph.successors node = .ok targets ↔
      graph.contains node = true ∧ targets = targetsFrom edges node := by
  cases inside : graph.contains node with
  | true =>
      obtain ⟨block, read, targets_eq, -⟩ := records.exists_block inside
      rw [BlockGraph.successors, read, Except.map, targets_eq]
      simp [eq_comm]
  | false => simp [BlockGraph.successors, block_of_foreign inside, Except.map]

theorem predecessors_eq_ok_iff {sources : List Node} :
    graph.predecessors node = .ok sources ↔
      graph.contains node = true ∧ sources = sourcesTo edges node := by
  cases inside : graph.contains node with
  | true =>
      obtain ⟨block, read, -, sources_eq⟩ := records.exists_block inside
      rw [BlockGraph.predecessors, read, Except.map, sources_eq]
      simp [eq_comm]
  | false => simp [BlockGraph.predecessors, block_of_foreign inside, Except.map]

theorem edges_eq :
    graph.edges = graph.nodes.flatMap fun node => edges.filter fun edge => edge.1 = node := by
  have sourced (node : Node) : (targetsFrom edges node).map (fun target => (node, target)) =
      edges.filter fun edge => edge.1 = node := by
    rw [targetsFrom, List.map_map]
    refine (List.map_congr_left fun edge member => ?_).trans (List.map_id _)
    have same := of_decide_eq_true (List.mem_filter.mp member).2
    exact Prod.ext same.symm rfl
  rw [BlockGraph.edges, List.flatMap_def, List.flatMap_def]
  congr 1
  apply List.ext_getElem
  · simp [nodes, nodeCount]
  · intro index inside _
    have bound : index < graph.blocks.size := by simpa using inside
    have found : graph.block? ⟨index⟩ = some graph.blocks[index] := Array.getElem?_eq_getElem bound
    simp only [List.getElem_map, List.getElem_zipIdx, Array.getElem_toList, Nat.zero_add, nodes,
      Node.below, List.getElem_range, records.successors_eq ⟨index⟩ _ found]
    exact sourced ⟨index⟩

theorem edges_perm : graph.edges.Perm edges := by
  rw [records.edges_eq]
  refine flatMap_filter_perm Prod.fst (Node.nodup_below graph.nodeCount) ?_
  rintro ⟨source, target⟩ member
  exact Node.mem_below.mpr (records.lt_nodeCount member).1

theorem outDegree_eq_ok (inside : graph.contains node = true) :
    graph.outDegree node = .ok (edges.filter fun edge => edge.1 = node).length := by
  obtain ⟨block, read, targets, -⟩ := records.exists_block inside
  rw [outDegree, read, Except.map, ← Array.length_toList, targets, targetsFrom, List.length_map]

theorem inDegree_eq_ok (inside : graph.contains node = true) :
    graph.inDegree node = .ok (edges.filter fun edge => edge.2 = node).length := by
  obtain ⟨block, read, -, sources⟩ := records.exists_block inside
  rw [inDegree, read, Except.map, ← Array.length_toList, sources, sourcesTo, List.length_map]

/-- Degrees that count the edges with a given end at every node add up to the number of edges. -/
theorem exists_degrees (degree : Node → Except Fault Nat) (key : Node × Node → Node)
    (counts : ∀ node, graph.contains node = true →
      degree node = .ok (edges.filter fun edge => key edge = node).length)
    (covered : ∀ edge ∈ edges, key edge ∈ graph.nodes) :
    ∃ degrees, graph.nodes.mapM degree = .ok degrees ∧ degrees.sum = graph.edgeCount := by
  refine ⟨_, mapM_eq_ok fun node member => counts node ?_, ?_⟩
  · exact contains_iff.mpr (Node.mem_below.mp member)
  · rw [← List.length_flatMap, records.edgeCount_eq]
    exact (flatMap_filter_perm key (Node.nodup_below graph.nodeCount) covered).length_eq

end Records

/-- An edge occurs as often among the targets at its source as it was added. -/
theorem count_targetsFrom :
    (targetsFrom edges source).count target = edges.count (source, target) := by
  rw [targetsFrom, List.count, List.countP_map, List.countP_filter, List.count]
  apply List.countP_congr
  intro edge _
  simp [Prod.ext_iff, and_comm]

theorem count_sourcesTo :
    (sourcesTo edges target).count source = edges.count (source, target) := by
  rw [sourcesTo, List.count, List.countP_map, List.countP_filter, List.count]
  apply List.countP_congr
  intro edge _
  simp [Prod.ext_iff]

/-- A graph mirrors its history, whatever commands it was given: the successful calls can be
read off its two adjacencies, its count of edges and its entry, and the other calls were
refused for the first foreign node they named and left no trace. -/
theorem replay_mirrors (history : List (Command α)) :
    Mirrors history (Command.replay empty history) := by
  have records := records_replay history
  refine
    { handles_eq := (below_replay history).symm
      successors_eq := fun node inside => records.successors_eq_ok_iff.mpr ⟨inside, rfl⟩
      predecessors_eq := fun node inside => records.predecessors_eq_ok_iff.mpr ⟨inside, rfl⟩
      count_eq := ?_
      edgeCount_eq := records.edgeCount_eq
      length_edges := records.edges_perm.length_eq.trans records.edgeCount_eq.symm
      sum_outDegree := records.exists_degrees _ Prod.fst (fun node => records.outDegree_eq_ok)
        fun edge member => Node.mem_below.mpr (records.lt_nodeCount member).1
      sum_inDegree := records.exists_degrees _ Prod.snd (fun node => records.inDegree_eq_ok)
        fun edge member => Node.mem_below.mpr (records.lt_nodeCount member).2
      contains_successor := ?_
      contains_predecessor := ?_
      contains_entry := records.contains_entry
      entry_eq := entry_replay history
      addedEdges_eq := (enteredEdges_eq empty history).symm
      lastEntry_eq := entry_replay_eq_lastEntry empty history
      accepts_edge := fun source target sourceInside targetInside => ⟨_, enterEdge_eq_ok_iff.mpr
        ⟨⟨contains_iff.mp sourceInside, contains_iff.mp targetInside⟩, rfl⟩⟩
      refuses_source := fun source target outside => enterEdge_of_foreign_source outside target
      refuses_target := fun source target => enterEdge_of_foreign_target
      accepts_entry := fun node inside =>
        ⟨_, designate_eq_ok_iff.mpr ⟨contains_iff.mp inside, rfl⟩⟩
      refuses_entry := fun node => designate_of_foreign
      ignores_data := ?_ }
  · intro source target targets sources targetsFound sourcesFound
    obtain ⟨-, rfl⟩ := records.successors_eq_ok_iff.mp targetsFound
    obtain ⟨-, rfl⟩ := records.predecessors_eq_ok_iff.mp sourcesFound
    rw [count_targetsFrom, count_sourcesTo]
  · intro node targets found target member
    obtain ⟨-, rfl⟩ := records.successors_eq_ok_iff.mp found
    exact (records.contains_ends node target (mem_targetsFrom_iff.mp member)).2
  · intro node sources found source member
    obtain ⟨-, rfl⟩ := records.predecessors_eq_ok_iff.mp found
    exact (records.contains_ends source node (mem_sourcesTo_iff.mp member)).1
  · intro node change outside
    refine ⟨?_, mapData_of_foreign outside change⟩
    rw [data?, block?_eq_none_iff.mpr outside, Option.map_none]

end BlockGraph

end FlowDominance
