import FlowDominance.BlockGraph.History
import FlowDominance.FlowGraph.Path

/-!
# What a growing graph remembers of its history

A `BlockGraph` enters every edge at both of its ends.  The invariant `Records` says which
list of edges the two adjacencies stand for; every command keeps it, with the edge it
entered, if any, added at the end.  So whatever its history, the graph shows an analysis
two adjacencies that name the same edges.
-/

namespace FlowDominance

namespace BlockGraph

variable {α : Type} {graph changed : BlockGraph α} {edges : List (Node × Node)}
  {node source target : Node}

def targetsFrom (edges : List (Node × Node)) (node : Node) : List Node :=
  (edges.filter fun edge => edge.1 = node).map Prod.snd

def sourcesTo (edges : List (Node × Node)) (node : Node) : List Node :=
  (edges.filter fun edge => edge.2 = node).map Prod.fst

theorem mem_targetsFrom_iff : target ∈ targetsFrom edges source ↔ (source, target) ∈ edges := by
  simp [targetsFrom]

theorem mem_sourcesTo_iff : source ∈ sourcesTo edges target ↔ (source, target) ∈ edges := by
  simp [sourcesTo]

theorem targetsFrom_concat :
    targetsFrom (edges ++ [(source, target)]) node =
      if source = node then targetsFrom edges node ++ [target] else targetsFrom edges node := by
  by_cases same : source = node <;> simp [targetsFrom, same]

theorem sourcesTo_concat :
    sourcesTo (edges ++ [(source, target)]) node =
      if target = node then sourcesTo edges node ++ [source] else sourcesTo edges node := by
  by_cases same : target = node <;> simp [sourcesTo, same]

/-- The two adjacencies of `graph` stand for `edges`, each end in the order of the list. -/
structure Records (graph : BlockGraph α) (edges : List (Node × Node)) : Prop where
  edgeCount_eq : graph.edgeCount = edges.length
  contains_ends : ∀ source target, (source, target) ∈ edges →
    graph.contains source = true ∧ graph.contains target = true
  successors_eq : ∀ node block, graph.block? node = some block →
    block.successors.toList = targetsFrom edges node
  predecessors_eq : ∀ node block, graph.block? node = some block →
    block.predecessors.toList = sourcesTo edges node
  contains_entry : ∀ node, graph.entry = some node → graph.contains node = true

/-! ### Single commands -/

theorem contains_iff : graph.contains node = true ↔ node.index < graph.nodeCount := by
  simp [contains, nodeCount]

theorem block?_addNode (data : α) :
    (graph.addNode data).2.block? node =
      if node.index = graph.nodeCount then some (.isolated data) else graph.block? node := by
  rw [block?, addNode, Array.getElem?_push]
  rfl

theorem nodeCount_addNode (data : α) : (graph.addNode data).2.nodeCount = graph.nodeCount + 1 := by
  simp [addNode, nodeCount]

theorem block?_mapData (changed : Node) (change : α → α) :
    (graph.mapData changed change).block? node =
      if changed.index = node.index then (graph.block? node).map (Block.mapData change)
      else graph.block? node := by
  simp [mapData, block?, Array.getElem?_modify]

theorem nodeCount_mapData (changed : Node) (change : α → α) :
    (graph.mapData changed change).nodeCount = graph.nodeCount := by
  simp [mapData, nodeCount]

theorem Attempt.result_eq_ok_iff {attempt : Attempt α} :
    attempt.result = .ok changed ↔ attempt = ⟨changed, .ok ()⟩ := by
  rcases attempt with ⟨graph, fault | ⟨⟩⟩ <;> simp [result]

theorem designate_eq_ok_iff :
    graph.designate node = ⟨changed, .ok ()⟩ ↔
      node.index < graph.nodeCount ∧ changed = { graph with entry := some node } := by
  rw [designate, ← contains_iff]
  split <;> simp [*, eq_comm]

theorem setEntry_eq_ok_iff :
    graph.setEntry node = .ok changed ↔
      node.index < graph.nodeCount ∧ changed = { graph with entry := some node } := by
  rw [setEntry, Attempt.result_eq_ok_iff, designate_eq_ok_iff]

def withEdge (graph : BlockGraph α) (source target : Node) : BlockGraph α where
  blocks := (graph.blocks.modify source.index (Block.addSuccessor target)).modify target.index
    (Block.addPredecessor source)
  edgeCount := graph.edgeCount + 1
  entry := graph.entry

theorem enterEdge_eq_ok_iff :
    graph.enterEdge source target = ⟨changed, .ok ()⟩ ↔
      (source.index < graph.nodeCount ∧ target.index < graph.nodeCount) ∧
        changed = graph.withEdge source target := by
  rw [enterEdge, ← contains_iff, ← contains_iff]
  cases graph.contains source <;> cases graph.contains target <;> simp [withEdge, eq_comm]

theorem addEdge_eq_ok_iff :
    graph.addEdge source target = .ok changed ↔
      (source.index < graph.nodeCount ∧ target.index < graph.nodeCount) ∧
        changed = graph.withEdge source target := by
  rw [addEdge, Attempt.result_eq_ok_iff, enterEdge_eq_ok_iff]

theorem nodeCount_withEdge :
    (graph.withEdge source target).nodeCount = graph.nodeCount := by
  simp [withEdge, nodeCount]

theorem block?_withEdge :
    (graph.withEdge source target).block? node = (graph.block? node).map fun block =>
      ⟨block.data, if source = node then block.successors.push target else block.successors,
        if target = node then block.predecessors.push source else block.predecessors⟩ := by
  have sameIndex (other : Node) : other.index = node.index ↔ other = node := by
    rcases other with ⟨index⟩
    rcases node with ⟨nodeIndex⟩
    simp
  rw [withEdge, block?, Array.getElem?_modify, Array.getElem?_modify, block?]
  simp only [sameIndex]
  cases graph.blocks[node.index]? with
  | none => simp
  | some block =>
      by_cases outgoing : source = node <;> by_cases incoming : target = node <;>
        simp [outgoing, incoming, Block.addSuccessor, Block.addPredecessor]

/-! ### The invariant -/

theorem records_empty : Records (empty : BlockGraph α) [] where
  edgeCount_eq := rfl
  contains_ends _ _ member := absurd member List.not_mem_nil
  successors_eq _ _ found := by simp [empty, block?] at found
  predecessors_eq _ _ found := by simp [empty, block?] at found
  contains_entry _ designated := by simp [empty] at designated

namespace Records

variable (records : Records graph edges)
include records

theorem lt_nodeCount (member : (source, target) ∈ edges) :
    source.index < graph.nodeCount ∧ target.index < graph.nodeCount := by
  obtain ⟨sourceInside, targetInside⟩ := records.contains_ends source target member
  exact ⟨contains_iff.mp sourceInside, contains_iff.mp targetInside⟩

theorem addNode (data : α) : Records (graph.addNode data).2 edges := by
  have stays {node : Node} (inside : node.index < graph.nodeCount) :
      (graph.addNode data).2.contains node = true := by
    rw [contains_iff, nodeCount_addNode]
    omega
  refine
    { edgeCount_eq := records.edgeCount_eq
      contains_ends := ?_
      successors_eq := ?_
      predecessors_eq := ?_
      contains_entry := ?_ }
  · intro source target member
    obtain ⟨sourceInside, targetInside⟩ := records.lt_nodeCount member
    exact ⟨stays sourceInside, stays targetInside⟩
  · intro node block found
    rw [block?_addNode] at found
    split at found
    · next fresh =>
        cases found
        have none : targetsFrom edges node = [] := by
          rw [List.eq_nil_iff_forall_not_mem]
          intro target member
          have := (records.lt_nodeCount (mem_targetsFrom_iff.mp member)).1
          omega
        rw [none]
        rfl
    · exact records.successors_eq node block found
  · intro node block found
    rw [block?_addNode] at found
    split at found
    · next fresh =>
        cases found
        have none : sourcesTo edges node = [] := by
          rw [List.eq_nil_iff_forall_not_mem]
          intro source member
          have := (records.lt_nodeCount (mem_sourcesTo_iff.mp member)).2
          omega
        rw [none]
        rfl
    · exact records.predecessors_eq node block found
  · intro node designated
    exact stays (contains_iff.mp (records.contains_entry node designated))

theorem withEdge (sourceInside : source.index < graph.nodeCount)
    (targetInside : target.index < graph.nodeCount) :
    Records (graph.withEdge source target) (edges ++ [(source, target)]) := by
  have stays {node : Node} (inside : node.index < graph.nodeCount) :
      (graph.withEdge source target).contains node = true := by
    rw [contains_iff, nodeCount_withEdge]
    exact inside
  refine
    { edgeCount_eq := ?_
      contains_ends := ?_
      successors_eq := ?_
      predecessors_eq := ?_
      contains_entry := ?_ }
  · rw [BlockGraph.withEdge, records.edgeCount_eq, List.length_append]
    rfl
  · intro other otherTarget member
    rcases List.mem_append.mp member with old | new
    · obtain ⟨otherInside, otherTargetInside⟩ := records.lt_nodeCount old
      exact ⟨stays otherInside, stays otherTargetInside⟩
    · cases List.mem_singleton.mp new
      exact ⟨stays sourceInside, stays targetInside⟩
  · intro node block found
    rw [block?_withEdge] at found
    obtain ⟨before, read, rfl⟩ := Option.map_eq_some_iff.mp found
    rw [targetsFrom_concat, ← records.successors_eq node before read]
    by_cases outgoing : source = node <;> simp [outgoing]
  · intro node block found
    rw [block?_withEdge] at found
    obtain ⟨before, read, rfl⟩ := Option.map_eq_some_iff.mp found
    rw [sourcesTo_concat, ← records.predecessors_eq node before read]
    by_cases incoming : target = node <;> simp [incoming]
  · intro node designated
    exact stays (contains_iff.mp (records.contains_entry node designated))

theorem setEntry (inside : node.index < graph.nodeCount) :
    Records { graph with entry := some node } edges where
  edgeCount_eq := records.edgeCount_eq
  contains_ends := records.contains_ends
  successors_eq := records.successors_eq
  predecessors_eq := records.predecessors_eq
  contains_entry other designated := by
    cases designated
    exact contains_iff.mpr inside

theorem mapData (changed : Node) (change : α → α) :
    Records (graph.mapData changed change) edges := by
  have block {node : Node} {block : Block α}
      (found : (graph.mapData changed change).block? node = some block) :
      ∃ before, graph.block? node = some before ∧ block.successors = before.successors ∧
        block.predecessors = before.predecessors := by
    rw [block?_mapData] at found
    split at found
    · obtain ⟨before, read, rfl⟩ := Option.map_eq_some_iff.mp found
      exact ⟨before, read, rfl, rfl⟩
    · exact ⟨block, found, rfl, rfl⟩
  have stays {node : Node} (inside : graph.contains node = true) :
      (graph.mapData changed change).contains node = true := by
    rwa [contains_iff, nodeCount_mapData, ← contains_iff]
  refine
    { edgeCount_eq := records.edgeCount_eq
      contains_ends := ?_
      successors_eq := ?_
      predecessors_eq := ?_
      contains_entry := ?_ }
  · intro source target member
    obtain ⟨sourceInside, targetInside⟩ := records.contains_ends source target member
    exact ⟨stays sourceInside, stays targetInside⟩
  · intro node after found
    obtain ⟨before, read, same, -⟩ := block found
    rw [same, records.successors_eq node before read]
  · intro node after found
    obtain ⟨before, read, -, same⟩ := block found
    rw [same, records.predecessors_eq node before read]
  · intro node designated
    exact stays (records.contains_entry node designated)

end Records

namespace Command

variable {command : Command α} {left : BlockGraph α} {fault : Fault}

/-- A refused command leaves the graph as it was. -/
theorem graph_of_refused (ran : command.run graph = ⟨left, .error fault⟩) : left = graph := by
  cases command with
  | addNode data => cases ran
  | addEdge source target =>
      rw [run, enterEdge] at ran
      split at ran
      · cases ran
        rfl
      · split at ran
        · cases ran
          rfl
        · cases ran
  | setEntry node =>
      rw [run, designate] at ran
      split at ran
      · cases ran
      · cases ran
        rfl
  | mapData node change => cases ran

theorem apply_of_ok (ran : command.run graph = ⟨changed, .ok ()⟩) :
    command.apply graph = changed := by
  rw [apply, ran]

theorem apply_of_refused (ran : command.run graph = ⟨left, .error fault⟩) :
    command.apply graph = graph := by
  rw [apply, ran]
  exact graph_of_refused ran

end Command

theorem apply_addEdge :
    (Command.addEdge source target).apply graph =
      if source.index < graph.nodeCount ∧ target.index < graph.nodeCount then
        graph.withEdge source target
      else graph := by
  split
  · next inside => exact Command.apply_of_ok (enterEdge_eq_ok_iff.mpr ⟨inside, rfl⟩)
  · next outside =>
      rcases ran : (Command.addEdge source target).run graph with ⟨left, fault | ⟨⟩⟩
      · exact Command.apply_of_refused ran
      · exact absurd (enterEdge_eq_ok_iff.mp ran).1 outside

theorem apply_setEntry :
    (Command.setEntry node).apply graph =
      if node.index < graph.nodeCount then { graph with entry := some node } else graph := by
  split
  · next inside => exact Command.apply_of_ok (designate_eq_ok_iff.mpr ⟨inside, rfl⟩)
  · next outside =>
      rcases ran : (Command.setEntry node).run graph with ⟨left, fault | ⟨⟩⟩
      · exact Command.apply_of_refused ran
      · exact absurd (designate_eq_ok_iff.mp ran).1 outside

theorem Records.replay (records : Records graph edges) (history : List (Command α)) :
    Records (Command.replay graph history)
      (edges ++ Command.enteredEdges graph.nodeCount history) := by
  induction history generalizing graph edges with
  | nil =>
      rw [Command.replay_nil, Command.enteredEdges, List.append_nil]
      exact records
  | cons command rest inductionHypothesis =>
      rw [Command.replay_cons]
      cases command with
      | addNode data =>
          have further := inductionHypothesis (records.addNode data)
          rwa [nodeCount_addNode] at further
      | addEdge source target =>
          rw [apply_addEdge, Command.enteredEdges]
          split
          · next inside =>
              have further := inductionHypothesis (records.withEdge inside.1 inside.2)
              rwa [nodeCount_withEdge, List.append_assoc] at further
          · exact inductionHypothesis records
      | setEntry node =>
          rw [apply_setEntry, Command.enteredEdges]
          split
          · next inside => exact inductionHypothesis (records.setEntry inside)
          · exact inductionHypothesis records
      | mapData node change =>
          have further := inductionHypothesis (records.mapData node change)
          rwa [nodeCount_mapData] at further

theorem records_replay_empty (history : List (Command α)) :
    Records (Command.replay empty history) (Command.enteredEdges 0 history) :=
  records_empty.replay history

/-! ### The graph as an analysis sees it -/

theorem successors_toFlowGraph :
    graph.toFlowGraph.successors node =
      ((graph.block? node).map fun block => block.successors.toList).getD [] := by
  simp [toFlowGraph, FlowGraph.ofAdjacency, block?]

theorem predecessors_toFlowGraph :
    graph.toFlowGraph.predecessors node =
      ((graph.block? node).map fun block => block.predecessors.toList).getD [] := by
  simp [toFlowGraph, FlowGraph.ofAdjacency, block?]

theorem block?_eq_none_iff : graph.block? node = none ↔ graph.contains node = false := by
  simp [block?, contains]

namespace Records

variable (records : Records graph edges)
include records

theorem successors_toFlowGraph_eq :
    graph.toFlowGraph.successors node = targetsFrom edges node := by
  rw [successors_toFlowGraph]
  cases found : graph.block? node with
  | some block => exact records.successors_eq node block found
  | none =>
      have outside := block?_eq_none_iff.mp found
      symm
      rw [Option.map_none, Option.getD_none, List.eq_nil_iff_forall_not_mem]
      intro target member
      rw [(records.contains_ends node target (mem_targetsFrom_iff.mp member)).1] at outside
      cases outside

theorem predecessors_toFlowGraph_eq :
    graph.toFlowGraph.predecessors node = sourcesTo edges node := by
  rw [predecessors_toFlowGraph]
  cases found : graph.block? node with
  | some block => exact records.predecessors_eq node block found
  | none =>
      have outside := block?_eq_none_iff.mp found
      symm
      rw [Option.map_none, Option.getD_none, List.eq_nil_iff_forall_not_mem]
      intro source member
      rw [(records.contains_ends source node (mem_sourcesTo_iff.mp member)).2] at outside
      cases outside

/-- A graph that records its edges and has an entry is consistent. -/
theorem consistent {entry : Node} (designated : graph.entry = some entry) :
    graph.toFlowGraph.Consistent entry where
  contains_entry := records.contains_entry entry designated
  contains_successor source target _ edge := by
    rw [records.successors_toFlowGraph_eq, mem_targetsFrom_iff] at edge
    exact (records.contains_ends source target edge).2
  mem_predecessors_iff source target _ _ := by
    rw [records.successors_toFlowGraph_eq, records.predecessors_toFlowGraph_eq,
      mem_targetsFrom_iff, mem_sourcesTo_iff]

end Records

/-- A graph with a circle of two nodes that can both be entered from outside it, so that
neither of them dominates the other. -/
def crossing : BlockGraph Unit :=
  Command.replay .empty
    [.addNode (), .addNode (), .addNode (), .addEdge ⟨0⟩ ⟨1⟩, .addEdge ⟨0⟩ ⟨2⟩,
      .addEdge ⟨1⟩ ⟨2⟩, .addEdge ⟨2⟩ ⟨1⟩, .setEntry ⟨0⟩]

theorem consistent_crossing : crossing.toFlowGraph.Consistent ⟨0⟩ :=
  (records_replay_empty _).consistent rfl

end BlockGraph

end FlowDominance
