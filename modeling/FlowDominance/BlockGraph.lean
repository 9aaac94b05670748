import FlowDominance.FlowGraph

/-!
# Flow graphs that are built step by step

A `BlockGraph α` grows by nodes that carry a value of type `α` (a basic block, a
label) and by edges between nodes it already has.  Every edge is entered at both of
its ends at once, so the two directions of adjacency cannot contradict each other:
`BlockGraph.toFlowGraph` shows an analysis only consistent graphs.

Edges may be repeated and may lead from a node to itself.  Each end keeps its edges
in the order in which they were added.
-/

namespace FlowDominance

/-- A node of a growing graph, with the value it carries and its edges. -/
structure Block (α : Type) where
  data : α
  /-- The targets of the edges out of the node, oldest first. -/
  successors : Array Node
  /-- The sources of the edges into the node, oldest first. -/
  predecessors : Array Node
  deriving DecidableEq

namespace Block

variable {α : Type}

def isolated (data : α) : Block α :=
  ⟨data, #[], #[]⟩

def addSuccessor (target : Node) : Block α → Block α
  | ⟨data, successors, predecessors⟩ => ⟨data, successors.push target, predecessors⟩

def addPredecessor (source : Node) : Block α → Block α
  | ⟨data, successors, predecessors⟩ => ⟨data, successors, predecessors.push source⟩

def mapData (change : α → α) : Block α → Block α
  | ⟨data, successors, predecessors⟩ => ⟨change data, successors, predecessors⟩

end Block

/-- A directed graph built from nodes that carry values. -/
structure BlockGraph (α : Type) where
  blocks : Array (Block α)
  /-- The number of edges, repeated edges counted as often as they were added. -/
  edgeCount : Nat
  entry : Option Node
  deriving DecidableEq

namespace BlockGraph

variable {α : Type}

def empty : BlockGraph α :=
  ⟨#[], 0, none⟩

/-- The graph of `count` nodes that all carry `data`, without edges or entry. -/
def discrete (count : Nat) (data : α) : BlockGraph α :=
  ⟨Array.replicate count (Block.isolated data), 0, none⟩

def nodeCount (graph : BlockGraph α) : Nat :=
  graph.blocks.size

def isEmpty (graph : BlockGraph α) : Bool :=
  graph.blocks.isEmpty

def contains (graph : BlockGraph α) (node : Node) : Bool :=
  node.index < graph.blocks.size

def nodes (graph : BlockGraph α) : List Node :=
  Node.below graph.nodeCount

def block? (graph : BlockGraph α) (node : Node) : Option (Block α) :=
  graph.blocks[node.index]?

/-- The block of a node that the graph owns. -/
def block (graph : BlockGraph α) (node : Node) : Except Fault (Block α) :=
  if bound : node.index < graph.blocks.size then .ok graph.blocks[node.index]
  else .error (.outOfBounds graph.blocks.size node.index)

def data? (graph : BlockGraph α) (node : Node) : Option α :=
  (graph.block? node).map Block.data

def labelledNodes (graph : BlockGraph α) : List (Node × α) :=
  graph.blocks.toList.zipIdx.map fun (block, index) => (⟨index⟩, block.data)

/-- The edges, grouped by their sources in ascending order; the edges out of one node
come oldest first. -/
def edges (graph : BlockGraph α) : List (Node × Node) :=
  graph.blocks.toList.zipIdx.flatMap fun (block, index) =>
    block.successors.toList.map fun target => (⟨index⟩, target)

/-- The successors of a node that the graph owns, oldest edge first. -/
def successors (graph : BlockGraph α) (node : Node) : Except Fault (List Node) :=
  (graph.block node).map fun block => block.successors.toList

def predecessors (graph : BlockGraph α) (node : Node) : Except Fault (List Node) :=
  (graph.block node).map fun block => block.predecessors.toList

def outDegree (graph : BlockGraph α) (node : Node) : Except Fault Nat :=
  (graph.block node).map fun block => block.successors.size

def inDegree (graph : BlockGraph α) (node : Node) : Except Fault Nat :=
  (graph.block node).map fun block => block.predecessors.size

/-- Adds a node that carries `data`, and tells which node it became. -/
def addNode (graph : BlockGraph α) (data : α) : Node × BlockGraph α :=
  match graph with
  | ⟨blocks, edgeCount, entry⟩ =>
      (⟨blocks.size⟩, ⟨blocks.push (Block.isolated data), edgeCount, entry⟩)

/-- What comes of a call that may be refused: the graph it leaves behind, and how it ended. -/
structure Attempt (α : Type) where
  graph : BlockGraph α
  outcome : Except Fault Unit

/-- The graph left behind by a call, unless the call was refused. -/
def Attempt.result : Attempt α → Except Fault (BlockGraph α)
  | ⟨graph, .ok ()⟩ => .ok graph
  | ⟨_, .error fault⟩ => .error fault

/-- Enters an edge at both of its ends.  They must be nodes of the graph; the source is looked
at first. -/
def enterEdge (graph : BlockGraph α) (source target : Node) : Attempt α :=
  if !graph.contains source then ⟨graph, .error (.unknownNode source graph.nodeCount)⟩
  else if !graph.contains target then ⟨graph, .error (.unknownNode target graph.nodeCount)⟩
  else
    match graph with
    | ⟨blocks, edgeCount, entry⟩ =>
        { graph :=
            { blocks :=
                (blocks.modify source.index (Block.addSuccessor target)).modify target.index
                  (Block.addPredecessor source)
              edgeCount := edgeCount + 1
              entry := entry }
          outcome := .ok () }

/-- The graph with an edge added, unless the edge is refused. -/
def addEdge (graph : BlockGraph α) (source target : Node) : Except Fault (BlockGraph α) :=
  (graph.enterEdge source target).result

/-- Adds edges from left to right, up to the first that cannot be added. -/
def addEdges (graph : BlockGraph α) (edges : List (Node × Node)) :
    Except Fault (BlockGraph α) :=
  edges.foldlM (fun graph (source, target) => graph.addEdge source target) graph

/-- Designates a node of the graph as its entry. -/
def designate (graph : BlockGraph α) (node : Node) : Attempt α :=
  if graph.contains node then ⟨{ graph with entry := some node }, .ok ()⟩
  else ⟨graph, .error (.unknownNode node graph.nodeCount)⟩

def setEntry (graph : BlockGraph α) (node : Node) : Except Fault (BlockGraph α) :=
  (graph.designate node).result

/-- Changes the value that a node carries.  A node the graph does not own carries none,
so nothing changes for it. -/
def mapData (graph : BlockGraph α) (node : Node) (change : α → α) : BlockGraph α :=
  match graph with
  | ⟨blocks, edgeCount, entry⟩ =>
      ⟨blocks.modify node.index (Block.mapData change), edgeCount, entry⟩

/-- The graph with `count` bare nodes and the given edges, entered at its first node
if it has one. -/
def ofEdges (count : Nat) (edges : List (Node × Node)) : Except Fault (BlockGraph Unit) := do
  let graph ← (discrete count ()).addEdges edges
  if count = 0 then return graph else graph.setEntry ⟨0⟩

/-- The graph as an analysis sees it. -/
def toFlowGraph (graph : BlockGraph α) : FlowGraph :=
  .ofAdjacency graph.nodeCount graph.entry
    (graph.blocks.map fun block => block.successors.toList)
    (graph.blocks.map fun block => block.predecessors.toList)

end BlockGraph

end FlowDominance
