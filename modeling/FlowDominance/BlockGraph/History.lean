import FlowDominance.BlockGraph

/-!
# The history of a growing graph

Every `BlockGraph` comes about by a sequence of commands.  A command that names a node
the graph does not own is refused and leaves the graph as it was.  `Command.replay` runs
a whole history, and the two functions after it read off a history, without building
adjacency, which edges were entered and which entry was designated last.
-/

namespace FlowDominance

namespace BlockGraph

variable {α : Type}

/-- One command to a growing graph. -/
inductive Command (α : Type) where
  | addNode (data : α)
  | addEdge (source target : Node)
  | setEntry (node : Node)
  | mapData (node : Node) (change : α → α)

namespace Command

def run (graph : BlockGraph α) : Command α → Attempt α
  | addNode data => ⟨(graph.addNode data).2, .ok ()⟩
  | addEdge source target => graph.enterEdge source target
  | setEntry node => graph.designate node
  | mapData node change => ⟨graph.mapData node change, .ok ()⟩

/-- The graph that a command leaves behind, whether or not it was refused. -/
def apply (graph : BlockGraph α) (command : Command α) : BlockGraph α :=
  (command.run graph).graph

def replay (graph : BlockGraph α) (history : List (Command α)) : BlockGraph α :=
  history.foldl apply graph

/-- The edges entered by a history that began with a graph of `count` nodes, oldest
first. -/
def enteredEdges : (count : Nat) → List (Command α) → List (Node × Node)
  | _, [] => []
  | count, addNode _ :: rest => enteredEdges (count + 1) rest
  | count, addEdge source target :: rest =>
      if source.index < count ∧ target.index < count then
        (source, target) :: enteredEdges count rest
      else enteredEdges count rest
  | count, setEntry _ :: rest => enteredEdges count rest
  | count, mapData _ _ :: rest => enteredEdges count rest

/-- The entry designated last by a history that began with a graph of `count` nodes; if it
designates none, that is the one from before. -/
def lastEntry : (count : Nat) → (before : Option Node) → List (Command α) → Option Node
  | _, before, [] => before
  | count, before, addNode _ :: rest => lastEntry (count + 1) before rest
  | count, before, addEdge _ _ :: rest => lastEntry count before rest
  | count, before, setEntry node :: rest =>
      if node.index < count then lastEntry count (some node) rest
      else lastEntry count before rest
  | count, before, mapData _ _ :: rest => lastEntry count before rest

@[simp] theorem replay_nil (graph : BlockGraph α) : replay graph [] = graph :=
  rfl

@[simp] theorem replay_cons (graph : BlockGraph α) (command : Command α)
    (rest : List (Command α)) :
    replay graph (command :: rest) = replay (command.apply graph) rest :=
  rfl

end Command

end BlockGraph

end FlowDominance
