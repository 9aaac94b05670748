import FlowDominance.Numbering

/-!
# Dominator trees

Linking every reachable node to its immediate dominator gives a tree with the entry of
the graph at its root, and one node dominates another exactly if it lies on the way
from the other up to the root.  A `DominatorTree` answers questions about dominance
by going up that way.

A tree is built from any order of nodes and any table of immediate dominators.  If the
table is not that of a tree, going up may end before the entry or lead round in a
circle.  `DominatorTree.check` tells whether it does.  A query that gets into a circle is
broken off, and `DominatorTree.ascend` reports this; its answer has no meaning then.
-/

namespace FlowDominance

/-- The dominator tree of a flow graph. -/
structure DominatorTree where
  entry : Node
  /-- The immediate dominator of each node, if it has one. -/
  idom : NodeMap (Option Node)
  /-- The nodes that each node immediately dominates, in the order of discovery. -/
  children : NodeMap (Array Node)
  order : Array Node
  deriving DecidableEq

namespace DominatorTree

/-- Lists `node` among the children of its immediate dominator, if it has one. -/
def adopt (idom : NodeMap (Option Node)) (children : NodeMap (Array Node)) (node : Node) :
    Except Fault (NodeMap (Array Node)) :=
  match idom.read node with
  | .error fault => .error fault
  | .ok none => .ok children
  | .ok (some parent) => children.update parent (·.push node)

/-- The tree of the numbered nodes with the given immediate dominators. -/
def build (numbering : Numbering) (idom : NodeMap (Option Node)) :
    Except Fault DominatorTree := do
  let children ← numbering.belowRoot.foldlM (adopt idom) (.replicate idom.size #[])
  return {
    entry := numbering.root?.getD ⟨0⟩
    idom := idom
    children := children
    order := numbering.order }

def nodes (tree : DominatorTree) : List Node :=
  tree.order.toList

def size (tree : DominatorTree) : Nat :=
  tree.order.size

def isEmpty (tree : DominatorTree) : Bool :=
  tree.order.isEmpty

@[inline] def idom? (tree : DominatorTree) (node : Node) : Option Node :=
  (tree.idom.find? node).join

/-- The nodes that `node` immediately dominates, in the order of discovery. -/
def childrenOf (tree : DominatorTree) (node : Node) : List Node :=
  ((tree.children.find? node).map Array.toList).getD []

def contains (tree : DominatorTree) (node : Node) : Bool :=
  (node = tree.entry && !tree.isEmpty) || (tree.idom? node).isSome

/-- The edges from immediate dominators to the nodes they dominate, in the order in which
the latter were discovered. -/
def edges (tree : DominatorTree) : List (Node × Node) :=
  tree.nodes.tail.filterMap fun node => (tree.idom? node).map fun parent => (parent, node)

/-- The node above `node` on the way to the entry; the way ends at the entry and at a
node without immediate dominator. -/
@[inline] def above? (tree : DominatorTree) (node : Node) : Option Node :=
  if node = tree.entry then none else tree.idom? node

/-- The number of nodes on the longest way up that does not run in a circle: each node on
the way but the last has a cell in the table of immediate dominators. -/
def reach (tree : DominatorTree) : Nat :=
  tree.idom.size + 1

/-- Goes up from `node` and combines the nodes on the way, `node` included, from the
bottom to the top.  The climb began at `start`; one that has more than `steps` nodes left
runs in a circle, and the report comes with what has been combined. -/
def climb {α : Type} (tree : DominatorTree) (combine : α → Node → α) (start : Node) :
    (steps : Nat) → Node → α → α × Except Fault Unit
  | 0, _, result => (result, .error (.endlessWalk start))
  | steps + 1, node, result =>
      match tree.above? node with
      | none => (combine result node, .ok ())
      | some parent => climb tree combine start steps parent (combine result node)

/-- The nodes passed on the way up from `node`, itself included, and how the way ended. -/
def ascend (tree : DominatorTree) (node : Node) : List Node × Except Fault Unit :=
  if tree.contains node then
    (tree.climb (fun passed current => current :: passed) node tree.reach node []).map
      List.reverse id
  else ([], .ok ())

/-- The dominators of `node`, from itself up to the entry.  A node outside the tree has
none. -/
def dominators (tree : DominatorTree) (node : Node) : List Node :=
  (tree.ascend node).1

/-- The number of edges between `node` and the entry, for a node of the tree. -/
def depth? (tree : DominatorTree) (node : Node) : Option Nat :=
  if tree.contains node then
    match tree.climb (fun passed _ => passed + 1) node tree.reach node 0 with
    | (passed, .ok ()) => some (passed - 1)
    | (_, .error _) => none
  else none

/-- Whether `upper` dominates `lower`.  Every node of the tree dominates itself; a node
outside the tree dominates nothing and is dominated by nothing. -/
def dominates (tree : DominatorTree) (upper lower : Node) : Bool :=
  tree.contains upper && tree.contains lower && (tree.dominators lower).contains upper

def strictlyDominates (tree : DominatorTree) (upper lower : Node) : Bool :=
  upper ≠ lower && tree.dominates upper lower

/-- Checks that going up from `current` leads to the entry in at most `steps` steps.  The
walk began at `start`, with as many steps to spare as the tree has nodes. -/
def checkWalk (tree : DominatorTree) (start : Node) :
    (steps : Nat) → (current : Node) → Except Fault Unit
  | steps, current =>
      if current = tree.entry then .ok ()
      else
        match tree.idom? current with
        | none => .error (.inconsistent (.brokenWalk start current))
        | some parent =>
            match steps with
            | 0 => .error (.inconsistent (.overlongWalk start tree.size))
            | steps + 1 => checkWalk tree start steps parent

/-- Checks that going up from every node of the tree leads to the entry.  The first node
in the order of discovery for which it does not is reported. -/
def check (tree : DominatorTree) : Except Fault Unit :=
  tree.nodes.forM fun node => tree.checkWalk node tree.size node

end DominatorTree

end FlowDominance
