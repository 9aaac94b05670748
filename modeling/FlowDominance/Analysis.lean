import FlowDominance.DominatorTree
import FlowDominance.ImmediateDominator
import FlowDominance.Numbering.Check
import FlowDominance.Options
import FlowDominance.Semidominator

/-!
# Dominance analysis of a flow graph

A node dominates another if every path from the entry to the other leads through it.
`FlowGraph.analyse` numbers the nodes reachable from the entry, finds their
semidominators and then their immediate dominators, and returns the three tables as an
`Analysis`.  It notes its progress on the way, and it fails with the first fault it
meets, whatever the graph.
-/

namespace FlowDominance

/-- The result of analysing a flow graph. -/
structure Analysis where
  numbering : Numbering
  /-- The semidominator of each node; the entry and the unreachable nodes stand for
  themselves. -/
  semi : NodeMap Node
  idom : NodeMap (Option Node)
  deriving DecidableEq

namespace Analysis

def entry (analysis : Analysis) : Except Fault Node :=
  match analysis.numbering.root? with
  | some entry => .ok entry
  | none => .error (.outOfBounds 0 0)

def visited (analysis : Analysis) : List Node :=
  analysis.numbering.order.toList

def contains (analysis : Analysis) (node : Node) : Bool :=
  analysis.numbering.contains node

/-- The semidominator of `node`; neither the entry nor an unreachable node has one. -/
def semidominator? (analysis : Analysis) (node : Node) : Except Fault (Option Node) := do
  let entry ← analysis.entry
  if node = entry || !analysis.contains node then return none
  return analysis.semi.find? node

def idom? (analysis : Analysis) (node : Node) : Option Node :=
  (analysis.idom.find? node).join

def unreachable (analysis : Analysis) : List Node :=
  analysis.numbering.undiscovered

/-- The edges from semidominators to the nodes below them, in the order in which the
latter were discovered. -/
def semidominatorEdges (analysis : Analysis) : Except Fault (List (Node × Node)) :=
  analysis.numbering.belowRoot.mapM fun node =>
    (analysis.semi.read node).map fun semidominator => (semidominator, node)

def tree (analysis : Analysis) : Except Fault DominatorTree :=
  DominatorTree.build analysis.numbering analysis.idom

/-- Checks that the semidominator and the immediate dominator of the node at a position
of the order were discovered before it. -/
def checkPlaced (analysis : Analysis) : Node × Nat → Except Fault Unit
  | (node, position) => do
      let semidominator ← analysis.semi.read node
      unless analysis.numbering.precedes semidominator position do
        throw (.inconsistent (.lateSemidominator node semidominator))
      match analysis.idom? node with
      | none => throw (.inconsistent (.missingDominator node))
      | some dominator =>
          unless analysis.numbering.precedes dominator position do
            throw (.inconsistent (.lateDominator node dominator))

/-- Checks every reachable node but the entry, in the order of discovery, and then that
the immediate dominators form a tree. -/
def check (analysis : Analysis) : Except Fault Unit := do
  analysis.numbering.placedBelowRoot.forM analysis.checkPlaced
  let tree ← analysis.tree
  tree.check

end Analysis

namespace FlowGraph

def analyse (graph : FlowGraph) (options : Options) : Traced Analysis := do
  let entry ← graph.usableEntry
  if options.refuses graph.nodeCount then
    Traced.note (.refused graph.nodeCount options.nodeLimit)
    Traced.ofExcept (.error (.tooLarge graph.nodeCount options.nodeLimit))
  let numbering ← graph.number entry
  if options.checksNumbering then
    numbering.check entry
  Traced.note (.numbered numbering.size graph.nodeCount entry)
  let semi ← semidominators graph numbering
  let relatives ← relativeDominators numbering semi
  let idom ← immediateDominators numbering semi relatives
  let analysis : Analysis := ⟨numbering, semi, idom⟩
  if options.checksTree then
    analysis.check
  Traced.note (.completed numbering.size)
  return analysis

/-- The analyses of several graphs, each a run by itself: a graph that fails does not affect
the others.  The runs go on side by side, so their records are kept apart, and in no order
with each other. -/
def runEach (graphs : List FlowGraph) (options : Options) : Traced (List (Traced Analysis)) := do
  Traced.note (.batch graphs.length)
  return graphs.map fun graph => graph.analyse options

/-- Analyses several graphs, for whoever needs no records but that of the whole batch. -/
def analyseAll (graphs : List FlowGraph) (options : Options) :
    Traced (List (Except Fault Analysis)) := do
  let runs ← runEach graphs options
  return runs.map Traced.outcome

end FlowGraph

end FlowDominance
