import FlowDominance.Node

/-!
# What can go wrong in an analysis

A failing computation names its cause.  Every cause is a constructor that carries
the nodes and counts involved; the wording of a report is fixed in one function
for each type, `EntryFault.message`, `Violation.message` and `Fault.message`.
-/

namespace FlowDominance

/-- The parts of an analysis to which an inconsistency can be traced. -/
inductive Stage where
  | numbering
  | semidominators
  | immediateDominators
  | tree
  deriving DecidableEq

def Stage.name : Stage → String
  | .numbering => "dfs-numbering"
  | .semidominators => "semidominators"
  | .immediateDominators => "immediate-dominators"
  | .tree => "dominator-tree"

/-- Why a graph has no node to start from. -/
inductive EntryFault where
  | noNodes
  | undesignated
  | foreign (entry : Node) (nodeCount : Nat)
  /-- A reason in the words of whoever reports it. -/
  | stated (reason : String)
  deriving DecidableEq

def EntryFault.message : EntryFault → String
  | .noNodes => "graph has no nodes"
  | .undesignated => "no entry node designated"
  | .foreign entry nodeCount =>
      s!"entry {entry} is not a member of a graph with {nodeCount} nodes"
  | .stated reason => reason

/-- A law between the tables of an analysis that a check, or a stage that relies
on it, found broken. -/
inductive Violation where
  /-- The start node is not the first node of the order, with position one. -/
  | startNotFirst (start : Node)
  | startHasParent (start : Node)
  /-- The node at a position of the order is not recorded at that position. -/
  | misplaced (node : Node) (position : Nat) (recorded : Option Nat)
  | orphan (node : Node)
  /-- The semidominator of the node is not discovered before the node. -/
  | lateSemidominator (node semidominator : Node)
  /-- A semidominator was never discovered. -/
  | unnumberedSemidominator (semidominator : Node)
  /-- The semidominator of the node is not above it in the depth-first tree. -/
  | strayedSemidominator (semidominator node : Node)
  /-- The node inherits the dominator of one that has none yet. -/
  | unresolvedDominator (source node : Node)
  | missingDominator (node : Node)
  /-- The immediate dominator of the node is not discovered before the node. -/
  | lateDominator (node dominator : Node)
  /-- Going up the tree from `start` ends at a node that is not the entry. -/
  | brokenWalk (start stop : Node)
  /-- Going up the tree from `start` takes more than `limit` steps. -/
  | overlongWalk (start : Node) (limit : Nat)
  /-- A violation in the words of whoever reports it. -/
  | stated (stage : Stage) (message : String)
  deriving DecidableEq

namespace Violation

def stage : Violation → Stage
  | startNotFirst _ => .numbering
  | startHasParent _ => .numbering
  | misplaced _ _ _ => .numbering
  | orphan _ => .numbering
  | lateSemidominator _ _ => .semidominators
  | unnumberedSemidominator _ => .immediateDominators
  | strayedSemidominator _ _ => .immediateDominators
  | unresolvedDominator _ _ => .immediateDominators
  | missingDominator _ => .immediateDominators
  | lateDominator _ _ => .immediateDominators
  | brokenWalk _ _ => .tree
  | overlongWalk _ _ => .tree
  | stated stage _ => stage

/-- A recorded position is shown as `Some(3)`, a missing one as `None`. -/
def recordedText : Option Nat → String
  | none => "None"
  | some position => s!"Some({position})"

def message : Violation → String
  | startNotFirst start => s!"start node {start} does not carry DFS index 1"
  | startHasParent start => s!"start node {start} has a DFS parent"
  | misplaced node position recorded =>
      s!"node {node} at position {position} has index {recordedText recorded}"
  | orphan node => s!"node {node} has no DFS parent discovered before it"
  | lateSemidominator node semidominator =>
      s!"sdom({node}) = {semidominator} does not precede it in DFS order"
  | unnumberedSemidominator semidominator =>
      s!"semidominator {semidominator} was never numbered"
  | strayedSemidominator semidominator node =>
      s!"semidominator {semidominator} of {node} is not a DFS ancestor"
  | unresolvedDominator source node =>
      s!"idom({source}) is needed by {node} before it is resolved"
  | missingDominator node => s!"reachable node {node} has no immediate dominator"
  | lateDominator node dominator =>
      s!"idom({node}) = {dominator} does not precede it in DFS order"
  | brokenWalk start stop => s!"walk from {start} stops at {stop} before the entry"
  | overlongWalk start limit =>
      s!"walk from {start} does not reach the entry within {limit} steps"
  | stated _ message => message

end Violation

/-- The causes for which building a graph or analysing one fails. -/
inductive Fault where
  /-- A node was named that the graph does not own. -/
  | unknownNode (node : Node) (nodeCount : Nat)
  | noEntry (reason : EntryFault)
  | noCandidate (node : Node)
  | tooLarge (nodeCount limit : Nat)
  | inconsistent (violation : Violation)
  /-- A table with `size` cells was asked for the cell at `index`, which it lacks. -/
  | outOfBounds (size index : Nat)
  /-- Going from parent to parent would never end. -/
  | endlessWalk (start : Node)
  deriving DecidableEq

def Fault.message : Fault → String
  | .unknownNode node nodeCount =>
      s!"node {node} is not registered in graph with {nodeCount} nodes"
  | .noEntry reason => s!"graph has no usable entry node - {reason.message}"
  | .noCandidate node => s!"no semidominator candidate found for reachable node {node}"
  | .tooLarge nodeCount limit =>
      s!"graph with {nodeCount} nodes exceeds the configured limit of {limit}"
  | .inconsistent violation =>
      s!"invariant violated during {violation.stage.name}: {violation.message}"
  | .outOfBounds size index =>
      s!"index out of bounds: the len is {size} but the index is {index}"
  | .endlessWalk start => s!"the walk from {start} along parents does not end"

end FlowDominance
