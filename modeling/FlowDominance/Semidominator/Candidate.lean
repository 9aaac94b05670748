import FlowDominance.FlowGraph
import FlowDominance.Numbering

/-!
# Semidominators by definition

This module says which nodes are candidates for the semidominator of a node, and which
candidate is the semidominator, without a search.  The definitions rely only on lists
of predecessors and on positions; they make sense also for a graph whose two directions
of adjacency contradict each other.
-/

namespace FlowDominance

namespace Semidominator

/-- `LeadsTo graph numbering bound source target` says that one can go back from `target`
to `source` in one or more steps from a node to one of its predecessors, so that all
nodes strictly between them were discovered after position `bound`. -/
inductive LeadsTo (graph : FlowGraph) (numbering : Numbering) (bound : Nat) :
    Node → Node → Prop where
  | single {source target : Node} : source ∈ graph.predecessors target →
      LeadsTo graph numbering bound source target
  /-- One step to a node discovered after the bound, and on from there. -/
  | step {source middle target : Node} {position : Nat} :
      middle ∈ graph.predecessors target → numbering.position? middle = some position →
        bound < position → LeadsTo graph numbering bound source middle →
          LeadsTo graph numbering bound source target

/-- A candidate for the semidominator of `target`: a node discovered before it that leads
to it through nodes discovered after it. -/
def Candidate (graph : FlowGraph) (numbering : Numbering) (target source : Node) : Prop :=
  ∃ bound position, numbering.position? target = some bound ∧
    numbering.position? source = some position ∧ position < bound ∧
      LeadsTo graph numbering bound source target

/-- The semidominator of `target`: the candidate that was discovered first. -/
def IsSemidominator (graph : FlowGraph) (numbering : Numbering)
    (target semidominator : Node) : Prop :=
  Candidate graph numbering target semidominator ∧
    ∀ source, Candidate graph numbering target source →
      ∃ first position, numbering.position? semidominator = some first ∧
        numbering.position? source = some position ∧ first ≤ position

end Semidominator

end FlowDominance
