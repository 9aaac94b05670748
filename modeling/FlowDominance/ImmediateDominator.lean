import FlowDominance.Numbering
import FlowDominance.Trace

/-!
# Immediate dominators from semidominators

Consider the path of the depth-first tree from the semidominator of a node down to
the node, without its two ends.  If no semidominator of a node on that path was
discovered before the semidominator of the node itself, then the semidominator is the
immediate dominator.  Otherwise the node has the same immediate dominator as its
relative dominator, the node on the path whose semidominator was discovered first.

`relativeDominators` goes up the tree from every node and finds the relative
dominators.  `immediateDominators` then settles the nodes in the order of discovery.
A relative dominator lies above its node in the tree, so its immediate dominator is
known by the time it is needed.

Both work on any table of semidominators and report what they cannot use.
-/

namespace FlowDominance

namespace RelativeDominator

/-- The position of a semidominator, which must have been discovered. -/
def positionOf (numbering : Numbering) (semidominator : Node) : Except Fault Nat :=
  match numbering.position? semidominator with
  | some position => .ok position
  | none => .error (.inconsistent (.unnumberedSemidominator semidominator))

/-- Goes up the tree from `walk` to the semidominator of `node`.  Among the nodes passed
whose semidominators were discovered before position `least`, it yields the one whose
semidominator was discovered first, and of several such nodes the lowest; `best` is
that node for the part of the way already covered.

The tree has fewer levels than it has nodes; a walk of more than `steps` further nodes
runs in a circle. -/
def climb (numbering : Numbering) (semi : NodeMap Node) (node semidominator : Node) :
    (steps : Nat) → (walk : Option Node) → (least : Nat) → (best : Option Node) →
      Except Fault (Option Node)
  | _, none, _, _ => .error (.inconsistent (.strayedSemidominator semidominator node))
  | 0, some _, _, _ => .error (.endlessWalk node)
  | steps + 1, some current, least, best =>
      if current = semidominator then .ok best
      else do
        let position ← positionOf numbering (← semi.read current)
        if position < least then
          climb numbering semi node semidominator steps (numbering.parent? current)
            position (some current)
        else
          climb numbering semi node semidominator steps (numbering.parent? current)
            least best

def find (numbering : Numbering) (semi : NodeMap Node) (node : Node) :
    Except Fault (Option Node) := do
  let semidominator ← semi.read node
  let position ← positionOf numbering semidominator
  climb numbering semi node semidominator (numbering.nodeCount + 1)
    (numbering.parent? node) position none

def settle (numbering : Numbering) (semi : NodeMap Node)
    (relatives : NodeMap (Option Node)) (node : Node) :
    Except Fault (NodeMap (Option Node)) :=
  match find numbering semi node with
  | .error fault => .error fault
  | .ok relative => relatives.write node relative

end RelativeDominator

/-- For every discovered node but the first, its relative dominator if it has one. -/
def relativeDominators (numbering : Numbering) (semi : NodeMap Node) :
    Except Fault (NodeMap (Option Node)) :=
  numbering.belowRoot.foldlM (RelativeDominator.settle numbering semi)
    (.replicate numbering.nodeCount none)

namespace ImmediateDominator

/-- The immediate dominator of one node: that of its relative dominator, which must be
known, or else its semidominator. -/
def find (semi : NodeMap Node) (relatives idom : NodeMap (Option Node)) (node : Node) :
    Except Fault Node := do
  match ← relatives.read node with
  | none => semi.read node
  | some relative =>
      match ← idom.read relative with
      | some dominator => return dominator
      | none => throw (.inconsistent (.unresolvedDominator relative node))

def settle (semi : NodeMap Node) (relatives idom : NodeMap (Option Node)) (node : Node) :
    Except Fault (NodeMap (Option Node) × Record) :=
  match find semi relatives idom node with
  | .error fault => .error fault
  | .ok dominator =>
      match idom.write node (some dominator) with
      | .error fault => .error fault
      | .ok idom => .ok (idom, .immediateDominator node dominator)

end ImmediateDominator

/-- The immediate dominator of every discovered node but the first, settled in the order
of discovery. -/
def immediateDominators (numbering : Numbering) (semi : NodeMap Node)
    (relatives : NodeMap (Option Node)) : Traced (NodeMap (Option Node)) :=
  Traced.foldNoting (ImmediateDominator.settle semi relatives) numbering.belowRoot
    (.replicate numbering.nodeCount none) #[]

end FlowDominance
