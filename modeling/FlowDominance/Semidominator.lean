import FlowDominance.Numbering.Discovery
import FlowDominance.StampSet
import FlowDominance.Trace

/-!
# Semidominators

A candidate for a node is a node discovered before it from which a path leads to it
that otherwise visits only nodes discovered after it.  The semidominator of the node
is the candidate discovered first.

`Semidominator.search` finds it by going backwards from the node.  The search passes
through nodes discovered after the target and stops at nodes discovered before it,
which are the candidates.  Undiscovered predecessors lie on no path from the start
and are ignored.  The nodes seen by a search are kept in a `StampSet` that is handed
on to the next search, which empties it first.
-/

namespace FlowDominance

namespace Semidominator

/-- The better of a candidate and the best one so far: the one discovered first, and
the earlier find if both are the same. -/
def better (node : Node) (position : Nat) : Option (Node × Nat) → Node × Nat
  | none => (node, position)
  | some best => if position < best.2 then (node, position) else best

/-- Goes on with a search for candidates discovered before position `bound`.  Left to
do are the predecessors in `pending` and then those of the nodes in `stack`; `best` is
the best candidate so far. -/
def sweep (graph : FlowGraph) (numbering : Numbering) (bound : Nat)
    (pending stack : List Node) (best : Option (Node × Nat)) (seen : StampSet) :
    Except Fault (Option Node × StampSet) :=
  match pending with
  | node :: pending =>
      match numbering.position? node with
      | none => sweep graph numbering bound pending stack best seen
      | some position =>
          if _ : seen.contains node then
            sweep graph numbering bound pending stack best seen
          else
            match _ : seen.insert node with
            | .error fault => .error fault
            | .ok seen =>
                if position < bound then
                  sweep graph numbering bound pending stack
                    (some (better node position best)) seen
                else sweep graph numbering bound pending (node :: stack) best seen
  | [] =>
      match stack with
      | [] => .ok (best.map Prod.fst, seen)
      | node :: stack =>
          match graph.predecessorsOf node with
          | .error fault => .error fault
          | .ok predecessors =>
              sweep graph numbering bound predecessors stack best seen
  termination_by (seen.vacancy, stack.length, pending.length)
  decreasing_by
    · exact Prod.Lex.right _ (Prod.Lex.right _ (by simp))
    · exact Prod.Lex.right _ (Prod.Lex.right _ (by simp))
    · exact Prod.Lex.left _ _
        (StampSet.vacancy_lt_of_insert (Bool.eq_false_iff.mpr ‹_›) ‹_›)
    · exact Prod.Lex.left _ _
        (StampSet.vacancy_lt_of_insert (Bool.eq_false_iff.mpr ‹_›) ‹_›)
    · exact Prod.Lex.right _ (Prod.Lex.left _ _ (by simp))

/-- The candidate for `target` that was discovered first, if `target` has a candidate.
The position of the target is given along with it. -/
def search (graph : FlowGraph) (numbering : Numbering) (target : Node) (position : Nat)
    (seen : StampSet) : Except Fault (Option Node × StampSet) :=
  match seen.nextRound.insert target with
  | .error fault => .error fault
  | .ok seen => sweep graph numbering position [] [target] none seen

/-- What is handed on from one search to the next. -/
structure Progress where
  /-- The nodes seen by the last search. -/
  seen : StampSet
  /-- The semidominators found so far; every other node stands for itself. -/
  found : NodeMap Node

def Progress.start (nodeCount : Nat) : Progress where
  seen := .fresh nodeCount
  found := .ofFn nodeCount id

/-- Finds the semidominator of one node, which must have a candidate. -/
def settle (graph : FlowGraph) (numbering : Numbering) :
    Progress → Node × Nat → Except Fault (Progress × Record)
  | ⟨seen, found⟩, (node, position) =>
      match search graph numbering node position seen with
      | .error fault => .error fault
      | .ok (none, _) => .error (.noCandidate node)
      | .ok (some semidominator, seen) =>
          match found.write node semidominator with
          | .error fault => .error fault
          | .ok found => .ok (⟨seen, found⟩, .semidominator node semidominator)

end Semidominator

/-- Finds the semidominator of every discovered node but the first, latest discovery
first.  The first node and the undiscovered nodes stand for themselves. -/
def semidominators (graph : FlowGraph) (numbering : Numbering) : Traced (NodeMap Node) := do
  let progress ← Traced.foldNoting (Semidominator.settle graph numbering)
    numbering.placedBelowRoot.reverse (.start numbering.nodeCount) #[]
  return progress.found

end FlowDominance
