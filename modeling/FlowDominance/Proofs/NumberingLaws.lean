import Mathlib
import FlowDominance.Proofs.DepthFirstSearch

/-!
# What a numbering tells

The traversal that numbers a graph also answers two questions about it.  Which nodes can be
reached: those that were discovered, and removing the others from a program removes dead code
only.  And how the reachable part hangs together: the discovered nodes form a tree in which the
nodes below one node have consecutive positions, and no edge leads from an earlier branch of
the tree to a later one.

Both answers are given for every graph on which the traversal succeeds.  It fails only if it
comes upon a successor that the graph does not own.
-/

namespace FlowDominance

open FlowGraph

theorem Node.getElem?_below {count index : Nat} (inside : index < count) :
    (Node.below count)[index]? = some ⟨index⟩ := by
  simp [Node.below, inside]

namespace Numbering

variable {numbering : Numbering} {start upper node : Node}

@[simp] theorem length_mask (numbering : Numbering) :
    numbering.mask.length = numbering.nodeCount := by
  simp [mask]

theorem mask_empty (nodeCount : Nat) : (empty nodeCount).mask = List.replicate nodeCount false := by
  have nothing : (empty nodeCount).contains = fun _ => false := by
    funext node
    simp [contains]
  simp [mask, nothing]

theorem getElem?_mask_eq_true_iff :
    numbering.mask[node.index]? = some true ↔ numbering.contains node = true := by
  constructor
  · intro marked
    have inside : node.index < numbering.nodeCount := by
      have bound := (List.getElem?_eq_some_iff.mp marked).1
      simpa using bound
    simpa [mask, Node.getElem?_below inside] using marked
  · intro discovered
    have inside := lt_nodeCount_of_contains discovered
    simp [mask, Node.getElem?_below inside, discovered]

/-- Among the nodes below `upper` one comes last. -/
theorem Lawful.exists_lowest (lawful : numbering.Lawful start) (upper : Node) :
    ∃ lowest, numbering.Ancestor upper lowest ∧
      ∀ node, numbering.Ancestor upper node → numbering.rank node ≤ numbering.rank lowest := by
  classical
  let taken : Nat → Prop := fun position =>
    ∃ node, numbering.Ancestor upper node ∧ numbering.rank node = position
  obtain ⟨lowest, below, last⟩ : taken (Nat.findGreatest taken numbering.size) :=
    Nat.findGreatest_spec lawful.rank_le_size ⟨upper, .refl, rfl⟩
  refine ⟨lowest, below, ?_⟩
  intro node other
  rw [last]
  exact Nat.le_findGreatest lawful.rank_le_size ⟨node, other, rfl⟩

/-- Every position up to the number of discovered nodes is taken. -/
theorem Lawful.exists_position? (lawful : numbering.Lawful start) {position : Nat}
    (positive : 0 < position) (bound : position ≤ numbering.size) :
    ∃ node, numbering.position? node = some position := by
  cases position with
  | zero => omega
  | succ index =>
      have inside : index < numbering.order.size := bound
      refine ⟨numbering.order[index], ?_⟩
      rw [← lawful.nodeAt?_eq_some_iff]
      simp [nodeAt?, inside]

end Numbering

namespace FlowGraph

variable {graph : FlowGraph} {start : Node} {numbering : Numbering}

/-! ### What can be reached -/

theorem number_of_foreign (outside : graph.contains start = false) :
    graph.number start = .ok (.empty graph.nodeCount) := by
  simp [number, outside]

theorem reachableMask_of_ok (numbered : graph.number start = .ok numbering) :
    graph.reachableMask start = .ok numbering.mask := by
  rw [reachableMask, numbered]
  rfl

theorem reachableMask_of_error {fault : Fault} (failed : graph.number start = .error fault) :
    graph.reachableMask start = .error fault := by
  rw [reachableMask, failed]
  rfl

/-- A graph can be numbered from one of its nodes unless there is a foreign successor within
reach. -/
theorem exists_number_iff (inside : graph.contains start = true) :
    (∃ numbering, graph.number start = .ok numbering) ↔
      ∀ target, ¬ graph.Dangling start target := by
  constructor
  · rintro ⟨numbering, numbered⟩
    exact (depthFirst_of_number_eq_ok inside numbered).not_dangling
  · intro owned
    rcases number_spec inside with ⟨numbering, numbered, -⟩ | ⟨target, dangling, -⟩
    · exact ⟨numbering, numbered⟩
    · exact absurd dangling (owned target)

theorem dangling_of_number_eq_error (inside : graph.contains start = true) {fault : Fault}
    (failed : graph.number start = .error fault) :
    ∃ target, fault = .unknownNode target graph.nodeCount ∧ graph.Dangling start target := by
  rcases number_spec inside with ⟨numbering, numbered, -⟩ | ⟨target, dangling, ended⟩
  · rw [failed] at numbered
    cases numbered
  · rw [failed] at ended
    cases ended
    exact ⟨target, rfl, dangling⟩

/-- Numbering a graph from one of its nodes tells which nodes can be reached from there: they
are the nodes of the order, and those that the mask marks.  If a foreign node can be reached,
one such node is reported instead, by the mask as by the numbering.  From a start node outside
the graph nothing is reached. -/
theorem number_decides_reachability (graph : FlowGraph) (start : Node) :
    (graph.contains start = true →
      ((∃ numbering, graph.number start = .ok numbering) ↔
        ∀ target, ¬ graph.Dangling start target) ∧
      (∀ numbering, graph.number start = .ok numbering →
        (∀ node, node ∈ numbering.order.toList ↔ graph.Reaches start node) ∧
        ∃ mask, graph.reachableMask start = .ok mask ∧ mask.length = graph.nodeCount ∧
          ∀ node : Node, mask[node.index]? = some true ↔ graph.Reaches start node) ∧
      ∀ fault, graph.number start = .error fault →
        graph.reachableMask start = .error fault ∧
          ∃ target, fault = .unknownNode target graph.nodeCount ∧
            graph.Dangling start target) ∧
    (graph.contains start = false →
      ∃ numbering, graph.number start = .ok numbering ∧ numbering.order = #[] ∧
        graph.reachableMask start = .ok (List.replicate graph.nodeCount false)) := by
  constructor
  · intro inside
    refine ⟨exists_number_iff inside, ?_, ?_⟩
    · intro numbering numbered
      have depthFirst := depthFirst_of_number_eq_ok inside numbered
      have lawful := depthFirst.lawful
      constructor
      · intro node
        rw [lawful.mem_order_iff, depthFirst.rank_pos_iff]
      · refine ⟨numbering.mask, reachableMask_of_ok numbered, ?_, ?_⟩
        · rw [Numbering.length_mask, depthFirst.nodeCount_eq]
        · intro node
          rw [Numbering.getElem?_mask_eq_true_iff, lawful.contains_iff_rank_pos,
            depthFirst.rank_pos_iff]
    · intro fault failed
      exact ⟨reachableMask_of_error failed, dangling_of_number_eq_error inside failed⟩
  · intro outside
    have numbered := number_of_foreign outside
    refine ⟨_, numbered, rfl, ?_⟩
    rw [reachableMask_of_ok numbered, Numbering.mask_empty]

/-- Two branches that meet, with an edge back to the entry, and an unreachable node that has a
foreign successor. -/
def branching : FlowGraph :=
  .ofAdjacency 5 (some ⟨0⟩) #[[⟨1⟩, ⟨2⟩], [⟨3⟩], [⟨3⟩, ⟨1⟩], [⟨0⟩], [⟨3⟩, ⟨9⟩]]
    #[[⟨3⟩], [⟨0⟩, ⟨2⟩], [⟨0⟩], [⟨1⟩, ⟨2⟩, ⟨4⟩], []]

def branchingNumbering : Numbering where
  order := #[⟨0⟩, ⟨1⟩, ⟨3⟩, ⟨2⟩]
  positions := ⟨#[some 1, some 2, some 4, some 3, none]⟩
  parents := ⟨#[none, some ⟨0⟩, some ⟨0⟩, some ⟨1⟩, none]⟩

theorem number_branching : branching.number ⟨0⟩ = .ok branchingNumbering := by
  cbv

/-- In `branching` the node `n4` cannot be reached from the entry, and from `n4` one comes upon
the foreign node. -/
theorem branching_reachability : ¬ branching.Reaches ⟨0⟩ ⟨4⟩ ∧
    branching.Dangling ⟨4⟩ ⟨9⟩ ∧
      branching.reachableMask ⟨4⟩ = .error (.unknownNode ⟨9⟩ 5) ∧
        branching.reachableMask ⟨5⟩ = .ok [false, false, false, false, false] := by
  obtain ⟨-, reached, -⟩ := (number_decides_reachability branching ⟨0⟩).1 (by decide)
  obtain ⟨-, -, reported⟩ := (number_decides_reachability branching ⟨4⟩).1 (by decide)
  obtain ⟨-, -, -, nothing⟩ := (number_decides_reachability branching ⟨5⟩).2 (by decide)
  have failed : branching.number ⟨4⟩ = .error (.unknownNode ⟨9⟩ 5) := by cbv
  obtain ⟨sameFault, target, named, dangling⟩ := reported _ failed
  cases named
  refine ⟨?_, dangling, sameFault, nothing⟩
  rw [← (reached branchingNumbering number_branching).1]
  decide

/-! ### How it hangs together -/

/-- The nodes below `upper` are those discovered from `upper` on, up to a last one. -/
theorem DepthFirst.exists_interval (depthFirst : graph.DepthFirst start numbering) {upper : Node}
    (positive : 0 < numbering.rank upper) :
    ∃ last, numbering.rank upper ≤ last ∧ last ≤ numbering.size ∧
      ∀ node, numbering.Ancestor upper node ↔
        numbering.rank upper ≤ numbering.rank node ∧ numbering.rank node ≤ last := by
  have lawful := depthFirst.lawful
  obtain ⟨lowest, below, last⟩ := lawful.exists_lowest upper
  refine ⟨numbering.rank lowest, lawful.rank_le_of_ancestor below, lawful.rank_le_size, ?_⟩
  intro node
  constructor
  · intro ancestor
    exact ⟨lawful.rank_le_of_ancestor ancestor, last node ancestor⟩
  · rintro ⟨after, before⟩
    exact depthFirst.interval upper node lowest below positive after before

/-- A node is discovered from one of which it is a successor.  An edge to a node discovered
later leads down the tree, so no edge runs from an earlier branch to a later one.  The nodes
below a node are those at the positions of an interval, all of which are taken. -/
theorem number_obeys_edge_law (inside : graph.contains start = true)
    (numbered : graph.number start = .ok numbering) :
    (∀ node parent, numbering.parent? node = some parent → graph.Edge parent node) ∧
    (∀ source target, numbering.contains source = true → target ∈ graph.successors source →
      ∃ first second, numbering.position? source = some first ∧
        numbering.position? target = some second ∧
          (first < second → numbering.Ancestor source target)) ∧
    ∀ upper first, numbering.position? upper = some first →
      ∃ last, first ≤ last ∧
        (∀ node, numbering.Ancestor upper node ↔
          ∃ position ∈ Set.Icc first last, numbering.position? node = some position) ∧
        ∀ position ∈ Set.Icc first last, ∃ node, numbering.position? node = some position := by
  have depthFirst := depthFirst_of_number_eq_ok inside numbered
  have lawful := depthFirst.lawful
  refine ⟨?_, ?_, ?_⟩
  · intro node parent up
    exact ⟨depthFirst.contains_of_rank_pos (lawful.rank_parent_pos up),
      depthFirst.mem_successors_of_parent node parent up⟩
  · intro source target discovered edge
    have sourceKnown := lawful.contains_iff_rank_pos.mp discovered
    have targetKnown := depthFirst.contains_successor source target sourceKnown edge
    exact ⟨_, _, lawful.position?_eq_some_iff.mpr ⟨sourceKnown, rfl⟩,
      lawful.position?_eq_some_iff.mpr ⟨targetKnown, rfl⟩,
      depthFirst.ancestor_of_edge source target sourceKnown edge⟩
  · intro upper first placed
    obtain ⟨positive, rfl⟩ := lawful.position?_eq_some_iff.mp placed
    obtain ⟨last, after, bound, below⟩ := depthFirst.exists_interval positive
    refine ⟨last, after, ?_, ?_⟩
    · intro node
      rw [below]
      constructor
      · rintro ⟨notBefore, notAfter⟩
        have known : 0 < numbering.rank node := by omega
        exact ⟨_, ⟨notBefore, notAfter⟩, lawful.position?_eq_some_iff.mpr ⟨known, rfl⟩⟩
      · rintro ⟨position, ⟨notBefore, notAfter⟩, nodePlaced⟩
        rw [Numbering.rank_of_position? nodePlaced]
        exact ⟨notBefore, notAfter⟩
    · rintro position ⟨notBefore, notAfter⟩
      exact lawful.exists_position? (by omega) (by omega)

/-- In `branching` the nodes below `n1` have the positions two and three.  The edge from `n2` to
one of them leads back to an earlier branch, which is why `n2` need not be above it. -/
theorem branching_edge_law :
    (∀ node, branchingNumbering.Ancestor ⟨1⟩ node ↔
      ∃ position ∈ Set.Icc 2 3, branchingNumbering.position? node = some position) ∧
    ⟨3⟩ ∈ branching.successors ⟨2⟩ ∧ ¬ branchingNumbering.Ancestor ⟨2⟩ ⟨3⟩ := by
  obtain ⟨-, edges, intervals⟩ := number_obeys_edge_law (by decide) number_branching
  obtain ⟨last, -, below, -⟩ := intervals ⟨1⟩ 2 rfl
  obtain ⟨_, -, belowOther, -⟩ := intervals ⟨2⟩ 4 rfl
  have three : branchingNumbering.Ancestor ⟨1⟩ ⟨3⟩ := by
    obtain ⟨first, second, placed, targetPlaced, leads⟩ := edges ⟨1⟩ ⟨3⟩ (by decide) (by decide)
    cases placed
    cases targetPlaced
    exact leads (by decide)
  have notTwo : ¬ branchingNumbering.Ancestor ⟨1⟩ ⟨2⟩ := by
    intro ancestor
    cases ancestor with
    | step up above =>
        cases up
        obtain ⟨position, ⟨after, -⟩, placed⟩ := (below ⟨0⟩).mp above
        cases placed
        omega
  have interval : last = 3 := by
    obtain ⟨position, ⟨-, before⟩, placed⟩ := (below ⟨3⟩).mp three
    cases placed
    by_contra longer
    exact notTwo ((below ⟨2⟩).mpr ⟨4, ⟨by omega, by omega⟩, rfl⟩)
  refine ⟨interval ▸ below, by decide, ?_⟩
  intro ancestor
  obtain ⟨position, ⟨after, -⟩, placed⟩ := (belowOther ⟨3⟩).mp ancestor
  cases placed
  omega

end FlowGraph

end FlowDominance
