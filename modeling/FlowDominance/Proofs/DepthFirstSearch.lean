import FlowDominance.Numbering.Discovery
import FlowDominance.Proofs.PathSurgery
import FlowDominance.Proofs.TreeOrder

/-!
# Depth-first search

A traversal is followed through an invariant on its stack and its numbering.  The frames
of the stack lie on one path of the tree, and whatever was discovered after the node of
a frame lies below that node.  So when an edge out of a frame is looked at, its target is
discovered there and then, or was discovered before the source, or lies below it.

The numbering a traversal ends with is `FlowGraph.DepthFirst`: a lawful numbering of the
reachable nodes in which no edge leads from an earlier subtree to a later one, and in
which the nodes of every subtree have consecutive ranks.
-/

namespace FlowDominance

namespace Numbering

variable {numbering later : Numbering} {start node parent upper lower : Node}

/-! ### One discovery -/

theorem rank_of_discover {entered : Option Node}
    (success : numbering.discover node entered = .ok later) (other : Node) :
    later.rank other = if other = node then numbering.size + 1 else numbering.rank other := by
  rw [rank, position?_of_discover success other]
  split <;> rfl

theorem nodeAt?_of_discover {entered : Option Node}
    (success : numbering.discover node entered = .ok later) (position : Nat) :
    later.nodeAt? position =
      if position = numbering.size + 1 then some node else numbering.nodeAt? position := by
  cases position with
  | zero => simp [nodeAt?]
  | succ index => simp [nodeAt?, order_of_discover success, Array.getElem?_push, size]

theorem exists_discover (sizes : numbering.parents.size = numbering.nodeCount)
    (inside : node.index < numbering.nodeCount) (entered : Option Node) :
    ∃ later, numbering.discover node entered = .ok later := by
  obtain ⟨positions, positionsWritten⟩ :=
    NodeMap.exists_write_of_lt (some (numbering.size + 1)) inside
  obtain ⟨parents, parentsWritten⟩ :=
    NodeMap.exists_write_of_lt entered (sizes ▸ inside : node.index < numbering.parents.size)
  exact ⟨⟨numbering.order.push node, positions, parents⟩,
    discover_eq_ok_iff.mpr ⟨rfl, positionsWritten, parentsWritten⟩⟩

theorem size_parents_of_discover {entered : Option Node}
    (success : numbering.discover node entered = .ok later) :
    later.parents.size = numbering.parents.size :=
  NodeMap.size_of_write (discover_eq_ok_iff.mp success).2.2

theorem rank_of_discover_of_pos {other : Node} {entered : Option Node}
    (success : numbering.discover node entered = .ok later)
    (fresh : numbering.rank node = 0) (positive : 0 < numbering.rank other) :
    later.rank other = numbering.rank other := by
  rw [rank_of_discover success, if_neg]
  rintro rfl
  omega

theorem nodeAt?_empty (nodeCount position : Nat) : (empty nodeCount).nodeAt? position = none := by
  cases position <;> simp [nodeAt?, empty]

theorem lawful_of_discover_start {nodeCount : Nat}
    (success : (empty nodeCount).discover start none = .ok later) : later.Lawful start where
  size_parents := by
    rw [size_parents_of_discover success, nodeCount_of_discover success]
    simp [empty, Numbering.nodeCount]
  nodeAt?_eq_some_iff other position := by
    rw [nodeAt?_of_discover success, position?_of_discover success]
    rw [nodeAt?_empty, position?_empty, size_empty]
    by_cases first : position = 1 <;> by_cases same : start = other <;>
      simp [first, same, @eq_comm _ other start, @eq_comm _ 1 position]
  root?_eq := by
    rw [root?, order_of_discover success]
    simp [empty]
  parent?_start := by
    rw [parent?_of_discover success]
    simp
  rank_parent other entered up := by
    rw [parent?_of_discover success] at up
    split at up <;> simp at up
  exists_parent other positive below := by
    rw [rank_of_discover success, if_neg below] at positive
    simp [rank] at positive

namespace Lawful

variable (lawful : numbering.Lawful start)
  (success : numbering.discover node (some parent) = .ok later)
  (fresh : numbering.rank node = 0)
include lawful success fresh

/-- The discovery of a new node from one that is known keeps a numbering lawful. -/
theorem of_discover (known : 0 < numbering.rank parent) : later.Lawful start where
  size_parents := by
    rw [size_parents_of_discover success, nodeCount_of_discover success]
    exact lawful.size_parents
  nodeAt?_eq_some_iff other position := by
    rw [nodeAt?_of_discover success, position?_of_discover success]
    by_cases last : position = numbering.size + 1
    · have unplaced : numbering.position? other ≠ some position := by
        intro placed
        have := rank_of_position? placed
        have : numbering.rank other ≤ numbering.size := lawful.rank_le_size
        omega
      by_cases same : other = node
      · simp [last, same]
      · simp [last, same, Ne.symm same]
        simpa [last] using unplaced
    · by_cases same : other = node
      · have unplaced : numbering.nodeAt? position ≠ some node := by
          intro found
          have placed := (lawful.nodeAt?_eq_some_iff node position).mp found
          have := rank_of_position? placed
          have := lawful.position_pos placed
          omega
        simp [last, same, unplaced, Ne.symm last]
      · simp [last, same, lawful.nodeAt?_eq_some_iff]
  root?_eq := by
    have first := lawful.root?_eq
    have := (Array.getElem?_eq_some_iff.mp first).1
    rw [root?, order_of_discover success, Array.getElem?_push, if_neg (by omega)]
    exact first
  parent?_start := by
    rw [parent?_of_discover success, if_neg]
    · exact lawful.parent?_start
    · rintro rfl
      have := lawful.rank_start
      omega
  rank_parent other entered up := by
    rw [parent?_of_discover success] at up
    split at up
    · next same =>
        cases up
        rw [rank_of_discover_of_pos success fresh known, same,
          rank_of_discover success, if_pos rfl]
        have : numbering.rank parent ≤ numbering.size := lawful.rank_le_size
        omega
    · next other =>
        have smaller := lawful.rank_parent _ _ up
        rw [rank_of_discover_of_pos success fresh smaller.1,
          rank_of_discover success, if_neg other]
        exact smaller
  exists_parent other positive below := by
    rw [parent?_of_discover success]
    split
    · exact ⟨parent, rfl⟩
    · next apart =>
        rw [rank_of_discover success, if_neg apart] at positive
        exact lawful.exists_parent other positive below

theorem ancestor_of_discover_iff (apart : lower ≠ node) :
    later.Ancestor upper lower ↔ numbering.Ancestor upper lower := by
  constructor
  · intro ancestor
    induction ancestor with
    | refl => exact .refl
    | step up _ inductionHypothesis =>
        rw [parent?_of_discover success, if_neg apart] at up
        refine .step up (inductionHypothesis ?_)
        rintro rfl
        have := lawful.rank_parent_pos up
        omega
  · intro ancestor
    induction ancestor with
    | refl => exact .refl
    | step up _ inductionHypothesis =>
        refine .step ?_ (inductionHypothesis ?_)
        · rw [parent?_of_discover success, if_neg apart]
          exact up
        · rintro rfl
          have := lawful.rank_parent_pos up
          omega

omit fresh in
theorem rank_lt_new {other : Node} (old : other ≠ node) : later.rank other < later.rank node := by
  have : numbering.rank other ≤ numbering.size := lawful.rank_le_size
  rw [rank_of_discover success, rank_of_discover success, if_neg old, if_pos rfl]
  omega

omit fresh in
theorem eq_new_of_rank_le {other : Node} (after : later.rank node ≤ later.rank other) :
    other = node := by
  by_contra old
  have := lawful.rank_lt_new success old
  omega

theorem ancestor_new_iff (known : 0 < numbering.rank parent) :
    later.Ancestor upper node ↔ upper = node ∨ numbering.Ancestor upper parent := by
  have up : later.parent? node = some parent := by
    rw [parent?_of_discover success, if_pos rfl]
  have apart : parent ≠ node := by
    rintro rfl
    omega
  rw [ancestor_iff_of_parent? up, lawful.ancestor_of_discover_iff success fresh apart]

end Lawful

/-! ### The invariant of a traversal -/

/-- What is known of an edge once it has been looked at: its target is discovered, and a
target discovered after the source lies below the source. -/
def Settled (numbering : Numbering) (source target : Node) : Prop :=
  0 < numbering.rank target ∧
    (numbering.rank source < numbering.rank target → numbering.Ancestor source target)

/-- What holds throughout a traversal from `start`, for its stack and its numbering. -/
structure Traversal (graph : FlowGraph) (start : Node) (frames : List Frame)
    (numbering : Numbering) : Prop where
  lawful : numbering.Lawful start
  nodeCount_eq : numbering.nodeCount = graph.nodeCount
  mem_successors_of_parent : ∀ node parent, numbering.parent? node = some parent →
    node ∈ graph.successors parent
  interval : ∀ upper middle lower, numbering.Ancestor upper lower →
    0 < numbering.rank upper → numbering.rank upper ≤ numbering.rank middle →
      numbering.rank middle ≤ numbering.rank lower → numbering.Ancestor upper middle
  nested : frames.Pairwise fun inner outer => numbering.Ancestor outer.node inner.node
  discovered : ∀ frame ∈ frames, 0 < numbering.rank frame.node
  pending_subset : ∀ frame ∈ frames, ∀ target ∈ frame.pending,
    target ∈ graph.successors frame.node
  below_open : ∀ frame ∈ frames, ∀ upper, numbering.Ancestor upper frame.node → ∀ node,
    numbering.rank upper ≤ numbering.rank node → numbering.Ancestor upper node
  settled : ∀ source target, 0 < numbering.rank source → target ∈ graph.successors source →
    numbering.Settled source target ∨
      ∃ frame ∈ frames, frame.node = source ∧ target ∈ frame.pending

namespace Traversal

variable {graph : FlowGraph} {frames outer : List Frame} {next : Node} {pending : List Node}

theorem initial (success : (empty graph.nodeCount).discover start none = .ok later) :
    Traversal graph start [⟨start, graph.successors start⟩] later where
  lawful := lawful_of_discover_start success
  nodeCount_eq := by
    rw [nodeCount_of_discover success, nodeCount_empty]
  mem_successors_of_parent node parent up := by
    rw [parent?_of_discover success] at up
    split at up <;> simp at up
  interval upper middle lower ancestor positive before after := by
    have lawful := lawful_of_discover_start success
    have bound : later.rank lower ≤ 1 := by
      rw [rank_of_discover success]
      split <;> simp [rank]
    have same : upper = middle := lawful.eq_of_rank_eq positive (by omega)
    rw [same]
    exact .refl
  nested := List.pairwise_singleton _ _
  discovered frame member := by
    rw [List.mem_singleton.mp member, rank_of_discover success, if_pos rfl]
    omega
  pending_subset frame member target pending := by
    rw [List.mem_singleton.mp member] at pending ⊢
    exact pending
  below_open frame member upper ancestor node after := by
    rw [List.mem_singleton.mp member] at ancestor
    have lawful := lawful_of_discover_start success
    have root : upper = start := (ancestor_iff.mp ancestor).resolve_right
      (not_properAncestor_of_parent?_eq_none lawful.parent?_start)
    rw [root, lawful.rank_start] at after
    rw [root]
    exact lawful.start_ancestor (by omega)
  settled source target positive edge := by
    refine .inr ⟨_, List.mem_singleton_self _, ?_⟩
    rw [rank_of_discover success] at positive
    split at positive
    · next same =>
        rw [same] at edge ⊢
        exact ⟨rfl, edge⟩
    · simp [rank] at positive

/-- A frame whose edges have all been looked at can be left. -/
theorem pop (invariant : Traversal graph start (⟨node, []⟩ :: outer) numbering) :
    Traversal graph start outer numbering where
  lawful := invariant.lawful
  nodeCount_eq := invariant.nodeCount_eq
  mem_successors_of_parent := invariant.mem_successors_of_parent
  interval := invariant.interval
  nested := (List.pairwise_cons.mp invariant.nested).2
  discovered frame member := invariant.discovered frame (List.mem_cons_of_mem _ member)
  pending_subset frame member := invariant.pending_subset frame (List.mem_cons_of_mem _ member)
  below_open frame member := invariant.below_open frame (List.mem_cons_of_mem _ member)
  settled source target positive edge := by
    rcases invariant.settled source target positive edge with
      done | ⟨frame, member, same, pending⟩
    · exact .inl done
    · rcases List.mem_cons.mp member with rfl | member
      · cases pending
      · exact .inr ⟨frame, member, same, pending⟩

/-- An edge to a discovered node is settled: the target lies below the frame, or was
discovered before the node of the frame. -/
theorem skip (invariant : Traversal graph start (⟨node, next :: pending⟩ :: outer) numbering)
    (known : 0 < numbering.rank next) :
    Traversal graph start (⟨node, pending⟩ :: outer) numbering where
  lawful := invariant.lawful
  nodeCount_eq := invariant.nodeCount_eq
  mem_successors_of_parent := invariant.mem_successors_of_parent
  interval := invariant.interval
  nested := List.pairwise_cons.mpr (List.pairwise_cons.mp invariant.nested)
  discovered := by
    have discovered := invariant.discovered
    rw [List.forall_mem_cons] at discovered ⊢
    exact discovered
  pending_subset := by
    have subset := invariant.pending_subset
    rw [List.forall_mem_cons] at subset ⊢
    exact ⟨fun target member => subset.1 target (List.mem_cons_of_mem _ member), subset.2⟩
  below_open := by
    have below := invariant.below_open
    rw [List.forall_mem_cons] at below ⊢
    exact below
  settled source target positive edge := by
    rcases invariant.settled source target positive edge with
      done | ⟨frame, member, rfl, waiting⟩
    · exact .inl done
    · rcases List.mem_cons.mp member with rfl | member
      · rcases List.mem_cons.mp waiting with rfl | waiting
        · exact .inl ⟨known, fun later =>
            invariant.below_open _ List.mem_cons_self _ .refl target (Nat.le_of_lt later)⟩
        · exact .inr ⟨_, List.mem_cons_self, rfl, waiting⟩
      · exact .inr ⟨frame, List.mem_cons_of_mem _ member, rfl, waiting⟩

section

variable (invariant : Traversal graph start (⟨node, next :: pending⟩ :: outer) numbering)
  (fresh : numbering.rank next = 0) (success : numbering.discover next (some node) = .ok later)
include invariant

theorem rank_node_pos : 0 < numbering.rank node :=
  invariant.discovered _ List.mem_cons_self

theorem frame_above {frame : Frame} (member : frame ∈ (⟨node, pending⟩ : Frame) :: outer) :
    0 < numbering.rank frame.node ∧ numbering.Ancestor frame.node node := by
  rcases List.mem_cons.mp member with rfl | member
  · exact ⟨invariant.rank_node_pos, .refl⟩
  · exact ⟨invariant.discovered frame (List.mem_cons_of_mem _ member),
      (List.pairwise_cons.mp invariant.nested).1 frame member⟩

include fresh success

theorem ancestor_next_iff :
    later.Ancestor upper next ↔ upper = next ∨ numbering.Ancestor upper node :=
  invariant.lawful.ancestor_new_iff success fresh invariant.rank_node_pos

/-- An ancestor of the innermost frame is still above every node discovered after it. -/
theorem below_node_after_enter (above : numbering.Ancestor upper node) (other : Node)
    (after : later.rank upper ≤ later.rank other) : later.Ancestor upper other := by
  have lawful := invariant.lawful
  by_cases new : other = next
  · rw [new, invariant.ancestor_next_iff fresh success]
    exact .inr above
  · have positive := lawful.rank_pos_of_ancestor above invariant.rank_node_pos
    rw [rank_of_discover_of_pos success fresh positive, rank_of_discover success,
      if_neg new] at after
    rw [lawful.ancestor_of_discover_iff success fresh new]
    exact invariant.below_open _ List.mem_cons_self upper above other after

theorem interval_after_enter {middle : Node} (ancestor : later.Ancestor upper lower)
    (positive : 0 < later.rank upper) (before : later.rank upper ≤ later.rank middle)
    (after : later.rank middle ≤ later.rank lower) : later.Ancestor upper middle := by
  have lawful := invariant.lawful
  by_cases lowerNew : lower = next
  · rw [lowerNew, invariant.ancestor_next_iff fresh success] at ancestor
    rcases ancestor with upperNew | above
    · rw [upperNew] at before ⊢
      rw [lawful.eq_new_of_rank_le success before]
      exact .refl
    · exact invariant.below_node_after_enter fresh success above middle before
  · have middleOld : middle ≠ next := by
      rintro rfl
      exact lowerNew (lawful.eq_new_of_rank_le success after)
    have upperOld : upper ≠ next := by
      rintro rfl
      exact middleOld (lawful.eq_new_of_rank_le success before)
    simp only [rank_of_discover success, if_neg lowerNew, if_neg middleOld, if_neg upperOld]
      at positive before after
    rw [lawful.ancestor_of_discover_iff success fresh lowerNew] at ancestor
    rw [lawful.ancestor_of_discover_iff success fresh middleOld]
    exact invariant.interval upper middle lower ancestor positive before after

theorem settled_after_enter {source target : Node} (positive : 0 < numbering.rank source)
    (settled : numbering.Settled source target) : later.Settled source target := by
  have old : target ≠ next := by
    rintro rfl
    have := settled.1
    omega
  rw [Settled, rank_of_discover_of_pos success fresh positive,
    rank_of_discover_of_pos success fresh settled.1,
    invariant.lawful.ancestor_of_discover_iff success fresh old]
  exact settled

/-- Discovering the target of an edge opens a frame for it.  The new node comes last, and
its ancestors are those of the open frames. -/
theorem enter :
    Traversal graph start (⟨next, graph.successors next⟩ :: ⟨node, pending⟩ :: outer)
      later := by
  have lawful := invariant.lawful
  have nested := List.pairwise_cons.mp invariant.nested
  have subset := List.forall_mem_cons.mp invariant.pending_subset
  have known := invariant.rank_node_pos
  have apart {other : Node} (positive : 0 < numbering.rank other) : other ≠ next := by
    rintro rfl
    omega
  have same_ancestor {upper lower : Node} (positive : 0 < numbering.rank lower) :
      later.Ancestor upper lower ↔ numbering.Ancestor upper lower :=
    lawful.ancestor_of_discover_iff success fresh (apart positive)
  refine
    { lawful := lawful.of_discover success fresh known
      nodeCount_eq := (nodeCount_of_discover success).trans invariant.nodeCount_eq
      mem_successors_of_parent := ?_
      interval := fun _ _ _ => invariant.interval_after_enter fresh success
      nested := ?_
      discovered := ?_
      pending_subset := ?_
      below_open := ?_
      settled := ?_ }
  · intro other parent up
    rw [parent?_of_discover success] at up
    split at up
    · next same =>
        cases up
        rw [same]
        exact subset.1 next List.mem_cons_self
    · exact invariant.mem_successors_of_parent other parent up
  · refine List.pairwise_cons.mpr ⟨?_, List.pairwise_cons.mpr ⟨?_, ?_⟩⟩
    · intro frame member
      exact (invariant.ancestor_next_iff fresh success).mpr
        (.inr (invariant.frame_above member).2)
    · intro frame member
      exact (same_ancestor known).mpr (nested.1 frame member)
    · refine nested.2.imp_of_mem ?_
      intro inner outer innerMember _ above
      have positive := invariant.discovered inner (List.mem_cons_of_mem _ innerMember)
      exact (same_ancestor positive).mpr above
  · refine List.forall_mem_cons.mpr ⟨?_, ?_⟩
    · rw [rank_of_discover success, if_pos rfl]
      omega
    · intro frame member
      have positive := (invariant.frame_above member).1
      rwa [rank_of_discover_of_pos success fresh positive]
  · refine List.forall_mem_cons.mpr ⟨fun target edge => edge, ?_⟩
    exact List.forall_mem_cons.mpr
      ⟨fun target waiting => subset.1 target (List.mem_cons_of_mem _ waiting), subset.2⟩
  · refine List.forall_mem_cons.mpr ⟨?_, ?_⟩
    · intro upper ancestor other after
      rcases (invariant.ancestor_next_iff fresh success).mp ancestor with new | above
      · rw [new] at after ⊢
        rw [lawful.eq_new_of_rank_le success after]
        exact .refl
      · exact invariant.below_node_after_enter fresh success above other after
    · intro frame member upper ancestor other after
      obtain ⟨positive, above⟩ := invariant.frame_above member
      rw [same_ancestor positive] at ancestor
      exact invariant.below_node_after_enter fresh success (ancestor.trans above) other after
  · intro source target positive edge
    by_cases new : source = next
    · rw [new] at edge
      exact .inr ⟨_, List.mem_cons_self, new.symm, edge⟩
    · rw [rank_of_discover success, if_neg new] at positive
      rcases invariant.settled source target positive edge with
        done | ⟨frame, member, rfl, waiting⟩
      · exact .inl (invariant.settled_after_enter fresh success positive done)
      · rcases List.mem_cons.mp member with rfl | member
        · rcases List.mem_cons.mp waiting with rfl | waiting
          · refine .inl ⟨?_, fun _ => (invariant.ancestor_next_iff fresh success).mpr (.inr .refl)⟩
            rw [rank_of_discover success, if_pos rfl]
            omega
          · right
            exact ⟨_, List.mem_cons_of_mem _ List.mem_cons_self, rfl, waiting⟩
        · right
          exact ⟨frame, List.mem_cons_of_mem _ (List.mem_cons_of_mem _ member), rfl, waiting⟩

end

theorem contains_of_rank_pos (invariant : Traversal graph start frames numbering)
    (positive : 0 < numbering.rank node) : graph.contains node = true := by
  rw [FlowGraph.contains_iff, ← invariant.nodeCount_eq]
  exact lt_nodeCount_of_rank_pos positive

theorem exists_path (invariant : Traversal graph start frames numbering)
    (positive : 0 < numbering.rank node) :
    ∃ nodes, graph.Path start node nodes ∧ ∀ other ∈ nodes, 0 < numbering.rank other := by
  have lawful := invariant.lawful
  have ancestor := lawful.start_ancestor positive
  induction ancestor with
  | refl =>
      refine ⟨_, .single start, ?_⟩
      intro other member
      rwa [List.mem_singleton.mp member]
  | @step parent lower up _ inductionHypothesis =>
      have known := lawful.rank_parent_pos up
      obtain ⟨nodes, path, discovered⟩ := inductionHypothesis known
      have edge : graph.Edge parent lower :=
        ⟨invariant.contains_of_rank_pos known, invariant.mem_successors_of_parent lower parent up⟩
      obtain ⟨joined, longer, onlyThese⟩ := path.exists_append (.cons edge (.single lower))
      refine ⟨joined, longer, ?_⟩
      intro other member
      rcases onlyThese other member with before | after
      · exact discovered other before
      · rcases List.mem_cons.mp after with rfl | last
        · exact known
        · rwa [List.mem_singleton.mp last]

theorem reaches (invariant : Traversal graph start frames numbering)
    (positive : 0 < numbering.rank node) : graph.Reaches start node := by
  obtain ⟨nodes, path, -⟩ := invariant.exists_path positive
  exact ⟨nodes, path⟩

theorem rank_pos_of_onEveryPath (invariant : Traversal graph start frames numbering)
    (positive : 0 < numbering.rank node) (always : graph.OnEveryPath start upper node) :
    0 < numbering.rank upper := by
  obtain ⟨nodes, path, discovered⟩ := invariant.exists_path positive
  exact discovered upper (always nodes path)

end Traversal

end Numbering

namespace FlowGraph

/-- A node reachable from `start` has the successor `target`, which the graph does not
own. -/
def Dangling (graph : FlowGraph) (start target : Node) : Prop :=
  ∃ source, graph.Reaches start source ∧ graph.Edge source target ∧
    graph.contains target = false

end FlowGraph

namespace Numbering

open FlowGraph

/-- A traversal leaves all its frames, unless it meets a target the graph does not own. -/
theorem explore_spec {graph : FlowGraph} {frames : List Frame} {numbering : Numbering}
    {start : Node} (invariant : Traversal graph start frames numbering) :
    (∃ final, numbering.explore graph frames = .ok final ∧
      Traversal graph start [] final) ∨
    ∃ target, graph.Dangling start target ∧
      numbering.explore graph frames = .error (.unknownNode target graph.nodeCount) := by
  fun_induction explore graph frames numbering with
  | case1 numbering => exact .inl ⟨numbering, rfl, invariant⟩
  | case2 numbering node outer inductionHypothesis => exact inductionHypothesis invariant.pop
  | case3 numbering node next pending outer inside known inductionHypothesis =>
      exact inductionHypothesis
        (invariant.skip (invariant.lawful.contains_iff_rank_pos.mp known))
  | case4 numbering node next pending outer inside fresh fault failure =>
      have bound : next.index < numbering.nodeCount := by
        rw [invariant.nodeCount_eq]
        exact FlowGraph.contains_iff.mp inside
      obtain ⟨later, success⟩ :=
        exists_discover invariant.lawful.size_parents bound (some node)
      rw [success] at failure
      cases failure
  | case5 numbering node next pending outer inside fresh later success fault failure =>
      exact absurd failure (successorsOf_ne_error inside)
  | case6 numbering node next pending outer inside fresh later success targets asked
      inductionHypothesis =>
      cases eq_of_successorsOf inside asked
      exact inductionHypothesis
        (invariant.enter (rank_of_contains_eq_false (Bool.eq_false_iff.mpr fresh)) success)
  | case7 numbering node next pending outer outside =>
      right
      have known := invariant.discovered _ List.mem_cons_self
      have owned := invariant.contains_of_rank_pos known
      have edge := invariant.pending_subset _ List.mem_cons_self next List.mem_cons_self
      exact ⟨next, ⟨node, invariant.reaches known, ⟨owned, edge⟩,
        Bool.eq_false_iff.mpr outside⟩, rfl⟩

end Numbering

namespace FlowGraph

open FlowDominance.Numbering

/-- `numbering` is a depth-first numbering of what `graph` reaches from `start`. -/
structure DepthFirst (graph : FlowGraph) (start : Node) (numbering : Numbering) : Prop where
  lawful : numbering.Lawful start
  nodeCount_eq : numbering.nodeCount = graph.nodeCount
  rank_pos_iff : ∀ node, 0 < numbering.rank node ↔ graph.Reaches start node
  mem_successors_of_parent : ∀ node parent, numbering.parent? node = some parent →
    node ∈ graph.successors parent
  contains_successor : ∀ source target, 0 < numbering.rank source →
    target ∈ graph.successors source → 0 < numbering.rank target
  ancestor_of_edge : ∀ source target, 0 < numbering.rank source →
    target ∈ graph.successors source → numbering.rank source < numbering.rank target →
      numbering.Ancestor source target
  interval : ∀ upper middle lower, numbering.Ancestor upper lower →
    0 < numbering.rank upper → numbering.rank upper ≤ numbering.rank middle →
      numbering.rank middle ≤ numbering.rank lower → numbering.Ancestor upper middle

variable {graph : FlowGraph} {start : Node} {numbering : Numbering}

/-- A traversal that has left all its frames has discovered what can be reached. -/
theorem depthFirst_of_traversal (invariant : Traversal graph start [] numbering) :
    graph.DepthFirst start numbering := by
  have lawful := invariant.lawful
  have settled (source target : Node) (positive : 0 < numbering.rank source)
      (edge : target ∈ graph.successors source) : numbering.Settled source target := by
    rcases invariant.settled source target positive edge with done | ⟨frame, member, -⟩
    · exact done
    · cases member
  refine
    { lawful := lawful
      nodeCount_eq := invariant.nodeCount_eq
      rank_pos_iff := fun node => ⟨invariant.reaches, ?_⟩
      mem_successors_of_parent := invariant.mem_successors_of_parent
      contains_successor := fun source target positive edge =>
        (settled source target positive edge).1
      ancestor_of_edge := fun source target positive edge =>
        (settled source target positive edge).2
      interval := invariant.interval }
  rintro ⟨nodes, path⟩
  have closed (source target : Node) (known : 0 < numbering.rank source)
      (edge : graph.Edge source target) : 0 < numbering.rank target :=
    (settled source target known edge.2).1
  exact path.forall_mem_of_closed closed lawful.rank_start_pos node path.target_mem

/-- Numbering from a node of the graph yields a depth-first numbering, unless there is a
successor within reach that the graph does not own. -/
theorem number_spec (inside : graph.contains start = true) :
    (∃ numbering, graph.number start = .ok numbering ∧ graph.DepthFirst start numbering) ∨
    ∃ target, graph.Dangling start target ∧
      graph.number start = .error (.unknownNode target graph.nodeCount) := by
  have sizes : (Numbering.empty graph.nodeCount).parents.size =
      (Numbering.empty graph.nodeCount).nodeCount := by
    simp [Numbering.empty, Numbering.nodeCount]
  have bound : start.index < (Numbering.empty graph.nodeCount).nodeCount := by
    rw [nodeCount_empty]
    exact contains_iff.mp inside
  obtain ⟨first, success⟩ := exists_discover sizes bound none
  rw [number_eq, if_pos inside, success]
  rcases explore_spec (Traversal.initial success) with
    ⟨final, explored, invariant⟩ | ⟨target, dangling, failed⟩
  · exact .inl ⟨final, explored, depthFirst_of_traversal invariant⟩
  · exact .inr ⟨target, dangling, failed⟩

theorem depthFirst_of_number_eq_ok (inside : graph.contains start = true)
    (success : graph.number start = .ok numbering) : graph.DepthFirst start numbering := by
  rcases number_spec inside with ⟨final, numbered, depthFirst⟩ | ⟨target, -, failed⟩
  · rw [success] at numbered
    cases numbered
    exact depthFirst
  · rw [success] at failed
    cases failed

namespace DepthFirst

variable (depthFirst : graph.DepthFirst start numbering)
include depthFirst

theorem contains_of_rank_pos {node : Node} (positive : 0 < numbering.rank node) :
    graph.contains node = true := by
  rw [FlowGraph.contains_iff, ← depthFirst.nodeCount_eq]
  exact lt_nodeCount_of_rank_pos positive

theorem contains_start : graph.contains start = true :=
  depthFirst.contains_of_rank_pos depthFirst.lawful.rank_start_pos

theorem contains_of_properAncestor {upper lower : Node}
    (proper : numbering.ProperAncestor upper lower) :
    graph.contains upper = true ∧ graph.contains lower = true := by
  have lawful := depthFirst.lawful
  have known := lawful.rank_pos_of_properAncestor proper
  have below := lawful.rank_lt_of_properAncestor proper
  exact ⟨depthFirst.contains_of_rank_pos known,
    depthFirst.contains_of_rank_pos (Nat.lt_trans known below)⟩

theorem not_dangling (target : Node) : ¬ graph.Dangling start target := by
  rintro ⟨source, reached, edge, outside⟩
  have known := (depthFirst.rank_pos_iff source).mpr reached
  have inside := depthFirst.contains_of_rank_pos
    (depthFirst.contains_successor source target known edge.2)
  rw [inside] at outside
  cases outside

theorem rank_pos_of_path {source target : Node} {nodes : List Node}
    (path : graph.Path source target nodes) (known : 0 < numbering.rank source) :
    ∀ node ∈ nodes, 0 < numbering.rank node := by
  have closed (source target : Node) (known : 0 < numbering.rank source)
      (edge : graph.Edge source target) : 0 < numbering.rank target :=
    depthFirst.contains_successor source target known edge.2
  exact path.forall_mem_of_closed closed known

/-- A path on which no node was discovered before `upper` stays below `upper`. -/
theorem ancestor_of_path {upper source target : Node} {nodes : List Node}
    (path : graph.Path source target nodes) (above : numbering.Ancestor upper source)
    (known : 0 < numbering.rank source)
    (after : ∀ node ∈ nodes, numbering.rank upper ≤ numbering.rank node) :
    numbering.Ancestor upper target := by
  have lawful := depthFirst.lawful
  induction path with
  | single node => exact above
  | @cons source next target nodes edge rest inductionHypothesis =>
      have nextKnown := depthFirst.contains_successor source next known edge.2
      have nextAfter := after next (List.mem_cons_of_mem _ rest.source_mem)
      refine inductionHypothesis ?_ nextKnown
        (fun node member => after node (List.mem_cons_of_mem _ member))
      rcases Nat.lt_or_ge (numbering.rank source) (numbering.rank next) with forward | backward
      · exact above.trans (depthFirst.ancestor_of_edge source next known edge.2 forward)
      · exact depthFirst.interval upper next source above
          (lawful.rank_pos_of_ancestor above known) nextAfter backward

/-- The tree holds a path from an ancestor to each node below it. -/
theorem exists_tree_path {upper lower : Node} (ancestor : numbering.Ancestor upper lower)
    (known : 0 < numbering.rank lower) :
    ∃ nodes, graph.Path upper lower nodes ∧
      ∀ node ∈ nodes, numbering.Ancestor upper node ∧ numbering.Ancestor node lower := by
  have lawful := depthFirst.lawful
  induction ancestor with
  | refl =>
      refine ⟨_, .single upper, ?_⟩
      intro node member
      rw [List.mem_singleton.mp member]
      exact ⟨.refl, .refl⟩
  | @step parent lower up above inductionHypothesis =>
      have parentKnown := lawful.rank_parent_pos up
      obtain ⟨nodes, path, between⟩ := inductionHypothesis parentKnown
      have edge : graph.Edge parent lower :=
        ⟨depthFirst.contains_of_rank_pos parentKnown,
          depthFirst.mem_successors_of_parent lower parent up⟩
      obtain ⟨joined, longer, onlyThese⟩ := path.exists_append (.cons edge (.single lower))
      refine ⟨joined, longer, ?_⟩
      intro node member
      rcases onlyThese node member with before | after
      · exact ⟨(between node before).1, .step up (between node before).2⟩
      · rcases List.mem_cons.mp after with rfl | last
        · exact ⟨above, .step up .refl⟩
        · rw [List.mem_singleton.mp last]
          exact ⟨.step up above, .refl⟩

end DepthFirst

end FlowGraph

end FlowDominance
