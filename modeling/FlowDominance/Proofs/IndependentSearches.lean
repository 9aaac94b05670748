import FlowDominance.Proofs.BackwardSearch
import FlowDominance.Proofs.SearchSteps

/-!
# Searches that share a set

All searches for semidominators use the same set of stamps one after another, and the stamps of
the earlier ones stay in its cells.  They make no difference.  Two sets with the same members
lead a search the same way, whatever their stamps and rounds are, and at the beginning of a round
every set is empty.  So each search finds what it would find with a set of its own, for any
numbering and any number of searches; the rounds may even run out on the way.
-/

namespace FlowDominance

/-- If every element can be read, so can the list, and what is read of it is what is read of its
elements. -/
theorem exists_mapM {α β : Type} {read : α → Except Fault β} {elements : List α}
    (reads : ∀ element ∈ elements, ∃ value, read element = .ok value) :
    ∃ values, elements.mapM read = .ok values ∧
      List.Forall₂ (fun element value => read element = .ok value) elements values := by
  induction elements with
  | nil => exact ⟨[], rfl, .nil⟩
  | cons element rest inductionHypothesis =>
      obtain ⟨value, first⟩ := reads element List.mem_cons_self
      obtain ⟨values, others, each⟩ := inductionHypothesis fun other member =>
        reads other (List.mem_cons_of_mem element member)
      refine ⟨value :: values, ?_, .cons first each⟩
      rw [List.mapM_cons, first, others]
      rfl

namespace StampSet

variable {set other inserted : StampSet} {node : Node}

/-- The two sets have the same members and cells for the same nodes.  In which round and by which
stamps they hold their members may differ. -/
structure SameMembers (set other : StampSet) : Prop where
  size_eq : other.stamps.size = set.stamps.size
  contains_eq : ∀ node, other.contains node = set.contains node

theorem sameMembers_nextRound (lawful : set.Lawful) (otherLawful : other.Lawful)
    (size : other.stamps.size = set.stamps.size) : set.nextRound.SameMembers other.nextRound where
  size_eq := by rw [size_nextRound, size_nextRound, size]
  contains_eq node := by
    rw [contains_nextRound otherLawful, contains_nextRound lawful]

theorem insert_of_size_le (node : Node) (outside : set.stamps.size ≤ node.index) :
    set.insert node = .error (.outOfBounds set.stamps.size node.index) := by
  rw [insert_eq_bind, NodeMap.write_of_size_le set.round outside]
  rfl

theorem lt_size_of_insert (success : set.insert node = .ok inserted) :
    node.index < set.stamps.size :=
  NodeMap.lt_size_of_write (insert_eq_ok_iff.mp success).2

namespace SameMembers

variable (same : set.SameMembers other)
include same

theorem insert (success : set.insert node = .ok inserted) :
    ∃ otherInserted, other.insert node = .ok otherInserted ∧
      inserted.SameMembers otherInserted := by
  have inside : node.index < other.stamps.size := by
    rw [same.size_eq]
    exact lt_size_of_insert success
  obtain ⟨otherInserted, otherSuccess⟩ := exists_insert inside
  refine ⟨otherInserted, otherSuccess, ?_, ?_⟩
  · rw [size_of_insert otherSuccess, size_of_insert success, same.size_eq]
  · intro asked
    rw [contains_of_insert otherSuccess, contains_of_insert success, same.contains_eq]

theorem insert_eq_error {fault : Fault} (failure : set.insert node = .error fault) :
    other.insert node = .error fault := by
  rcases Nat.lt_or_ge node.index set.stamps.size with inside | outside
  · obtain ⟨inserted, success⟩ := exists_insert inside
    rw [success] at failure
    cases failure
  · rw [insert_of_size_le node outside, ← same.size_eq] at failure
    rw [← failure]
    apply insert_of_size_le
    rwa [same.size_eq]

end SameMembers

end StampSet

namespace Semidominator

open FlowGraph

variable {graph : FlowGraph} {numbering : Numbering} {seen other : StampSet}

/-! ### One search -/

theorem sweep_of_sameMembers (same : seen.SameMembers other) (graph : FlowGraph)
    (numbering : Numbering) (bound : Nat) (pending stack : List Node)
    (best : Option (Node × Nat)) :
    (sweep graph numbering bound pending stack best other).map Prod.fst =
      (sweep graph numbering bound pending stack best seen).map Prod.fst := by
  -- both sets receive the same nodes, so they keep the same members to the end
  fun_induction sweep graph numbering bound pending stack best seen generalizing other with
  | case1 stack best seen node pending unplaced inductionHypothesis =>
      rw [sweep_cons, unplaced]
      exact inductionHypothesis same
  | case2 stack best seen node pending position placed known inductionHypothesis =>
      rw [sweep_cons, placed]
      simp only [same.contains_eq, if_pos known]
      exact inductionHypothesis same
  | case3 stack best seen node pending position placed fresh fault failure =>
      rw [sweep_cons, placed]
      simp only [same.contains_eq, if_neg fresh, same.insert_eq_error failure]
      rfl
  | case4 stack best seen node pending position placed fresh inserted success early
      inductionHypothesis =>
      obtain ⟨otherInserted, otherSuccess, further⟩ := same.insert success
      rw [sweep_cons, placed]
      simp only [same.contains_eq, if_neg fresh, otherSuccess, Except.bind, if_pos early]
      exact inductionHypothesis further
  | case5 stack best seen node pending position placed fresh inserted success late
      inductionHypothesis =>
      obtain ⟨otherInserted, otherSuccess, further⟩ := same.insert success
      rw [sweep_cons, placed]
      simp only [same.contains_eq, if_neg fresh, otherSuccess, Except.bind, if_neg late]
      exact inductionHypothesis further
  | case6 best seen =>
      rw [sweep]
      rfl
  | case7 best seen node stack fault failure =>
      rw [sweep_nil_cons, failure]
      rfl
  | case8 best seen node stack predecessors looked inductionHypothesis =>
      rw [sweep_nil_cons, looked]
      exact inductionHypothesis same

/-- The set that a search leaves behind can serve the next one. -/
theorem lawful_of_sweep {bound : Nat} {pending stack : List Node} {best : Option (Node × Nat)}
    {found : Option Node} {final : StampSet} (lawful : seen.Lawful)
    (swept : sweep graph numbering bound pending stack best seen = .ok (found, final)) :
    final.Lawful ∧ final.stamps.size = seen.stamps.size := by
  fun_induction sweep graph numbering bound pending stack best seen with
  | case1 stack best seen node pending unplaced inductionHypothesis =>
      exact inductionHypothesis lawful swept
  | case2 stack best seen node pending position placed known inductionHypothesis =>
      exact inductionHypothesis lawful swept
  | case3 stack best seen node pending position placed fresh fault failure =>
      cases swept
  | case4 stack best seen node pending position placed fresh inserted success early
      inductionHypothesis =>
      obtain ⟨finalLawful, size⟩ :=
        inductionHypothesis (StampSet.lawful_of_insert lawful success) swept
      exact ⟨finalLawful, size.trans (StampSet.size_of_insert success)⟩
  | case5 stack best seen node pending position placed fresh inserted success late
      inductionHypothesis =>
      obtain ⟨finalLawful, size⟩ :=
        inductionHypothesis (StampSet.lawful_of_insert lawful success) swept
      exact ⟨finalLawful, size.trans (StampSet.size_of_insert success)⟩
  | case6 best seen =>
      cases swept
      exact ⟨lawful, rfl⟩
  | case7 best seen node stack fault failure =>
      cases swept
  | case8 best seen node stack predecessors looked inductionHypothesis =>
      exact inductionHypothesis lawful swept

theorem search_of_lawful (lawful : seen.Lawful) (otherLawful : other.Lawful)
    (size : other.stamps.size = seen.stamps.size) (graph : FlowGraph) (numbering : Numbering)
    (target : Node) (position : Nat) :
    (search graph numbering target position other).map Prod.fst =
      (search graph numbering target position seen).map Prod.fst := by
  have same := StampSet.sameMembers_nextRound lawful otherLawful size
  rw [search_eq_bind, search_eq_bind]
  cases marked : seen.nextRound.insert target with
  | error fault => rw [same.insert_eq_error marked]
  | ok inserted =>
      obtain ⟨otherInserted, otherMarked, further⟩ := same.insert marked
      rw [otherMarked]
      exact sweep_of_sameMembers further graph numbering position [] [target] none

theorem lawful_of_search {target : Node} {position : Nat} {found : Option Node}
    {final : StampSet} (lawful : seen.Lawful)
    (searched : search graph numbering target position seen = .ok (found, final)) :
    final.Lawful ∧ final.stamps.size = seen.stamps.size := by
  rw [search_eq_bind] at searched
  cases marked : seen.nextRound.insert target with
  | error fault =>
      rw [marked] at searched
      cases searched
  | ok inserted =>
      rw [marked] at searched
      have markedLawful :=
        StampSet.lawful_of_insert (StampSet.lawful_nextRound lawful) marked
      obtain ⟨finalLawful, size⟩ := lawful_of_sweep markedLawful searched
      refine ⟨finalLawful, ?_⟩
      rw [size, StampSet.size_of_insert marked, StampSet.size_nextRound]

/-! ### Many searches -/

/-- Searches for several targets, one after another, each given with its position.  A search
starts with the set that the search before has left. -/
def searchEach (graph : FlowGraph) (numbering : Numbering) :
    (calls : List (Node × Nat)) → (seen : StampSet) → Except Fault (List (Option Node))
  | [], _ => .ok []
  | (target, position) :: calls, seen => do
      let (found, seen) ← search graph numbering target position seen
      let others ← searchEach graph numbering calls seen
      return found :: others

/-- What a search answers if it has a new set to itself. -/
def searchAlone (graph : FlowGraph) (numbering : Numbering) (size : Nat) :
    Node × Nat → Except Fault (Option Node)
  | (target, position) =>
      (search graph numbering target position (.fresh size)).map Prod.fst

theorem searchAlone_eq_ok_iff {size position : Nat} {target : Node} {answer : Option Node} :
    searchAlone graph numbering size (target, position) = .ok answer ↔
      ∃ final, search graph numbering target position (.fresh size) = .ok (answer, final) := by
  rw [searchAlone]
  cases search graph numbering target position (.fresh size) with
  | error fault => simp [Except.map]
  | ok found => simp [Except.map, Prod.ext_iff]

/-- With any numbering and any targets, searches that share a set answer as searches that do not,
and fail as they do. -/
theorem searchEach_eq_mapM (graph : FlowGraph) (numbering : Numbering)
    (calls : List (Node × Nat)) (lawful : seen.Lawful) :
    searchEach graph numbering calls seen =
      calls.mapM (searchAlone graph numbering seen.stamps.size) := by
  induction calls generalizing seen with
  | nil => rfl
  | cons call calls inductionHypothesis =>
      obtain ⟨target, position⟩ := call
      have alone : searchAlone graph numbering seen.stamps.size (target, position) =
          (search graph numbering target position seen).map Prod.fst :=
        search_of_lawful lawful (StampSet.lawful_fresh _) (by simp [StampSet.fresh]) graph
          numbering target position
      rw [searchEach, List.mapM_cons, alone]
      cases searched : search graph numbering target position seen with
      | error fault => rfl
      | ok answer =>
          obtain ⟨found, final⟩ := answer
          obtain ⟨finalLawful, size⟩ := lawful_of_search lawful searched
          rw [← size, ← inductionHypothesis finalLawful]
          rfl

/-- A search for a discovered node ends, whatever the lists of predecessors hold. -/
theorem exists_searchAlone {host : FlowGraph} {start : Node}
    (sameCount : graph.nodeCount = host.nodeCount) (numbered : host.number start = .ok numbering)
    {target : Node} {position : Nat} (placed : numbering.position? target = some position) :
    ∃ answer, searchAlone graph numbering graph.nodeCount (target, position) = .ok answer := by
  cases inside : host.contains start with
  | false =>
      rw [number_of_foreign inside] at numbered
      cases numbered
      rw [Numbering.position?_empty] at placed
      cases placed
  | true =>
      have depthFirst := depthFirst_of_number_eq_ok inside numbered
      have nodeCount : numbering.nodeCount = graph.nodeCount :=
        depthFirst.nodeCount_eq.trans sameCount.symm
      obtain ⟨positive, rfl⟩ := depthFirst.lawful.position?_eq_some_iff.mp placed
      obtain ⟨answer, final, searched, -⟩ := search_spec depthFirst.lawful nodeCount positive
        (StampSet.lawful_fresh graph.nodeCount) (by simp [StampSet.fresh, nodeCount])
      exact ⟨answer, searchAlone_eq_ok_iff.mpr ⟨final, searched⟩⟩

/-- Searches for discovered nodes, as many as one likes and in any order, can be made with one set
of stamps, one after another.  Each of them answers what it answers with a new set to itself. -/
theorem searches_do_not_interfere {host graph : FlowGraph} {start : Node} {numbering : Numbering}
    (sameCount : graph.nodeCount = host.nodeCount) (numbered : host.number start = .ok numbering)
    (calls : List (Node × Nat))
    (placed : ∀ call ∈ calls, numbering.position? call.1 = some call.2) :
    ∃ answers, searchEach graph numbering calls (.fresh graph.nodeCount) = .ok answers ∧
      List.Forall₂ (fun call answer => ∃ final,
        search graph numbering call.1 call.2 (.fresh graph.nodeCount) = .ok (answer, final))
        calls answers := by
  have size : (StampSet.fresh graph.nodeCount).stamps.size = graph.nodeCount := by
    simp [StampSet.fresh]
  obtain ⟨answers, answered, each⟩ := exists_mapM fun call member =>
    exists_searchAlone sameCount numbered (placed call member)
  refine ⟨answers, ?_, each.imp ?_⟩
  · rw [searchEach_eq_mapM graph numbering calls (StampSet.lawful_fresh _), size]
    exact answered
  · intro call answer alone
    exact searchAlone_eq_ok_iff.mp alone

/-- In `unrelated` the second search for `n3` passes the same nodes as the first, whose stamps it
finds in their cells, and finds the same candidate. -/
theorem unrelated_searches_do_not_interfere :
    searchEach unrelated branchingNumbering [(⟨3⟩, 3), (⟨0⟩, 1), (⟨3⟩, 3)] (.fresh 5) =
        .ok [some ⟨0⟩, none, some ⟨0⟩] ∧
      ∃ final, search unrelated branchingNumbering ⟨3⟩ 3 (.fresh 5) = .ok (some ⟨0⟩, final) := by
  have sameCount : unrelated.nodeCount = branching.nodeCount := rfl
  obtain ⟨answers, searched, each⟩ := searches_do_not_interfere sameCount number_branching
    [(⟨3⟩, 3), (⟨0⟩, 1), (⟨3⟩, 3)] (by decide)
  have shared : searchEach unrelated branchingNumbering [(⟨3⟩, 3), (⟨0⟩, 1), (⟨3⟩, 3)]
      (.fresh unrelated.nodeCount) = .ok [some ⟨0⟩, none, some ⟨0⟩] := by cbv
  refine ⟨shared, ?_⟩
  rw [shared] at searched
  cases searched
  cases each with
  | cons first others => exact first

end Semidominator

end FlowDominance
