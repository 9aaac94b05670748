import FlowDominance.ImmediateDominator
import FlowDominance.Proofs.LoopInvariant
import FlowDominance.Proofs.LawfulNumbering

/-!
# The table of immediate dominators

Nodes are settled in the order of discovery, so an entry can be copied from any node that
comes earlier, and from no other.  Entered once, it never changes; the finished table
therefore solves the equations by which it was filled.  All this holds of any table of
semidominators and any table of relative dominators.
-/

namespace FlowDominance

namespace ImmediateDominator

variable {numbering : Numbering} {start node other : Node}
  {semi : NodeMap Node} {relatives idom : NodeMap (Option Node)}
  {value : Node → Node} {relation : Node → Option Node}

/-- For the discovered nodes the two tables hold `value` and `relation`, and the latter
names nodes of the graph only. -/
structure ReadsAs (numbering : Numbering) (semi : NodeMap Node)
    (relatives : NodeMap (Option Node)) (value : Node → Node)
    (relation : Node → Option Node) : Prop where
  semi_eq : ∀ node, 0 < numbering.rank node → semi.find? node = some (value node)
  relatives_eq : ∀ node, 0 < numbering.rank node → relatives.find? node = some (relation node)
  inside : ∀ node source, 0 < numbering.rank node → relation node = some source →
    source.index < numbering.nodeCount

/-- The node from which `node` is to inherit its dominator, if there is one, has been
settled by then. -/
def Resolved (numbering : Numbering) (start : Node) (relation : Node → Option Node)
    (node : Node) : Prop :=
  ∀ source, relation node = some source → 0 < numbering.rank source ∧ source ≠ start ∧
    numbering.rank source < numbering.rank node

/-- `idom` solves the equations of immediate dominators for the nodes in `done`, and holds
nothing for all other nodes. -/
structure Solves (numbering : Numbering) (value : Node → Node) (relation : Node → Option Node)
    (done : List Node) (idom : NodeMap (Option Node)) : Prop where
  size_eq : idom.size = numbering.nodeCount
  exists_dominator : ∀ node ∈ done, ∃ dominator, idom.find? node = some (some dominator)
  find?_of_none : ∀ node ∈ done, relation node = none → idom.find? node = some (some (value node))
  find?_of_some : ∀ node ∈ done, ∀ source, relation node = some source →
    source ∈ done ∧ idom.find? node = idom.find? source
  find?_rest : ∀ node, node.index < numbering.nodeCount → node ∉ done →
    idom.find? node = some none

theorem solves_start (numbering : Numbering) (value : Node → Node)
    (relation : Node → Option Node) :
    Solves numbering value relation [] (.replicate numbering.nodeCount none) where
  size_eq := NodeMap.size_replicate _ _
  exists_dominator node member := absurd member List.not_mem_nil
  find?_of_none node member := absurd member List.not_mem_nil
  find?_of_some node member := absurd member List.not_mem_nil
  find?_rest node inside _ := by
    rw [NodeMap.find?_replicate, if_pos inside]

/-- Entering the dominator of a new node disturbs none of the equations that hold. -/
theorem Solves.write {done : List Node} {written : NodeMap (Option Node)} {dominator : Node}
    (solves : Solves numbering value relation done idom) (fresh : node ∉ done)
    (success : idom.write node (some dominator) = .ok written)
    (of_none : relation node = none → dominator = value node)
    (of_some : ∀ source, relation node = some source →
      source ∈ done ∧ idom.find? source = some (some dominator)) :
    Solves numbering value relation (done ++ [node]) written := by
  have same : written.find? node = some (some dominator) := by
    rw [NodeMap.find?_of_write success, if_pos rfl]
  have kept {other : Node} (apart : other ≠ node) : written.find? other = idom.find? other := by
    rw [NodeMap.find?_of_write success, if_neg apart]
  have old {other : Node} (member : other ∈ done) : other ≠ node := by
    rintro rfl
    exact fresh member
  refine
    { size_eq := (NodeMap.size_of_write success).trans solves.size_eq
      exists_dominator := ?_
      find?_of_none := ?_
      find?_of_some := ?_
      find?_rest := ?_ }
  · refine List.forall_mem_append.mpr ⟨?_, List.forall_mem_singleton.mpr ⟨dominator, same⟩⟩
    intro other member
    rw [kept (old member)]
    exact solves.exists_dominator other member
  · refine List.forall_mem_append.mpr ⟨?_, List.forall_mem_singleton.mpr ?_⟩
    · intro other member direct
      rw [kept (old member)]
      exact solves.find?_of_none other member direct
    · intro direct
      rw [same, of_none direct]
  · refine List.forall_mem_append.mpr ⟨?_, List.forall_mem_singleton.mpr ?_⟩
    · intro other member source inherited
      obtain ⟨sourceDone, equal⟩ := solves.find?_of_some other member source inherited
      rw [kept (old member), kept (old sourceDone)]
      exact ⟨List.mem_append_left _ sourceDone, equal⟩
    · intro source inherited
      obtain ⟨sourceDone, found⟩ := of_some source inherited
      rw [same, kept (old sourceDone), found]
      exact ⟨List.mem_append_left _ sourceDone, rfl⟩
  · intro other inside absent
    rw [List.mem_append, not_or, List.mem_singleton] at absent
    rw [kept absent.2]
    exact solves.find?_rest other inside absent.1

theorem lt_size_of_rank_pos {done : List Node}
    (solves : Solves numbering value relation done idom) (positive : 0 < numbering.rank node) :
    node.index < idom.size := by
  rw [solves.size_eq]
  exact Numbering.lt_nodeCount_of_rank_pos positive

theorem settle_of_find {done : List Node} {dominator : Node}
    (solves : Solves numbering value relation done idom) (fresh : node ∉ done)
    (positive : 0 < numbering.rank node) (found : find semi relatives idom node = .ok dominator)
    (of_none : relation node = none → dominator = value node)
    (of_some : ∀ source, relation node = some source →
      source ∈ done ∧ idom.find? source = some (some dominator)) :
    ∃ next, settle semi relatives idom node = .ok (next, .immediateDominator node dominator) ∧
      next.find? node = some (some dominator) ∧
        Solves numbering value relation (done ++ [node]) next := by
  obtain ⟨written, success⟩ :=
    NodeMap.exists_write_of_lt (some dominator) (lt_size_of_rank_pos solves positive)
  refine ⟨written, ?_, ?_, solves.write fresh success of_none of_some⟩
  · simp only [settle, found, success]
  · rw [NodeMap.find?_of_write success, if_pos rfl]

/-- A node is settled if the node it inherits from, if any, has been. -/
theorem settle_spec {done : List Node} (reads : ReadsAs numbering semi relatives value relation)
    (solves : Solves numbering value relation done idom) (fresh : node ∉ done)
    (positive : 0 < numbering.rank node) :
    (∃ next dominator, settle semi relatives idom node =
        .ok (next, .immediateDominator node dominator) ∧
      next.find? node = some (some dominator) ∧
        Solves numbering value relation (done ++ [node]) next ∧
          ∀ source, relation node = some source → source ∈ done) ∨
    ∃ source, relation node = some source ∧ source ∉ done ∧
      settle semi relatives idom node =
        .error (.inconsistent (.unresolvedDominator source node)) := by
  have relativeRead := NodeMap.read_eq_ok_iff.mpr (reads.relatives_eq node positive)
  rcases Option.eq_none_or_eq_some (relation node) with inherited | ⟨source, inherited⟩
  · left
    rw [inherited] at relativeRead
    have semiRead := NodeMap.read_eq_ok_iff.mpr (reads.semi_eq node positive)
    have found : find semi relatives idom node = .ok (value node) := by
      rw [find, relativeRead]
      exact semiRead
    have direct (source : Node) : relation node ≠ some source := by
      rw [inherited]
      exact nofun
    obtain ⟨next, success, entered, further⟩ := settle_of_find solves fresh positive found
      (fun _ => rfl) (fun source named => absurd named (direct source))
    exact ⟨next, value node, success, entered, further,
      fun source named => absurd named (direct source)⟩
  · rw [inherited] at relativeRead
    by_cases settled : source ∈ done
    · left
      obtain ⟨dominator, found⟩ := solves.exists_dominator source settled
      have sourceRead := NodeMap.read_eq_ok_iff.mpr found
      have copied : find semi relatives idom node = .ok dominator := by
        rw [find, relativeRead]
        simp only [bind, Except.bind, sourceRead]
        rfl
      have same {other : Node} (named : relation node = some other) : other = source := by
        rw [inherited] at named
        exact (Option.some.inj named).symm
      have of_some (other : Node) (named : relation node = some other) :
          other ∈ done ∧ idom.find? other = some (some dominator) := by
        rw [same named]
        exact ⟨settled, found⟩
      obtain ⟨next, success, entered, further⟩ := settle_of_find solves fresh positive copied
        (fun direct => by simp [inherited] at direct) of_some
      exact ⟨next, dominator, success, entered, further, fun other named => (of_some other named).1⟩
    · right
      have empty := solves.find?_rest source (reads.inside node source positive inherited) settled
      have sourceRead := NodeMap.read_eq_ok_iff.mpr empty
      refine ⟨source, inherited, settled, ?_⟩
      have failed : find semi relatives idom node =
          .error (.inconsistent (.unresolvedDominator source node)) := by
        rw [find, relativeRead]
        simp only [bind, Except.bind, sourceRead]
        rfl
      rw [settle, failed]

section

variable (lawful : numbering.Lawful start) {done rest : List Node}
  (split : numbering.belowRoot = done ++ node :: rest)
include lawful split

theorem fresh_of_split : 0 < numbering.rank node ∧ node ≠ start ∧ node ∉ done := by
  have below : node ∈ numbering.belowRoot := by simp [split]
  obtain ⟨positive, apart⟩ := lawful.mem_belowRoot_iff.mp below
  refine ⟨positive, apart, ?_⟩
  rw [lawful.mem_before_iff split]
  omega

theorem Solves.next (reads : ReadsAs numbering semi relatives value relation)
    (solves : Solves numbering value relation done idom) {next : NodeMap (Option Node)}
    {record : Record} (taken : settle semi relatives idom node = .ok (next, record)) :
    Solves numbering value relation (done ++ [node]) next ∧
      Resolved numbering start relation node := by
  obtain ⟨positive, -, new⟩ := fresh_of_split lawful split
  rcases settle_spec reads solves new positive with
    ⟨settled, dominator, success, -, further, earlier⟩ | ⟨source, -, -, failure⟩
  · rw [success] at taken
    cases taken
    exact ⟨further, fun source inherited =>
      (lawful.mem_before_iff split).mp (earlier source inherited)⟩
  · rw [failure] at taken
    cases taken

end

end ImmediateDominator

open ImmediateDominator

variable {numbering : Numbering} {start : Node} {semi : NodeMap Node}
  {relatives : NodeMap (Option Node)} {value : Node → Node} {relation : Node → Option Node}

/-- The equations of immediate dominators are solved if every node inherits from an earlier
one; otherwise the first node that does not is reported. -/
theorem immediateDominators_spec (lawful : numbering.Lawful start)
    (reads : ImmediateDominator.ReadsAs numbering semi relatives value relation) :
    (∃ idom, (immediateDominators numbering semi relatives).outcome = .ok idom ∧
      Solves numbering value relation numbering.belowRoot idom ∧
        ∀ node ∈ numbering.belowRoot, Resolved numbering start relation node) ∨
    ∃ node source, (immediateDominators numbering semi relatives).outcome =
        .error (.inconsistent (.unresolvedDominator source node)) ∧
      0 < numbering.rank node ∧ node ≠ start ∧ relation node = some source ∧
        ¬ Resolved numbering start relation node ∧
          ∀ other, 0 < numbering.rank other → other ≠ start →
            numbering.rank other < numbering.rank node →
              Resolved numbering start relation other := by
  have kept (done : List Node) (node : Node) (rest : List Node)
      (idom : NodeMap (Option Node)) (records : Array Record) (next : NodeMap (Option Node))
      (record : Record) (split : numbering.belowRoot = done ++ node :: rest)
      (holds : Solves numbering value relation done idom ∧
        ∀ other ∈ done, Resolved numbering start relation other)
      (taken : settle semi relatives idom node = .ok (next, record)) :
      Solves numbering value relation (done ++ [node]) next ∧
        ∀ other ∈ done ++ [node], Resolved numbering start relation other := by
    obtain ⟨further, resolved⟩ := holds.1.next lawful split reads taken
    exact ⟨further, List.forall_mem_append.mpr ⟨holds.2, List.forall_mem_singleton.mpr resolved⟩⟩
  rw [immediateDominators]
  rcases Traced.foldNoting_spec (settle semi relatives)
    (fun done idom _ => Solves numbering value relation done idom ∧
      ∀ other ∈ done, Resolved numbering start relation other)
    numbering.belowRoot kept _
    ⟨solves_start numbering value relation, fun _ member => absurd member List.not_mem_nil⟩ with
    ⟨final, noted, folded, holds⟩ | ⟨before, node, after, reached, noted, fault, split, holds,
      failure, folded⟩
  · rw [folded]
    exact .inl ⟨final, rfl, holds⟩
  · right
    obtain ⟨positive, apart, new⟩ := fresh_of_split lawful split
    rcases settle_spec reads holds.1 new positive with
      ⟨settled, dominator, success, -⟩ | ⟨source, inherited, unsettled, unresolved⟩
    · rw [success] at failure
      cases failure
    · rw [unresolved] at failure
      cases failure
      rw [folded]
      refine ⟨node, source, rfl, positive, apart, inherited, ?_, ?_⟩
      · intro resolved
        exact unsettled ((lawful.mem_before_iff split).mpr (resolved source inherited))
      · intro other otherPositive otherApart earlier
        exact holds.2 other
          ((lawful.mem_before_iff split).mpr ⟨otherPositive, otherApart, earlier⟩)

end FlowDominance
