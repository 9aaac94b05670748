import FlowDominance.Proofs.UpwardSearch

/-!
# Ties between relative dominators

Of several nodes whose semidominators come first the search for relative dominators takes the
lowest.  The choice makes no difference to the immediate dominators, although each node inherits
from the one chosen for it, and so on along a whole chain of choices.

The reason is that an immediate dominator can be told from the tree and the semidominators alone.
Think of an edge from each semidominator to its node.  A `Bottleneck` above a node is an ancestor
that none of these edges leads past on the way down to the node.  A node has the same bottlenecks
as any node it may inherit from, and if it inherits from none, its semidominator is the lowest.  So
every chain of choices ends at the lowest bottleneck.
-/

namespace FlowDominance

open FlowGraph

namespace RelativeDominator

variable {numbering : Numbering} {start node relative upper lower : Node} {value : Node → Node}

/-- `choice` may take the place of the relative dominator of `node`: it is one of the nodes between
`node` and its semidominator whose semidominators were discovered first, if that was before the
semidominator of `node`. -/
def Admits (numbering : Numbering) (value : Node → Node) (node : Node) : Option Node → Prop
  | none => ∀ middle, numbering.Between (value node) middle node →
      numbering.rank (value node) ≤ numbering.rank (value middle)
  | some choice => numbering.Between (value node) choice node ∧
      numbering.rank (value choice) < numbering.rank (value node) ∧
        ∀ middle, numbering.Between (value node) middle node →
          numbering.rank (value choice) ≤ numbering.rank (value middle)

/-- `upper` is above `lower`, and no node on the way from `lower` up to it, itself excluded, has a
semidominator that was discovered before it. -/
structure Bottleneck (numbering : Numbering) (value : Node → Node) (upper lower : Node) :
    Prop where
  properAncestor : numbering.ProperAncestor upper lower
  rank_le : ∀ middle, numbering.ProperAncestor upper middle → numbering.Ancestor middle lower →
    numbering.rank upper ≤ numbering.rank (value middle)

structure LowestBottleneck (numbering : Numbering) (value : Node → Node)
    (lowest lower : Node) : Prop where
  bottleneck : Bottleneck numbering value lowest lower
  rank_le : ∀ upper, Bottleneck numbering value upper lower →
    numbering.rank upper ≤ numbering.rank lowest

theorem IsRelative.admits {relative : Option Node}
    (isRelative : IsRelative numbering value node relative) :
    Admits numbering value node relative := by
  cases relative with
  | none => exact isRelative
  | some relative =>
      obtain ⟨between, earlier, least⟩ := isRelative
      exact ⟨between, earlier, fun middle member => (least middle member).1⟩

section

variable (lawful : numbering.Lawful start)
include lawful

theorem LowestBottleneck.unique {first second : Node}
    (isFirst : LowestBottleneck numbering value first lower)
    (isSecond : LowestBottleneck numbering value second lower) : first = second := by
  have after := isFirst.rank_le second isSecond.bottleneck
  have before := isSecond.rank_le first isFirst.bottleneck
  have positive := lawful.rank_pos_of_properAncestor isFirst.bottleneck.properAncestor
  exact lawful.eq_of_rank_eq positive (by omega)

omit lawful in
theorem Bottleneck.rank_le_value (bottleneck : Bottleneck numbering value upper node) :
    numbering.rank upper ≤ numbering.rank (value node) :=
  bottleneck.rank_le node bottleneck.properAncestor .refl

omit lawful in
theorem lowestBottleneck_of_admits_none (proper : numbering.ProperAncestor (value node) node)
    (admits : Admits numbering value node none) :
    LowestBottleneck numbering value (value node) node where
  bottleneck :=
    { properAncestor := proper
      rank_le := by
        intro middle below above
        rcases Numbering.ancestor_iff.mp above with rfl | higher
        · exact Nat.le_refl _
        · exact admits middle ⟨below, higher⟩ }
  rank_le _ bottleneck := bottleneck.rank_le_value

/-- A node has the bottlenecks of any node from which it may inherit. -/
theorem bottleneck_iff_of_admits_some (admits : Admits numbering value node (some relative)) :
    Bottleneck numbering value upper node ↔ Bottleneck numbering value upper relative := by
  obtain ⟨⟨semiAbove, relativeAbove⟩, earlier, least⟩ := admits
  have positive := lawful.rank_pos_of_properAncestor relativeAbove
  have nodePositive : 0 < numbering.rank node := by
    have := lawful.rank_lt_of_properAncestor relativeAbove
    omega
  constructor
  · intro bottleneck
    have toSemidominator := lawful.ancestor_of_rank_le bottleneck.properAncestor.ancestor
      (semiAbove.trans relativeAbove).ancestor nodePositive bottleneck.rank_le_value
    refine ⟨toSemidominator.trans_proper semiAbove, fun middle below above => ?_⟩
    exact bottleneck.rank_le middle below (above.trans relativeAbove.ancestor)
  · intro bottleneck
    refine ⟨bottleneck.properAncestor.trans relativeAbove, fun middle below above => ?_⟩
    rcases above.total relativeAbove.ancestor with higher | lower
    · exact bottleneck.rank_le middle below higher
    · have bound := bottleneck.rank_le_value
      rcases Numbering.ancestor_iff.mp above with rfl | middleAbove
      · omega
      · have := least middle ⟨semiAbove.trans_ancestor lower, middleAbove⟩
        omega

theorem lowestBottleneck_iff_of_admits_some
    (admits : Admits numbering value node (some relative)) :
    LowestBottleneck numbering value upper node ↔
      LowestBottleneck numbering value upper relative := by
  have same (other : Node) :
      Bottleneck numbering value other node ↔ Bottleneck numbering value other relative :=
    bottleneck_iff_of_admits_some lawful admits
  constructor
  · rintro ⟨bottleneck, last⟩
    exact ⟨(same upper).mp bottleneck, fun other member => last other ((same other).mpr member)⟩
  · rintro ⟨bottleneck, last⟩
    exact ⟨(same upper).mpr bottleneck, fun other member => last other ((same other).mp member)⟩

theorem exists_lowestBottleneck {picked : Node → Option Node}
    (proper : ∀ node ∈ numbering.belowRoot, numbering.ProperAncestor (value node) node)
    (admits : ∀ node ∈ numbering.belowRoot, Admits numbering value node (picked node))
    (below : node ∈ numbering.belowRoot) :
    ∃ lowest, LowestBottleneck numbering value lowest node := by
  induction rank : numbering.rank node using Nat.strongRecOn generalizing node with
  | ind _ inductionHypothesis =>
      have admitted := admits node below
      cases choice : picked node with
      | none =>
          rw [choice] at admitted
          exact ⟨_, lowestBottleneck_of_admits_none (proper node below) admitted⟩
      | some relative =>
          rw [choice] at admitted
          have between := admitted.1
          have smaller := lawful.rank_lt_of_properAncestor between.2
          have relativeBelow := lawful.mem_belowRoot_iff.mpr
            ⟨lawful.rank_pos_of_properAncestor between.2,
              lawful.ne_start_of_properAncestor between.1⟩
          obtain ⟨lowest, isLowest⟩ := inductionHypothesis _ (by omega) relativeBelow rfl
          exact ⟨lowest, (lowestBottleneck_iff_of_admits_some lawful admitted).mpr isLowest⟩

theorem exists_lowestBottlenecks {picked : Node → Option Node}
    (proper : ∀ node ∈ numbering.belowRoot, numbering.ProperAncestor (value node) node)
    (admits : ∀ node ∈ numbering.belowRoot, Admits numbering value node (picked node)) :
    ∃ lowest : Node → Node, ∀ node ∈ numbering.belowRoot,
      LowestBottleneck numbering value (lowest node) node := by
  have each (node : Node) : ∃ lowest, node ∈ numbering.belowRoot →
      LowestBottleneck numbering value lowest node := by
    by_cases below : node ∈ numbering.belowRoot
    · obtain ⟨lowest, isLowest⟩ := exists_lowestBottleneck lawful proper admits below
      exact ⟨lowest, fun _ => isLowest⟩
    · exact ⟨node, fun member => absurd member below⟩
  exact Classical.axiomOfChoice each

theorem Tabulates.admits {relatives : NodeMap (Option Node)}
    (tabulates : Tabulates numbering start value relatives) (below : node ∈ numbering.belowRoot) :
    relatives.find? node = some ((relatives.find? node).getD none) ∧
      Admits numbering value node ((relatives.find? node).getD none) := by
  obtain ⟨positive, apart⟩ := lawful.mem_belowRoot_iff.mp below
  obtain ⟨relative, read, isRelative⟩ := tabulates.isRelative node positive apart
  rw [read]
  exact ⟨rfl, isRelative.admits⟩

end

end RelativeDominator

namespace ImmediateDominator

open RelativeDominator

variable {numbering : Numbering} {start node : Node} {semi : NodeMap Node}
  {choice idom : NodeMap (Option Node)} {value lowest : Node → Node} {picked : Node → Option Node}
  {done rest : List Node} {records : Array Record}

/-- The nodes in `done` have received the dominators that `lowest` gives them, one record each, and
all other nodes have none. -/
structure Settled (numbering : Numbering) (lowest : Node → Node) (done : List Node)
    (idom : NodeMap (Option Node)) (records : Array Record) : Prop where
  size_eq : idom.size = numbering.nodeCount
  find?_eq : ∀ node, node.index < numbering.nodeCount →
    idom.find? node = some (if node ∈ done then some (lowest node) else none)
  records_eq : records.toList = done.map fun node => .immediateDominator node (lowest node)

theorem settled_start (numbering : Numbering) (lowest : Node → Node) :
    Settled numbering lowest [] (.replicate numbering.nodeCount none) #[] where
  size_eq := NodeMap.size_replicate _ _
  find?_eq node inside := by simp [NodeMap.find?_replicate, inside]
  records_eq := rfl

/-- What has been settled, and in which order, fixes the table and the records. -/
theorem Settled.unique {other : NodeMap (Option Node)} {noted : Array Record}
    (settled : Settled numbering lowest done idom records)
    (again : Settled numbering lowest done other noted) : idom = other ∧ records = noted := by
  constructor
  · apply NodeMap.ext_find?
    intro node
    by_cases inside : node.index < numbering.nodeCount
    · rw [settled.find?_eq node inside, again.find?_eq node inside]
    · have outside := settled.size_eq ▸ Nat.le_of_not_lt inside
      have otherOutside := again.size_eq ▸ Nat.le_of_not_lt inside
      rw [NodeMap.find?_eq_none_iff.mpr outside, NodeMap.find?_eq_none_iff.mpr otherOutside]
  · apply Array.toList_inj.mp
    rw [settled.records_eq, again.records_eq]

theorem Settled.settle (settled : Settled numbering lowest done idom records)
    (inside : node.index < numbering.nodeCount)
    (found : find semi choice idom node = .ok (lowest node)) :
    ∃ next record, settle semi choice idom node = .ok (next, record) ∧
      Settled numbering lowest (done ++ [node]) next (records.push record) := by
  obtain ⟨written, success⟩ := NodeMap.exists_write_of_lt (some (lowest node))
    (settled.size_eq ▸ inside)
  refine ⟨written, .immediateDominator node (lowest node), ?_, ?_⟩
  · simp only [ImmediateDominator.settle, found, success]
  · refine
      { size_eq := (NodeMap.size_of_write success).trans settled.size_eq
        find?_eq := ?_
        records_eq := ?_ }
    · intro other otherInside
      rw [NodeMap.find?_of_write success, settled.find?_eq other otherInside]
      by_cases same : other = node
      · simp [same]
      · simp [same]
    · rw [Array.toList_push, settled.records_eq, List.map_append, List.map_singleton]

section

variable (lawful : numbering.Lawful start)
  (reads : ∀ node ∈ numbering.belowRoot, semi.find? node = some (value node) ∧
    numbering.ProperAncestor (value node) node)
  (chosen : ∀ node ∈ numbering.belowRoot, choice.find? node = some (picked node) ∧
    Admits numbering value node (picked node))
  (isLowest : ∀ node ∈ numbering.belowRoot, LowestBottleneck numbering value (lowest node) node)
include lawful reads chosen isLowest

/-- The dominator found for a node is its lowest bottleneck, whatever was chosen for it. -/
theorem find_of_admits (split : numbering.belowRoot = done ++ node :: rest)
    (settled : Settled numbering lowest done idom records) :
    find semi choice idom node = .ok (lowest node) := by
  have below : node ∈ numbering.belowRoot := by simp [split]
  obtain ⟨semiFound, proper⟩ := reads node below
  obtain ⟨choiceFound, admitted⟩ := chosen node below
  have choiceRead := NodeMap.read_eq_ok_iff.mpr choiceFound
  cases pick : picked node with
  | none =>
      rw [pick] at admitted choiceRead
      have direct := lowestBottleneck_of_admits_none proper admitted
      rw [find, choiceRead, (isLowest node below).unique lawful direct]
      exact NodeMap.read_eq_ok_iff.mpr semiFound
  | some relative =>
      rw [pick] at admitted choiceRead
      have between := admitted.1
      have positive := lawful.rank_pos_of_properAncestor between.2
      have earlier : relative ∈ done := (lawful.mem_before_iff split).mpr
        ⟨positive, lawful.ne_start_of_properAncestor between.1,
          lawful.rank_lt_of_properAncestor between.2⟩
      have relativeBelow : relative ∈ numbering.belowRoot := by simp [split, earlier]
      have inherited := (lowestBottleneck_iff_of_admits_some lawful admitted).mpr
        (isLowest relative relativeBelow)
      have relativeFound := settled.find?_eq relative (Numbering.lt_nodeCount_of_rank_pos positive)
      rw [if_pos earlier, ← (isLowest node below).unique lawful inherited] at relativeFound
      have relativeRead := NodeMap.read_eq_ok_iff.mpr relativeFound
      rw [find, choiceRead]
      simp only [bind, Except.bind, relativeRead]
      rfl

theorem immediateDominators_of_admits :
    ∃ idom records, immediateDominators numbering semi choice = ⟨records, .ok idom⟩ ∧
      Settled numbering lowest numbering.belowRoot idom records := by
  have settles (done : List Node) (node : Node) (rest : List Node) (idom : NodeMap (Option Node))
      (records : Array Record) (split : numbering.belowRoot = done ++ node :: rest)
      (settled : Settled numbering lowest done idom records) :
      ∃ next record, settle semi choice idom node = .ok (next, record) ∧
        Settled numbering lowest (done ++ [node]) next (records.push record) := by
    have positive := (lawful.mem_belowRoot_iff.mp (by simp [split] : node ∈ _)).1
    exact settled.settle (Numbering.lt_nodeCount_of_rank_pos positive)
      (find_of_admits lawful reads chosen isLowest split settled)
  exact Traced.foldNoting_succeeds (settle semi choice) (Settled numbering lowest)
    numbering.belowRoot settles _ (settled_start numbering lowest)

end

variable {graph : FlowGraph}

/-- Whichever of the nodes with the first semidominators is chosen for each node, immediate
dominators are found, and they are those found with the lowest chosen everywhere.  The two runs
note the same. -/
theorem immediateDominators_of_any_choice (inside : graph.contains start = true)
    (numbered : graph.number start = .ok numbering)
    (reads : ∀ node, numbering.contains node = true → node ≠ start →
      semi.find? node = some (value node) ∧ numbering.ProperAncestor (value node) node)
    (chosen : ∀ node, numbering.contains node = true → node ≠ start →
      choice.find? node = some (picked node) ∧ Admits numbering value node (picked node)) :
    ∃ relatives idom, relativeDominators numbering semi = .ok relatives ∧
      (immediateDominators numbering semi choice).outcome = .ok idom ∧
      immediateDominators numbering semi choice = immediateDominators numbering semi relatives := by
  have lawful := (depthFirst_of_number_eq_ok inside numbered).lawful
  have discovered (node : Node) :
      node ∈ numbering.belowRoot ↔ numbering.contains node = true ∧ node ≠ start := by
    rw [lawful.mem_belowRoot_iff, lawful.contains_iff_rank_pos]
  have readsBelow (node : Node) (below : node ∈ numbering.belowRoot) :=
    reads node ((discovered node).mp below).1 ((discovered node).mp below).2
  have chosenBelow (node : Node) (below : node ∈ numbering.belowRoot) :=
    chosen node ((discovered node).mp below).1 ((discovered node).mp below).2
  have proper (node : Node) (below : node ∈ numbering.belowRoot) := (readsBelow node below).2
  have tableReads : numbering.ReadsBelow start semi value :=
    { find?_eq := fun node positive apart =>
        (readsBelow node (lawful.mem_belowRoot_iff.mpr ⟨positive, apart⟩)).1
      rank_pos := fun node positive apart => lawful.rank_pos_of_properAncestor
        (proper node (lawful.mem_belowRoot_iff.mpr ⟨positive, apart⟩)) }
  obtain ⟨relatives, searched, tabulates⟩ :=
    relativeDominators_of_properAncestor lawful tableReads proper
  obtain ⟨lowest, isLowest⟩ := exists_lowestBottlenecks lawful proper
    fun node below => (chosenBelow node below).2
  obtain ⟨idom, records, run, settled⟩ :=
    immediateDominators_of_admits lawful readsBelow chosenBelow isLowest
  obtain ⟨other, noted, otherRun, again⟩ := immediateDominators_of_admits lawful readsBelow
    (fun node => tabulates.admits lawful) isLowest
  obtain ⟨rfl, rfl⟩ := settled.unique again
  refine ⟨relatives, idom, searched, ?_, ?_⟩
  · rw [run]
  · rw [run, otherRun]

/-- A choice that takes the higher of the two nodes with the same entry in `tied`. -/
def higherChoice : NodeMap (Option Node) :=
  ⟨#[some ⟨9⟩, none, none, none, some ⟨2⟩, none]⟩

/-- The search would have taken `n3`, which inherits from none; `n2` leads to the same result. -/
theorem higherChoice_makes_no_difference :
    ∃ idom, (immediateDominators chainNumbering tied higherChoice).outcome = .ok idom ∧
      immediateDominators chainNumbering tied higherChoice =
        immediateDominators chainNumbering tied
          ⟨#[none, none, none, none, some ⟨3⟩, none]⟩ := by
  let entry (node : Node) : Node := (tied.find? node).getD node
  let taken (node : Node) : Option Node := (higherChoice.find? node).getD none
  have lawful := (depthFirst_of_number_eq_ok (by decide) number_chain).lawful
  have cases {node : Node} (discovered : chainNumbering.contains node = true)
      (apart : node ≠ ⟨0⟩) : node = ⟨1⟩ ∨ node = ⟨2⟩ ∨ node = ⟨3⟩ ∨ node = ⟨4⟩ := by
    have below := Node.mem_below.mpr (Numbering.lt_nodeCount_of_contains discovered)
    have listed : ∀ node ∈ Node.below 6, chainNumbering.contains node = true → node ≠ ⟨0⟩ →
      node = ⟨1⟩ ∨ node = ⟨2⟩ ∨ node = ⟨3⟩ ∨ node = ⟨4⟩ := by decide
    exact listed node below discovered apart
  have first {upper middle lower : Node} (between : chainNumbering.Between upper middle lower) :
      chainNumbering.rank ⟨0⟩ ≤ chainNumbering.rank (entry middle) := by
    have discovered := lawful.contains_iff_rank_pos.mpr
      (lawful.rank_pos_of_properAncestor between.2)
    rcases cases discovered (lawful.ne_start_of_properAncestor between.1) with
      rfl | rfl | rfl | rfl <;> decide
  have reads (node : Node) (discovered : chainNumbering.contains node = true)
      (apart : node ≠ ⟨0⟩) :
      tied.find? node = some (entry node) ∧
        chainNumbering.ProperAncestor (entry node) node := by
    rcases cases discovered apart with rfl | rfl | rfl | rfl
    · exact ⟨rfl, ⟨0⟩, rfl, .refl⟩
    · exact ⟨rfl, ⟨1⟩, rfl, .step rfl .refl⟩
    · exact ⟨rfl, ⟨2⟩, rfl, .step rfl (.step rfl .refl)⟩
    · exact ⟨rfl, ⟨3⟩, rfl, .step rfl (.step rfl .refl)⟩
  have chosen (node : Node) (discovered : chainNumbering.contains node = true)
      (apart : node ≠ ⟨0⟩) :
      higherChoice.find? node = some (taken node) ∧
        Admits chainNumbering entry node (taken node) := by
    rcases cases discovered apart with rfl | rfl | rfl | rfl
    · exact ⟨rfl, fun _ => first⟩
    · exact ⟨rfl, fun _ => first⟩
    · exact ⟨rfl, fun _ => first⟩
    · exact ⟨rfl, ⟨⟨⟨1⟩, rfl, .refl⟩, ⟨3⟩, rfl, .step rfl .refl⟩, by decide, fun _ => first⟩
  obtain ⟨relatives, idom, searched, ended, same⟩ :=
    immediateDominators_of_any_choice (by decide) number_chain reads chosen
  have lowest : relativeDominators chainNumbering tied =
      .ok ⟨#[none, none, none, none, some ⟨3⟩, none]⟩ := by cbv
  rw [lowest] at searched
  cases searched
  exact ⟨idom, ended, same⟩

end ImmediateDominator

end FlowDominance
