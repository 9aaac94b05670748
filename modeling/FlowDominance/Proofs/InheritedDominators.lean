import FlowDominance.Proofs.ImmediateDominatorTable
import FlowDominance.Proofs.LinkWalks
import FlowDominance.Proofs.UpwardSearch

/-!
# Inherited dominators

A node that has a relative dominator inherits the immediate dominator of that one, which may have
inherited it in turn.  The table is filled in the order of discovery, and every entry is copied
when it is made, yet what a node ends up with can be told from the two given tables alone: it is
the semidominator of the last node of its chain of relative dominators.

Nothing needs to be known about the tables for this, and a damaged one is found out.  Settling
gets through exactly if every relative dominator comes before its node and is not the start, and
otherwise it ends at the first node for which this fails.
-/

namespace FlowDominance

open FlowGraph Node RelativeDominator

namespace ImmediateDominator

variable {numbering : Numbering} {start node : Node} {semi : NodeMap Node}
  {relatives idom : NodeMap (Option Node)} {value : Node → Node} {relation : Node → Option Node}

def relative? (relatives : NodeMap (Option Node)) (node : Node) : Option Node :=
  (relatives.find? node).join

/-- In a finished table a node has the entry of the last node of its chain. -/
theorem Solves.exists_last
    (solves : Solves numbering value relation numbering.belowRoot idom)
    (resolved : ∀ node ∈ numbering.belowRoot, Resolved numbering start relation node)
    (below : node ∈ numbering.belowRoot) :
    ∃ steps last, follow relation steps node = some last ∧ relation last = none ∧
      last ∈ numbering.belowRoot ∧ idom.find? node = some (some (value last)) := by
  have falls (other : Node)
      (holds : other ∈ numbering.belowRoot ∧ idom.find? other = idom.find? node)
      (goesOn : ¬ relation other = none) :
      ∃ next, relation other = some next ∧
        (next ∈ numbering.belowRoot ∧ idom.find? next = idom.find? node) ∧
          numbering.rank next < numbering.rank other := by
    obtain ⟨next, inherited⟩ := Option.ne_none_iff_exists'.mp goesOn
    obtain ⟨nextBelow, equal⟩ := solves.find?_of_some other holds.1 next inherited
    obtain ⟨-, -, earlier⟩ := resolved other holds.1 next inherited
    exact ⟨next, inherited, ⟨nextBelow, equal ▸ holds.2⟩, earlier⟩
  obtain ⟨steps, last, reached, stopped, -, inside⟩ := exists_follow_of_falls falls ⟨below, rfl⟩
  obtain ⟨passed, alsoReached, lastBelow, same⟩ := inside steps (Nat.le_refl _)
  rw [reached] at alsoReached
  cases alsoReached
  refine ⟨steps, last, reached, stopped, lastBelow, ?_⟩
  rw [← same, solves.find?_of_none last lastBelow stopped]

theorem readsAs_of_size (semiSize : semi.size = numbering.nodeCount)
    (relativesSize : relatives.size = numbering.nodeCount)
    (owned : ∀ node source, relative? relatives node = some source →
      source.index < numbering.nodeCount) :
    ReadsAs numbering semi relatives (fun node => (semi.find? node).getD node)
      (relative? relatives) where
  semi_eq node positive := by
    obtain ⟨semidominator, found⟩ := Numbering.exists_find?_of_rank_pos semiSize positive
    rw [found, Option.getD_some]
  relatives_eq node positive := by
    obtain ⟨relative, found⟩ := Numbering.exists_find?_of_rank_pos relativesSize positive
    rw [relative?, found, Option.join_some]
  inside node source _ named := owned node source named

variable {graph : FlowGraph}

/-- What settling yields with any table of semidominators and any table of relative dominators
that names nodes of the graph only.  It succeeds exactly if no node is to inherit from the start or
from one that was not discovered before it.  Then each node has received the semidominator of the
last node of its chain, and the start and the undiscovered nodes nothing.  Otherwise the first
node that is to inherit in vain is reported. -/
theorem immediateDominators_by_definition (inside : graph.contains start = true)
    (numbered : graph.number start = .ok numbering) (semiSize : semi.size = graph.nodeCount)
    (relativesSize : relatives.size = graph.nodeCount)
    (owned : ∀ node source, relative? relatives node = some source →
      graph.contains source = true) :
    ((∃ idom, (immediateDominators numbering semi relatives).outcome = .ok idom) ↔
      ∀ node, numbering.contains node = true → node ≠ start →
        Resolved numbering start (relative? relatives) node) ∧
    (∀ idom, (immediateDominators numbering semi relatives).outcome = .ok idom →
      idom.size = graph.nodeCount ∧
      (∀ node, numbering.contains node = true → node ≠ start → ∃ steps last dominator,
        follow (relative? relatives) steps node = some last ∧ relative? relatives last = none ∧
          semi.find? last = some dominator ∧ idom.find? node = some (some dominator)) ∧
      ∀ node, graph.contains node = true → numbering.contains node = false ∨ node = start →
        idom.find? node = some none) ∧
    ∀ fault, (immediateDominators numbering semi relatives).outcome = .error fault →
      ∃ node source, numbering.contains node = true ∧ node ≠ start ∧
        relative? relatives node = some source ∧
        ¬ Resolved numbering start (relative? relatives) node ∧
        (∀ other, numbering.contains other = true → other ≠ start →
          ¬ Resolved numbering start (relative? relatives) other →
            numbering.rank node ≤ numbering.rank other) ∧
        ∃ violation, fault = .inconsistent violation ∧
          violation = .unresolvedDominator source node ∧
          violation.stage = .immediateDominators ∧
          violation.message = s!"idom({source}) is needed by {node} before it is resolved" := by
  have depthFirst := depthFirst_of_number_eq_ok inside numbered
  have lawful := depthFirst.lawful
  have count : numbering.nodeCount = graph.nodeCount := depthFirst.nodeCount_eq
  have discovered (node : Node) :
      node ∈ numbering.belowRoot ↔ numbering.contains node = true ∧ node ≠ start := by
    rw [lawful.mem_belowRoot_iff, lawful.contains_iff_rank_pos]
  have reads := readsAs_of_size (semiSize.trans count.symm) (relativesSize.trans count.symm)
    fun node source named => count ▸ contains_iff.mp (owned node source named)
  rcases immediateDominators_spec lawful reads with
    ⟨idom, ended, solves, resolved⟩ |
    ⟨node, source, ended, positive, apart, inherited, unresolved, earlier⟩
  · rw [ended]
    refine ⟨⟨fun _ node known apart => resolved node ((discovered node).mpr ⟨known, apart⟩),
      fun _ => ⟨idom, rfl⟩⟩, ?_, nofun⟩
    rintro found ⟨⟩
    refine ⟨solves.size_eq.trans count, ?_, ?_⟩
    · intro node known apart
      obtain ⟨steps, last, reached, stopped, lastBelow, entered⟩ :=
        solves.exists_last resolved ((discovered node).mpr ⟨known, apart⟩)
      have read := reads.semi_eq last (lawful.mem_belowRoot_iff.mp lastBelow).1
      exact ⟨steps, last, _, reached, stopped, read, entered⟩
    · intro node owns unsettled
      apply solves.find?_rest node (count ▸ contains_iff.mp owns)
      rw [discovered]
      rintro ⟨known, apart⟩
      rcases unsettled with undiscovered | root
      · rw [undiscovered] at known
        cases known
      · exact apart root
  · rw [ended]
    have known := lawful.contains_iff_rank_pos.mpr positive
    refine ⟨⟨nofun, fun resolved => absurd (resolved node known apart) unresolved⟩, nofun, ?_⟩
    rintro fault ⟨⟩
    refine ⟨node, source, known, apart, inherited, unresolved, ?_, _, rfl, rfl, rfl, rfl⟩
    intro other otherKnown otherApart otherUnresolved
    by_contra later
    exact otherUnresolved (earlier other (lawful.contains_iff_rank_pos.mp otherKnown) otherApart
      (Nat.lt_of_not_le later))

/-- Semidominators of no particular meaning, one of which is no node of `chain`. -/
def meaningless : NodeMap Node :=
  ⟨#[⟨7⟩, ⟨9⟩, ⟨0⟩, ⟨5⟩, ⟨1⟩, ⟨3⟩]⟩

/-- In this table `n3` inherits from `n2`, and `n2` from `n1`; what it says of the start and of the
undiscovered `n5` is never read. -/
def handedDown : NodeMap (Option Node) :=
  ⟨#[some ⟨4⟩, none, some ⟨1⟩, some ⟨2⟩, none, some ⟨5⟩]⟩

/-- A table from which no node below `n1` can inherit: `n2` would come too early, `n3` depends on an
undiscovered node and `n4` on the start. -/
def premature : NodeMap (Option Node) :=
  ⟨#[none, none, some ⟨3⟩, some ⟨5⟩, some ⟨0⟩, none]⟩

/-- The entry that `n3` receives is the one that the first table has for the end of its chain.  With
the other relative dominators the first of the three faults is reported. -/
theorem handedDown_and_premature :
    (∃ steps last dominator, follow (relative? handedDown) steps ⟨3⟩ = some last ∧
      relative? handedDown last = none ∧ meaningless.find? last = some dominator ∧
        dominator = ⟨9⟩) ∧
    ¬ Resolved chainNumbering ⟨0⟩ (relative? premature) ⟨2⟩ := by
  have owned {table : NodeMap (Option Node)} (size : table.size = chain.nodeCount)
      (listed : ∀ node ∈ chain.nodes, (relative? table node).all chain.contains = true)
      (node source : Node) (named : relative? table node = some source) :
      chain.contains source = true := by
    have within : node ∈ chain.nodes := mem_nodes.mpr (size ▸ NodeMap.lt_size_of_join_find? named)
    have all := listed node within
    rwa [named, Option.all_some] at all
  have semiSize : meaningless.size = chain.nodeCount := rfl
  have firstSize : handedDown.size = chain.nodeCount := rfl
  have secondSize : premature.size = chain.nodeCount := rfl
  obtain ⟨-, tabulated, -⟩ := immediateDominators_by_definition (by decide) number_chain semiSize
    firstSize (owned firstSize (by decide))
  obtain ⟨-, -, reported⟩ := immediateDominators_by_definition (by decide) number_chain semiSize
    secondSize (owned secondSize (by decide))
  have settled : (immediateDominators chainNumbering meaningless handedDown).outcome =
      .ok ⟨#[none, some ⟨9⟩, some ⟨9⟩, some ⟨9⟩, some ⟨1⟩, none]⟩ := by cbv
  have failed : (immediateDominators chainNumbering meaningless premature).outcome =
      .error (.inconsistent (.unresolvedDominator ⟨3⟩ ⟨2⟩)) := by cbv
  constructor
  · obtain ⟨steps, last, dominator, reached, stopped, read, entered⟩ :=
      (tabulated _ settled).2.1 ⟨3⟩ (by decide) (by decide)
    have same : some (some (⟨9⟩ : Node)) = some (some dominator) := entered
    cases same
    exact ⟨steps, last, ⟨9⟩, reached, stopped, read, rfl⟩
  · obtain ⟨node, source, -, -, -, unresolved, -, violation, same, named, -⟩ := reported _ failed
    cases same
    rwa [(Violation.unresolvedDominator.inj named).2]

end ImmediateDominator

end FlowDominance
