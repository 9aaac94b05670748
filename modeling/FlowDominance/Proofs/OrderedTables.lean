import FlowDominance.Analysis
import FlowDominance.Proofs.CheckedNumbering
import FlowDominance.Proofs.DepthFirstSearch
import FlowDominance.Proofs.WalkLimits

/-!
# Tables in the order of discovery

The two tables that `Analysis.check` looks at may hold anything, also nodes that no graph has.  It
asks of each node below the entry whether its semidominator and its immediate dominator were
discovered before it, and it stops at the first node for which this fails.

If it fails for none, the immediate dominators form a tree.  Only nodes that were discovered are
linked and linked to, so the tree can be built, and positions fall on every way up, so each leads to
the entry in fewer steps than there are nodes.  The check of the tree comes last and has nothing
left to report.
-/

namespace FlowDominance

open Node

namespace Numbering

variable {numbering : Numbering} {node other : Node} {position : Nat}

theorem precedes_iff_discoveredBefore (placed : numbering.position? node = some position) :
    numbering.precedes other position = true ↔ numbering.DiscoveredBefore other node := by
  rw [precedes_iff]
  constructor
  · rintro ⟨earlier, otherPlaced, before⟩
    exact ⟨earlier, position, otherPlaced, placed, before⟩
  · rintro ⟨earlier, later, otherPlaced, alsoPlaced, before⟩
    rw [placed] at alsoPlaced
    cases alsoPlaced
    exact ⟨earlier, otherPlaced, before⟩

end Numbering

theorem DominatorTree.exists_adopt {idom : NodeMap (Option Node)}
    {children : NodeMap (Array Node)} {node : Node}
    (inside : node.index < idom.size)
    (parentInside : ∀ parent, (idom.find? node).join = some parent →
      parent.index < children.size) :
    ∃ next, adopt idom children node = .ok next ∧ next.size = children.size := by
  obtain ⟨entry, found⟩ := NodeMap.exists_find?_of_lt inside
  have read := NodeMap.read_eq_ok_iff.mpr found
  rw [adopt, read]
  cases entry with
  | none => exact ⟨children, rfl, rfl⟩
  | some parent =>
      obtain ⟨next, success⟩ :=
        NodeMap.exists_update_of_lt (·.push node) (parentInside parent (by rw [found]; rfl))
      exact ⟨next, success, NodeMap.size_of_update success⟩

namespace Analysis

variable {analysis : Analysis} {tree : DominatorTree} {start node semidominator : Node}
  {position : Nat} {violation : Violation}

/-- The semidominator and the immediate dominator of `node` were discovered before it. -/
structure InOrder (analysis : Analysis) (node : Node) : Prop where
  semidominator : ∃ semidominator, analysis.semi.find? node = some semidominator ∧
    analysis.numbering.DiscoveredBefore semidominator node
  dominator : ∃ dominator, analysis.idom? node = some dominator ∧
    analysis.numbering.DiscoveredBefore dominator node

/-- `violation` is what is first found wrong with the entries of `node`.  The semidominator is
looked at before the immediate dominator. -/
inductive OutOfOrder (analysis : Analysis) (node : Node) : Violation → Prop where
  | lateSemidominator {semidominator : Node} :
      analysis.semi.find? node = some semidominator →
      ¬ analysis.numbering.DiscoveredBefore semidominator node →
        OutOfOrder analysis node (.lateSemidominator node semidominator)
  | missingDominator {semidominator : Node} :
      analysis.semi.find? node = some semidominator →
      analysis.numbering.DiscoveredBefore semidominator node →
      analysis.idom? node = none →
        OutOfOrder analysis node (.missingDominator node)
  | lateDominator {semidominator dominator : Node} :
      analysis.semi.find? node = some semidominator →
      analysis.numbering.DiscoveredBefore semidominator node →
      analysis.idom? node = some dominator →
      ¬ analysis.numbering.DiscoveredBefore dominator node →
        OutOfOrder analysis node (.lateDominator node dominator)

def FirstOutOfOrder (analysis : Analysis) (node : Node) (violation : Violation) : Prop :=
  analysis.OutOfOrder node violation ∧
    ∃ before after, analysis.numbering.belowRoot = before ++ node :: after ∧
      ∀ other ∈ before, analysis.InOrder other

theorem OutOfOrder.not_inOrder (outOfOrder : analysis.OutOfOrder node violation) :
    ¬ analysis.InOrder node := by
  rintro ⟨⟨semidominator, read, earlier⟩, dominator, named, before⟩
  cases outOfOrder with
  | lateSemidominator found late =>
      rw [read] at found
      cases found
      exact late earlier
  | missingDominator _ _ missing =>
      rw [named] at missing
      cases missing
  | lateDominator _ _ found late =>
      rw [named] at found
      cases found
      exact late before

theorem OutOfOrder.stage_ne_tree (outOfOrder : analysis.OutOfOrder node violation) :
    violation.stage ≠ .tree := by
  cases outOfOrder <;> exact nofun

theorem FirstOutOfOrder.mem_belowRoot (first : analysis.FirstOutOfOrder node violation) :
    node ∈ analysis.numbering.belowRoot := by
  obtain ⟨-, before, after, split, -⟩ := first
  simp [split]

theorem FirstOutOfOrder.rank_le {other : Node} (first : analysis.FirstOutOfOrder node violation)
    (lawful : analysis.numbering.Lawful start) (below : other ∈ analysis.numbering.belowRoot)
    (late : ¬ analysis.InOrder other) :
    analysis.numbering.rank node ≤ analysis.numbering.rank other := by
  obtain ⟨-, before, after, split, earlier⟩ := first
  by_contra smaller
  obtain ⟨positive, apart⟩ := lawful.mem_belowRoot_iff.mp below
  exact late (earlier other ((lawful.mem_before_iff split).mpr
    ⟨positive, apart, Nat.lt_of_not_le smaller⟩))

/-! ### The entries of one node -/

/-- The check of a node tells whether its entries are in order, and if not, what is wrong. -/
theorem checkPlaced_spec (placed : analysis.numbering.position? node = some position)
    (read : analysis.semi.find? node = some semidominator) :
    (analysis.checkPlaced (node, position) = .ok () ∧ analysis.InOrder node) ∨
    ∃ violation, analysis.checkPlaced (node, position) = .error (.inconsistent violation) ∧
      analysis.OutOfOrder node violation := by
  have precedes {other : Node} : analysis.numbering.precedes other position = true ↔
      analysis.numbering.DiscoveredBefore other node :=
    Numbering.precedes_iff_discoveredBefore placed
  rw [checkPlaced, NodeMap.read_eq_ok_iff.mpr read]
  by_cases earlier : analysis.numbering.DiscoveredBefore semidominator node
  · cases named : analysis.idom? node with
    | none =>
        refine .inr ⟨_, ?_, .missingDominator read earlier named⟩
        simp [precedes.mpr earlier, bind, Except.bind, throw, throwThe, MonadExceptOf.throw]
    | some dominator =>
        by_cases before : analysis.numbering.DiscoveredBefore dominator node
        · refine .inl ⟨?_, ⟨semidominator, read, earlier⟩, dominator, named, before⟩
          simp [precedes.mpr earlier, precedes.mpr before, bind, Except.bind, pure, Except.pure]
        · refine .inr ⟨_, ?_, .lateDominator read earlier named before⟩
          have late := Bool.eq_false_iff.mpr (mt precedes.mp before)
          simp [precedes.mpr earlier, late, bind, Except.bind, throw, throwThe, MonadExceptOf.throw]
  · refine .inr ⟨_, ?_, .lateSemidominator read earlier⟩
    have late := Bool.eq_false_iff.mpr (mt precedes.mp earlier)
    simp [late, bind, Except.bind, throw, throwThe, MonadExceptOf.throw]

/-! ### The tree -/

/-- A tree can be built as soon as the nodes to be linked, and those to which they are linked, have
cells in the table of immediate dominators. -/
theorem exists_tree_of_fitting
    (fits : ∀ node ∈ analysis.numbering.belowRoot, node.index < analysis.idom.size)
    (dominatorFits : ∀ node ∈ analysis.numbering.belowRoot, ∀ dominator,
      analysis.idom? node = some dominator → dominator.index < analysis.idom.size) :
    ∃ tree, analysis.tree = .ok tree := by
  have adopted (done : List Node) (node : Node) (rest : List Node)
      (children : NodeMap (Array Node))
      (split : analysis.numbering.belowRoot = done ++ node :: rest)
      (size : children.size = analysis.idom.size) :
      ∃ next, DominatorTree.adopt analysis.idom children node = .ok next ∧
        next.size = analysis.idom.size := by
    have below : node ∈ analysis.numbering.belowRoot := by simp [split]
    rw [← size]
    apply DominatorTree.exists_adopt (fits node below)
    intro parent found
    rw [size]
    exact dominatorFits node below parent found
  obtain ⟨children, folded, -⟩ := foldlM_succeeds (DominatorTree.adopt analysis.idom)
    (fun _ children => children.size = analysis.idom.size) analysis.numbering.belowRoot adopted
    (.replicate analysis.idom.size #[]) (NodeMap.size_replicate _ _)
  refine ⟨⟨analysis.numbering.root?.getD ⟨0⟩, analysis.idom, children,
    analysis.numbering.order⟩, ?_⟩
  rw [Analysis.tree, DominatorTree.build, folded]
  rfl

theorem eq_of_tree (built : analysis.tree = .ok tree) :
    tree.entry = analysis.numbering.root?.getD ⟨0⟩ ∧ tree.idom = analysis.idom ∧
      tree.order = analysis.numbering.order := by
  rw [Analysis.tree, DominatorTree.build] at built
  cases adopted : analysis.numbering.belowRoot.foldlM (DominatorTree.adopt analysis.idom)
      (.replicate analysis.idom.size #[]) with
  | error fault =>
      rw [adopted] at built
      cases built
  | ok children =>
      rw [adopted] at built
      cases built
      exact ⟨rfl, rfl, rfl⟩

theorem idom?_of_tree (built : analysis.tree = .ok tree) (node : Node) :
    tree.idom? node = analysis.idom? node := by
  rw [DominatorTree.idom?, (eq_of_tree built).2.1, idom?]

section

variable (lawful : analysis.numbering.Lawful start)
include lawful

theorem exists_tree_of_inOrder (idomSize : analysis.idom.size = analysis.numbering.nodeCount)
    (ordered : ∀ node ∈ analysis.numbering.belowRoot, analysis.InOrder node) :
    ∃ tree, analysis.tree = .ok tree := by
  apply exists_tree_of_fitting
  · intro node below
    rw [idomSize]
    exact Numbering.lt_nodeCount_of_rank_pos (lawful.mem_belowRoot_iff.mp below).1
  · intro node below dominator found
    obtain ⟨-, named, read, before⟩ := ordered node below
    rw [found] at read
    cases read
    rw [idomSize]
    exact Numbering.lt_nodeCount_of_rank_pos (lawful.discoveredBefore_iff.mp before).1

/-- Positions fall on the way up from each node, so there are enough steps for it. -/
theorem arrives_of_inOrder (built : analysis.tree = .ok tree)
    (ordered : ∀ node ∈ analysis.numbering.belowRoot, analysis.InOrder node)
    (positive : 0 < analysis.numbering.rank node) : tree.Arrives tree.size node := by
  have entry : tree.entry = start := by
    rw [(eq_of_tree built).1, lawful.root?_eq, Option.getD_some]
  have falls (other : Node) (discovered : 0 < analysis.numbering.rank other)
      (apart : ¬ other = tree.entry) :
      ∃ next, tree.idom? other = some next ∧ 0 < analysis.numbering.rank next ∧
        analysis.numbering.rank next < analysis.numbering.rank other := by
    rw [entry] at apart
    obtain ⟨-, dominator, named, before⟩ :=
      ordered other (lawful.mem_belowRoot_iff.mpr ⟨discovered, apart⟩)
    rw [idom?_of_tree built]
    exact ⟨dominator, named, lawful.discoveredBefore_iff.mp before⟩
  obtain ⟨steps, last, reached, arrived, short, -⟩ := exists_follow_of_falls falls positive
  have few : analysis.numbering.rank node ≤ tree.size := by
    rw [DominatorTree.size, (eq_of_tree built).2.2]
    exact lawful.rank_le_size
  exact ⟨steps, by omega, by rw [reached, arrived]⟩

theorem exists_checked_tree (idomSize : analysis.idom.size = analysis.numbering.nodeCount)
    (ordered : ∀ node ∈ analysis.numbering.belowRoot, analysis.InOrder node) :
    ∃ tree, analysis.tree = .ok tree ∧ tree.check = .ok () := by
  obtain ⟨tree, built⟩ := exists_tree_of_inOrder lawful idomSize ordered
  refine ⟨tree, built, DominatorTree.check_eq_ok_iff.mpr fun node member => ?_⟩
  rw [DominatorTree.nodes, (eq_of_tree built).2.2] at member
  exact arrives_of_inOrder lawful built ordered (lawful.mem_order_iff.mp member)

/-! ### The whole check -/

variable (semiSize : analysis.semi.size = analysis.numbering.nodeCount)
include semiSize

theorem forM_checkPlaced_spec :
    (analysis.numbering.placedBelowRoot.forM analysis.checkPlaced = .ok () ∧
      ∀ node ∈ analysis.numbering.belowRoot, analysis.InOrder node) ∨
    ∃ node violation, analysis.FirstOutOfOrder node violation ∧
      analysis.numbering.placedBelowRoot.forM analysis.checkPlaced =
        .error (.inconsistent violation) := by
  have decides (node : Node) (below : node ∈ analysis.numbering.belowRoot) :
      (analysis.checkPlaced (node, analysis.numbering.rank node) = .ok () ∧
        analysis.InOrder node) ∨
      ∃ fault, analysis.checkPlaced (node, analysis.numbering.rank node) = .error fault ∧
        ∃ violation, analysis.OutOfOrder node violation ∧ fault = .inconsistent violation := by
    have positive := (lawful.mem_belowRoot_iff.mp below).1
    obtain ⟨semidominator, read⟩ := Numbering.exists_find?_of_rank_pos semiSize positive
    rcases checkPlaced_spec (lawful.position?_eq_some_iff.mpr ⟨positive, rfl⟩) read with
      passed | ⟨violation, failed, outOfOrder⟩
    · exact .inl passed
    · exact .inr ⟨_, failed, violation, outOfOrder, rfl⟩
  rw [lawful.placedBelowRoot_eq_map, List.forM_eq_forM, List.forM_map]
  rcases forM_spec decides with
    passed | ⟨before, node, after, _, split, earlier, ⟨violation, outOfOrder, rfl⟩, failed⟩
  · exact .inl passed
  · exact .inr ⟨node, violation, ⟨outOfOrder, before, after, split, earlier⟩, failed⟩

/-- The check passes or reports the first node whose entries are not in order. -/
theorem check_spec (idomSize : analysis.idom.size = analysis.numbering.nodeCount) :
    (analysis.check = .ok () ∧ ∀ node ∈ analysis.numbering.belowRoot, analysis.InOrder node) ∨
    ∃ node violation, analysis.FirstOutOfOrder node violation ∧
      analysis.check = .error (.inconsistent violation) := by
  rcases forM_checkPlaced_spec lawful semiSize with
    ⟨passed, ordered⟩ | ⟨node, violation, first, failed⟩
  · obtain ⟨tree, built, walks⟩ := exists_checked_tree lawful idomSize ordered
    refine .inl ⟨?_, ordered⟩
    simp [check, passed, built, walks, bind, Except.bind]
  · refine .inr ⟨node, violation, first, ?_⟩
    simp [check, failed, bind, Except.bind]

theorem check_eq_ok_iff (idomSize : analysis.idom.size = analysis.numbering.nodeCount) :
    analysis.check = .ok () ↔ ∀ node ∈ analysis.numbering.belowRoot, analysis.InOrder node := by
  rcases check_spec lawful semiSize idomSize with
    ⟨passed, ordered⟩ | ⟨node, violation, first, failed⟩
  · exact ⟨fun _ => ordered, fun _ => passed⟩
  · rw [failed]
    exact ⟨nofun, fun ordered => absurd (ordered node first.mem_belowRoot) first.1.not_inOrder⟩

end

/-- What the check makes of two tables of the right size, whatever they hold, if the numbering is
that of a traversal.  It accepts them exactly if the entries of all reached nodes but the entry come
before their nodes.  Otherwise it reports what is first found wrong with the first node whose
entries do not.  Once it is done with the nodes, the tree can be built and all its nodes come up to
the entry. -/
theorem check_accepts_ordered_tables {graph : FlowGraph} (inside : graph.contains start = true)
    (numbered : graph.number start = .ok analysis.numbering)
    (semiSize : analysis.semi.size = graph.nodeCount)
    (idomSize : analysis.idom.size = graph.nodeCount) :
    (analysis.check = .ok () ↔
      ∀ node, analysis.contains node = true → node ≠ start → analysis.InOrder node) ∧
    (∀ fault, analysis.check = .error fault → ∃ node violation,
      analysis.contains node = true ∧ node ≠ start ∧ analysis.OutOfOrder node violation ∧
      (∀ other, analysis.contains other = true → other ≠ start → ¬ analysis.InOrder other →
        analysis.numbering.rank node ≤ analysis.numbering.rank other) ∧
      fault = .inconsistent violation ∧ violation.stage ≠ .tree) ∧
    (analysis.numbering.placedBelowRoot.forM analysis.checkPlaced = .ok () →
      ∃ tree, analysis.tree = .ok tree ∧ tree.check = .ok ()) := by
  have depthFirst := FlowGraph.depthFirst_of_number_eq_ok inside numbered
  have lawful := depthFirst.lawful
  have semiFits := semiSize.trans depthFirst.nodeCount_eq.symm
  have idomFits := idomSize.trans depthFirst.nodeCount_eq.symm
  have discovered (node : Node) : node ∈ analysis.numbering.belowRoot ↔
      analysis.contains node = true ∧ node ≠ start := by
    rw [lawful.mem_belowRoot_iff, contains, lawful.contains_iff_rank_pos]
  refine ⟨?_, ?_, ?_⟩
  · simp only [check_eq_ok_iff lawful semiFits idomFits, discovered, and_imp]
  · intro fault failed
    rcases check_spec lawful semiFits idomFits with ⟨passed, -⟩ | ⟨node, violation, first, reported⟩
    · rw [passed] at failed
      cases failed
    · rw [reported] at failed
      cases failed
      obtain ⟨known, apart⟩ := (discovered node).mp first.mem_belowRoot
      refine ⟨node, violation, known, apart, first.1, ?_, rfl, first.1.stage_ne_tree⟩
      intro other otherKnown otherApart late
      exact first.rank_le lawful ((discovered other).mpr ⟨otherKnown, otherApart⟩) late
  · intro passed
    rcases forM_checkPlaced_spec lawful semiFits with ⟨-, ordered⟩ | ⟨node, violation, -, failed⟩
    · exact exists_checked_tree lawful idomFits ordered
    · rw [passed] at failed
      cases failed

def detour : FlowGraph :=
  .ofAdjacency 4 (some ⟨0⟩) #[[⟨2⟩], [], [⟨1⟩], [⟨1⟩]] #[]

theorem number_detour : detour.number ⟨0⟩ = .ok Numbering.detourNumbering := by
  have discovered : detour.number ⟨0⟩ =
      Numbering.explore detour [⟨⟨1⟩, []⟩, ⟨⟨2⟩, []⟩, ⟨⟨0⟩, []⟩] Numbering.detourNumbering :=
    (Numbering.explore_step _ _ _ _ _ _).trans (Numbering.explore_step _ _ _ _ _ _)
  rw [discovered, Numbering.explore_pop, Numbering.explore_pop, Numbering.explore_pop,
    Numbering.explore_nil]

/-- Tables in which only the entries of `n1` and `n2` are those of nodes, with `dominator` for the
immediate dominator of `n2`. -/
def detourAnalysis (dominator : Node) : Analysis where
  numbering := Numbering.detourNumbering
  semi := ⟨#[⟨9⟩, ⟨0⟩, ⟨0⟩, ⟨9⟩]⟩
  idom := ⟨#[some ⟨7⟩, some ⟨2⟩, some dominator, some ⟨8⟩]⟩

/-- With the entry as dominator of `n2` the tables are accepted.  If `n1` and `n2` were to dominate
each other, the fault would be found at `n2`, and no tree would be built. -/
theorem detour_inOrder_and_outOfOrder :
    (∃ tree, (detourAnalysis ⟨0⟩).tree = .ok tree ∧ tree.check = .ok ()) ∧
      (detourAnalysis ⟨0⟩).InOrder ⟨1⟩ ∧
        (detourAnalysis ⟨1⟩).OutOfOrder ⟨2⟩ (.lateDominator ⟨2⟩ ⟨1⟩) := by
  have inside : detour.contains ⟨0⟩ = true := by decide
  have numbered (dominator : Node) :
      detour.number ⟨0⟩ = .ok (detourAnalysis dominator).numbering := number_detour
  obtain ⟨accepted, -, trees⟩ := check_accepts_ordered_tables inside (numbered ⟨0⟩) rfl rfl
  obtain ⟨-, reported, -⟩ := check_accepts_ordered_tables inside (numbered ⟨1⟩) rfl rfl
  refine ⟨trees rfl, accepted.mp rfl ⟨1⟩ (by decide) (by decide), ?_⟩
  have failed : (detourAnalysis ⟨1⟩).check =
      .error (.inconsistent (.lateDominator ⟨2⟩ ⟨1⟩)) := rfl
  obtain ⟨node, violation, -, -, outOfOrder, -, same, -⟩ := reported _ failed
  cases same
  cases outOfOrder with
  | lateDominator read earlier found late => exact .lateDominator read earlier found late

end Analysis

end FlowDominance
