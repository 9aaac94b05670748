import Mathlib
import FlowDominance.Proofs.DepthFirstSearch
import FlowDominance.Proofs.RelativeDominatorTable

/-!
# Searching upwards

The search for relative dominators goes up the tree from every node.  It relies on nothing but the
parents and on a table that gives every discovered node some discovered node, called its
semidominator here whatever it is.  If each of these is a proper ancestor of its node, the search
finds, between the two, the lowest of the nodes whose own semidominators come first; otherwise it
ends at the first node for which this fails.  Each node is searched for afresh, so nothing found
for one node shows in the result for another.
-/

namespace FlowDominance

open FlowGraph

namespace RelativeDominator

variable {numbering : Numbering} {start node : Node} {value : Node → Node}

/-- `node` was discovered from another node and `value` gives no proper ancestor for it. -/
def Strays (numbering : Numbering) (start : Node) (value : Node → Node) (node : Node) : Prop :=
  numbering.contains node = true ∧ node ≠ start ∧ ¬ numbering.ProperAncestor (value node) node

theorem IsRelative.unique {first second : Option Node}
    (isFirst : IsRelative numbering value node first)
    (isSecond : IsRelative numbering value node second) : first = second := by
  cases first with
  | none =>
      cases second with
      | none => rfl
      | some relative =>
          have notEarlier := isFirst relative isSecond.1
          have earlier := isSecond.2.1
          omega
  | some relative =>
      obtain ⟨between, earlier, least⟩ := isFirst
      cases second with
      | none =>
          have notEarlier := isSecond relative between
          omega
      | some other =>
          obtain ⟨otherBetween, -, otherLeast⟩ := isSecond
          have one := least other otherBetween
          have another := otherLeast relative between
          rcases between.2.ancestor.total otherBetween.2.ancestor with above | below
          · rcases Numbering.ancestor_iff.mp above with rfl | proper
            · rfl
            · have := one.2 proper
              omega
          · rcases Numbering.ancestor_iff.mp below with rfl | proper
            · rfl
            · have := another.2 proper
              omega

theorem strays_iff (lawful : numbering.Lawful start) :
    Strays numbering start value node ↔
      0 < numbering.rank node ∧ node ≠ start ∧ ¬ numbering.ProperAncestor (value node) node := by
  rw [Strays, lawful.contains_iff_rank_pos]

variable {graph : FlowGraph} {semi : NodeMap Node}

/-- What the search for all relative dominators yields on a table that gives every discovered node
another one, `value` of that node.  It succeeds if this is a proper ancestor of each node but the
start.  Then the relative dominators are entered for these nodes and nothing for all others.
Otherwise the first of the nodes that stray is reported. -/
theorem relativeDominators_by_definition (inside : graph.contains start = true)
    (numbered : graph.number start = .ok numbering)
    (reads : ∀ node, numbering.contains node = true →
      semi.find? node = some (value node) ∧ numbering.contains (value node) = true) :
    ((∃ relatives, relativeDominators numbering semi = .ok relatives) ↔
      ∀ node, numbering.contains node = true → node ≠ start →
        numbering.ProperAncestor (value node) node) ∧
    (∀ relatives, relativeDominators numbering semi = .ok relatives →
      relatives.size = graph.nodeCount ∧
      (∀ node, numbering.contains node = true → node ≠ start → ∀ relative,
        relatives.find? node = some relative ↔ IsRelative numbering value node relative) ∧
      ∀ node, graph.contains node = true → numbering.contains node = false ∨ node = start →
        relatives.find? node = some none) ∧
    ∀ fault, relativeDominators numbering semi = .error fault →
      ∃ node, Strays numbering start value node ∧
        (∀ other, Strays numbering start value other →
          numbering.rank node ≤ numbering.rank other) ∧
        ∃ violation, fault = .inconsistent violation ∧
          violation = .strayedSemidominator (value node) node ∧
          violation.stage = .immediateDominators ∧
          violation.message = s!"semidominator {value node} of {node} is not a DFS ancestor" := by
  have depthFirst := depthFirst_of_number_eq_ok inside numbered
  have lawful := depthFirst.lawful
  have known (node : Node) : numbering.contains node = true ↔ 0 < numbering.rank node :=
    lawful.contains_iff_rank_pos
  have readsAs : numbering.ReadsAs semi value :=
    { find?_eq := fun node positive => (reads node ((known node).mpr positive)).1
      rank_pos := fun node positive =>
        (known _).mp (reads node ((known node).mpr positive)).2 }
  rcases relativeDominators_spec lawful readsAs with
    ⟨relatives, ended, tabulates, properAncestor⟩ |
    ⟨node, ended, positive, apart, stray, earlier⟩
  · rw [ended]
    refine ⟨⟨?_, fun _ => ⟨relatives, rfl⟩⟩, ?_, nofun⟩
    · intro _ node discovered
      exact properAncestor node ((known node).mp discovered)
    · rintro found ⟨⟩
      refine ⟨tabulates.size_eq.trans depthFirst.nodeCount_eq, ?_, ?_⟩
      · intro node discovered apart relative
        obtain ⟨entered, read, isRelative⟩ :=
          tabulates.isRelative node ((known node).mp discovered) apart
        rw [read, Option.some.injEq]
        exact ⟨fun same => same ▸ isRelative, isRelative.unique⟩
      · intro node owned unsettled
        apply tabulates.find?_none node
        · rw [depthFirst.nodeCount_eq]
          exact contains_iff.mp owned
        · exact unsettled.imp_left Numbering.rank_of_contains_eq_false
  · rw [ended]
    refine ⟨⟨nofun, ?_⟩, nofun, ?_⟩
    · intro proper
      exact absurd (proper node ((known node).mpr positive) apart) stray
    · rintro fault ⟨⟩
      refine ⟨node, (strays_iff lawful).mpr ⟨positive, apart, stray⟩, ?_, _, rfl, rfl, rfl, rfl⟩
      intro other strays
      obtain ⟨otherPositive, otherApart, otherStray⟩ := (strays_iff lawful).mp strays
      by_contra later
      exact otherStray (earlier other otherPositive otherApart (Nat.lt_of_not_le later))

/-- A chain of five nodes, and a node that it does not lead to. -/
def chain : FlowGraph :=
  .ofAdjacency 6 (some ⟨0⟩) #[[⟨1⟩], [⟨2⟩], [⟨3⟩], [⟨4⟩], [], [⟨0⟩]] #[]

def chainNumbering : Numbering where
  order := #[⟨0⟩, ⟨1⟩, ⟨2⟩, ⟨3⟩, ⟨4⟩]
  positions := ⟨#[some 1, some 2, some 3, some 4, some 5, none]⟩
  parents := ⟨#[none, some ⟨0⟩, some ⟨1⟩, some ⟨2⟩, some ⟨3⟩, none]⟩

theorem number_chain : chain.number ⟨0⟩ = .ok chainNumbering := by
  cbv

/-- A table in which `n2` and `n3`, between `n4` and its entry `n1`, have the same entry. -/
def tied : NodeMap Node :=
  ⟨#[⟨4⟩, ⟨0⟩, ⟨0⟩, ⟨0⟩, ⟨1⟩, ⟨9⟩]⟩

/-- The same table with entries for `n3` and `n4` that are not above them. -/
def damaged : NodeMap Node :=
  ⟨#[⟨4⟩, ⟨0⟩, ⟨0⟩, ⟨4⟩, ⟨4⟩, ⟨9⟩]⟩

/-- Of the two nodes with the same entry the search takes the lower one.  In the damaged table it
reports the first of the two nodes that stray. -/
theorem relatives_of_tied_and_damaged :
    IsRelative chainNumbering (fun node => (tied.find? node).getD node) ⟨4⟩ (some ⟨3⟩) ∧
      Strays chainNumbering ⟨0⟩ (fun node => (damaged.find? node).getD node) ⟨3⟩ := by
  have tiedReads : ∀ node ∈ Node.below 6, chainNumbering.contains node = true →
      tied.find? node = some ((tied.find? node).getD node) ∧
        chainNumbering.contains ((tied.find? node).getD node) = true := by
    decide
  have damagedReads : ∀ node ∈ Node.below 6, chainNumbering.contains node = true →
      damaged.find? node = some ((damaged.find? node).getD node) ∧
        chainNumbering.contains ((damaged.find? node).getD node) = true := by
    decide
  have below {node : Node} (discovered : chainNumbering.contains node = true) :
      node ∈ Node.below 6 :=
    Node.mem_below.mpr (Numbering.lt_nodeCount_of_contains discovered)
  obtain ⟨-, tabulated, -⟩ := relativeDominators_by_definition (by decide) number_chain
    fun node discovered => tiedReads node (below discovered) discovered
  obtain ⟨-, -, reported⟩ := relativeDominators_by_definition (by decide) number_chain
    fun node discovered => damagedReads node (below discovered) discovered
  have searched : relativeDominators chainNumbering tied =
      .ok ⟨#[none, none, none, none, some ⟨3⟩, none]⟩ := by cbv
  have failed : relativeDominators chainNumbering damaged =
      .error (.inconsistent (.strayedSemidominator ⟨4⟩ ⟨3⟩)) := by cbv
  constructor
  · exact ((tabulated _ searched).2.1 ⟨4⟩ (by decide) (by decide) _).mp rfl
  · obtain ⟨node, strays, -, violation, same, named, -⟩ := reported _ failed
    cases same
    rwa [(Violation.strayedSemidominator.inj named).2]

end RelativeDominator

end FlowDominance
