import FlowDominance.Numbering.Discovery
import FlowDominance.Trace
import Mathlib.Logic.Equiv.Basic

/-!
# Renamed graphs

Nodes are named by numbers, but no analysis asks which of two nodes has the smaller number.  A
`Renaming` permutes the nodes of a graph; it acts on graphs, faults and tables by changing
every name they mention.  `Renaming.Carries` compares two computations up to names, and has a rule for
sequencing and one for each kind of loop.  By these rules a traversal meets the renamed nodes
in the same order, so the numbering of a renamed graph is the renamed numbering, position by
position.
-/

namespace FlowDominance

/-- A permutation of the nodes numbered below `count`, which leaves all other nodes alone. -/
structure Renaming (count : Nat) where
  toPerm : Equiv.Perm Node
  fixes : ∀ node, count ≤ node.index → toPerm node = node

namespace Renaming

variable {count : Nat} (names : Renaming count) {node other : Node}

instance : CoeFun (Renaming count) fun _ => Node → Node :=
  ⟨fun names => names.toPerm⟩

def symm : Renaming count where
  toPerm := names.toPerm.symm
  fixes node outside := names.toPerm.symm_apply_eq.mpr (names.fixes node outside).symm

@[simp] theorem symm_apply_apply (node : Node) : names.symm (names node) = node :=
  names.toPerm.symm_apply_apply node

@[simp] theorem apply_eq_iff : names node = names other ↔ node = other :=
  names.toPerm.apply_eq_iff_eq

theorem index_lt_iff : (names node).index < count ↔ node.index < count := by
  constructor
  · intro inside
    by_contra outside
    rw [names.fixes node (Nat.le_of_not_lt outside)] at inside
    exact outside inside
  · intro inside
    by_contra outside
    have fixed := names.fixes (names node) (Nat.le_of_not_lt outside)
    rw [apply_eq_iff] at fixed
    rw [fixed] at outside
    exact outside inside

def swap (first second : Node) (firstInside : first.index < count)
    (secondInside : second.index < count) : Renaming count where
  toPerm := Equiv.swap first second
  fixes node outside := by
    apply Equiv.swap_apply_of_ne_of_ne
    · rintro rfl
      omega
    · rintro rfl
      omega

end Renaming

/-! ### Faults -/

def EntryFault.rename (rename : Node → Node) : EntryFault → EntryFault
  | noNodes => noNodes
  | undesignated => undesignated
  | foreign entry nodeCount => foreign (rename entry) nodeCount
  | stated reason => stated reason

def Violation.rename (rename : Node → Node) : Violation → Violation
  | startNotFirst start => startNotFirst (rename start)
  | startHasParent start => startHasParent (rename start)
  | misplaced node position recorded => misplaced (rename node) position recorded
  | orphan node => orphan (rename node)
  | lateSemidominator node semidominator =>
      lateSemidominator (rename node) (rename semidominator)
  | unnumberedSemidominator semidominator => unnumberedSemidominator (rename semidominator)
  | strayedSemidominator semidominator node =>
      strayedSemidominator (rename semidominator) (rename node)
  | unresolvedDominator source node => unresolvedDominator (rename source) (rename node)
  | missingDominator node => missingDominator (rename node)
  | lateDominator node dominator => lateDominator (rename node) (rename dominator)
  | brokenWalk start stop => brokenWalk (rename start) (rename stop)
  | overlongWalk start limit => overlongWalk (rename start) limit
  | stated stage message => stated stage message

/-- The fault with its nodes renamed.  An index that is out of bounds names no node of the
graph, and keeps its value. -/
def Fault.rename (rename : Node → Node) : Fault → Fault
  | unknownNode node nodeCount => unknownNode (rename node) nodeCount
  | noEntry reason => noEntry (reason.rename rename)
  | noCandidate node => noCandidate (rename node)
  | tooLarge nodeCount limit => tooLarge nodeCount limit
  | inconsistent violation => inconsistent (violation.rename rename)
  | outOfBounds size index => outOfBounds size index
  | endlessWalk start => endlessWalk (rename start)

/-! ### Computations -/

/-- `names.Carries alike first second` says that the two computations end the same up to names:
with results that are alike, or with a fault and the renamed fault. -/
inductive Renaming.Carries {count : Nat} {α : Type} (names : Renaming count)
    (alike : α → α → Prop) : Except Fault α → Except Fault α → Prop where
  | result {first second : α} : alike first second →
      Carries names alike (.ok first) (.ok second)
  | fault (fault : Fault) : Carries names alike (.error fault) (.error (fault.rename names))

variable {count : Nat} {names : Renaming count}

namespace Renaming.Carries

variable {α β σ : Type} {related : α → α → Prop} {alike : β → β → Prop} {kept : σ → σ → Prop}
  {first second : Except Fault α}

theorem exists_result {value : α} (carries : names.Carries related (.ok value) second) :
    ∃ other, second = .ok other ∧ related value other := by
  cases carries with
  | result holds => exact ⟨_, rfl, holds⟩

theorem eq_fault {fault : Fault} (carries : names.Carries related (.error fault) second) :
    second = .error (fault.rename names) := by
  cases carries with
  | fault => rfl

theorem bind (carries : names.Carries related first second) {next other : α → Except Fault β}
    (further : ∀ one another, related one another →
      names.Carries alike (next one) (other another)) :
    names.Carries alike (first.bind next) (second.bind other) := by
  cases carries with
  | result holds => exact further _ _ holds
  | fault fault => exact .fault fault

theorem map (carries : names.Carries related first second) {change other : α → β}
    (further : ∀ one another, related one another → alike (change one) (other another)) :
    names.Carries alike (first.map change) (second.map other) := by
  cases carries with
  | result holds => exact .result (further _ _ holds)
  | fault fault => exact .fault fault

theorem foldlM {step other : σ → α → Except Fault σ} {rename : α → α}
    (each : ∀ element one another, kept one another →
      names.Carries kept (step one element) (other another (rename element)))
    (elements : List α) {one another : σ} (initially : kept one another) :
    names.Carries kept (elements.foldlM step one)
      ((elements.map rename).foldlM other another) := by
  induction elements generalizing one another with
  | nil => exact .result initially
  | cons element rest inductionHypothesis =>
      rw [List.map_cons, List.foldlM_cons, List.foldlM_cons]
      exact (each element one another initially).bind fun _ _ => inductionHypothesis

theorem foldNoting {step other : σ → α → Except Fault (σ × Record)} {rename : α → α}
    (each : ∀ element one another, kept one another →
      names.Carries (fun taken followed => kept taken.1 followed.1)
        (step one element) (other another (rename element)))
    (elements : List α) {one another : σ} {records noted : Array Record}
    (initially : kept one another) :
    names.Carries kept (Traced.foldNoting step elements one records).outcome
      (Traced.foldNoting other (elements.map rename) another noted).outcome := by
  rw [Traced.outcome_foldNoting, Traced.outcome_foldNoting]
  refine foldlM (fun element one another holds => ?_) elements initially
  exact (each element one another holds).map fun _ _ further => further

end Renaming.Carries

/-! ### Graphs -/

/-- `renamed` is `graph` with its nodes renamed: the neighbours of a renamed node are the renamed
neighbours of the node, in the same order. -/
structure FlowGraph.IsRenamed (graph : FlowGraph) (names : Renaming count)
    (renamed : FlowGraph) : Prop where
  nodeCount_eq : graph.nodeCount = count
  nodeCount_renamed : renamed.nodeCount = count
  entry_eq : renamed.entry = graph.entry.map names
  successors_eq : ∀ node, graph.contains node = true →
    renamed.successors (names node) = (graph.successors node).map names
  predecessors_eq : ∀ node, graph.contains node = true →
    renamed.predecessors (names node) = (graph.predecessors node).map names

def FlowGraph.rename (graph : FlowGraph) (names : Renaming graph.nodeCount) : FlowGraph where
  nodeCount := graph.nodeCount
  entry := graph.entry.map names
  successors node := (graph.successors (names.symm node)).map names
  predecessors node := (graph.predecessors (names.symm node)).map names

theorem FlowGraph.isRenamed_rename (graph : FlowGraph) (names : Renaming graph.nodeCount) :
    graph.IsRenamed names (graph.rename names) where
  nodeCount_eq := rfl
  nodeCount_renamed := rfl
  entry_eq := rfl
  successors_eq node _ := by simp [rename]
  predecessors_eq node _ := by simp [rename]

namespace FlowGraph.IsRenamed

variable {graph renamed : FlowGraph} (isRenamed : graph.IsRenamed names renamed)
include isRenamed

theorem contains_eq (node : Node) : renamed.contains (names node) = graph.contains node := by
  rw [Bool.eq_iff_iff, contains_iff, contains_iff, isRenamed.nodeCount_eq,
    isRenamed.nodeCount_renamed, names.index_lt_iff]

theorem carries_predecessorsOf (node : Node) :
    names.Carries (fun predecessors others => others = predecessors.map names)
      (graph.predecessorsOf node) (renamed.predecessorsOf (names node)) := by
  rw [predecessorsOf, predecessorsOf, isRenamed.contains_eq]
  split
  · next inside => exact .result (isRenamed.predecessors_eq node inside)
  · next outside =>
      rw [contains_iff, isRenamed.nodeCount_eq] at outside
      rw [isRenamed.nodeCount_eq, isRenamed.nodeCount_renamed,
        names.fixes node (Nat.le_of_not_lt outside)]
      exact .fault (.outOfBounds count node.index)

theorem carries_usableEntry :
    names.Carries (fun entry other => other = names entry) graph.usableEntry
      renamed.usableEntry := by
  rw [usableEntry, usableEntry, isRenamed.nodeCount_eq, isRenamed.nodeCount_renamed,
    isRenamed.entry_eq]
  split
  · exact .fault (.noEntry .noNodes)
  · cases graph.entry with
    | none => exact .fault (.noEntry .undesignated)
    | some entry =>
        simp only [Option.map_some, isRenamed.contains_eq]
        split
        · exact .result rfl
        · exact .fault (.noEntry (.foreign entry count))

end FlowGraph.IsRenamed

/-! ### Tables -/

/-- The cell of a renamed node in `renamed` holds the image under `change` of what `table` holds
in the cell of the node. -/
structure NodeMap.IsRenamed {α : Type} (table : NodeMap α) (names : Renaming count)
    (change : α → α) (renamed : NodeMap α) : Prop where
  size_eq : table.size = count
  size_renamed : renamed.size = count
  find?_eq : ∀ node, renamed.find? (names node) = (table.find? node).map change

namespace NodeMap

variable {α : Type} {table renamed : NodeMap α} {change : α → α}

theorem isRenamed_replicate (names : Renaming count) {value image : α}
    (image_eq : change value = image) :
    (replicate count value).IsRenamed names change (replicate count image) where
  size_eq := size_replicate count value
  size_renamed := size_replicate count image
  find?_eq node := by
    simp only [find?_replicate, names.index_lt_iff]
    split
    · exact congrArg some image_eq.symm
    · rfl

theorem isRenamed_ofFn_id (names : Renaming count) :
    (ofFn count id).IsRenamed names names (ofFn count id) where
  size_eq := size_ofFn count id
  size_renamed := size_ofFn count id
  find?_eq node := by
    simp only [find?_ofFn, names.index_lt_iff]
    split <;> rfl

namespace IsRenamed

variable (isRenamed : table.IsRenamed names change renamed)
include isRenamed

theorem carries_read (node : Node) :
    names.Carries (fun value image => image = change value) (table.read node)
      (renamed.read (names node)) := by
  rcases Nat.lt_or_ge node.index table.size with inside | outside
  · obtain ⟨value, found⟩ := exists_find?_of_lt inside
    have image : renamed.find? (names node) = some (change value) := by
      rw [isRenamed.find?_eq, found, Option.map_some]
    rw [read_eq_ok_iff.mpr found, read_eq_ok_iff.mpr image]
    exact .result rfl
  · have sameSize := isRenamed.size_renamed.trans isRenamed.size_eq.symm
    have fixed := names.fixes node (isRenamed.size_eq ▸ outside)
    rw [fixed, read_of_size_le outside, read_of_size_le (sameSize ▸ outside), sameSize]
    exact .fault (.outOfBounds table.size node.index)

theorem carries_write (node : Node) (value : α) :
    names.Carries (fun written other => written.IsRenamed names change other)
      (table.write node value) (renamed.write (names node) (change value)) := by
  have sameSize := isRenamed.size_renamed.trans isRenamed.size_eq.symm
  rcases Nat.lt_or_ge node.index table.size with inside | outside
  · have insideRenamed : (names node).index < renamed.size := by
      rw [isRenamed.size_renamed, names.index_lt_iff, ← isRenamed.size_eq]
      exact inside
    obtain ⟨written, success⟩ := exists_write_of_lt value inside
    obtain ⟨other, otherSuccess⟩ := exists_write_of_lt (change value) insideRenamed
    rw [success, otherSuccess]
    refine .result ⟨(size_of_write success).trans isRenamed.size_eq,
      (size_of_write otherSuccess).trans isRenamed.size_renamed, ?_⟩
    intro asked
    rw [find?_of_write success, find?_of_write otherSuccess]
    by_cases same : asked = node
    · rw [if_pos same, if_pos (congrArg names same), Option.map_some]
    · rw [if_neg same, if_neg (mt names.apply_eq_iff.mp same), isRenamed.find?_eq]
  · have fixed := names.fixes node (isRenamed.size_eq ▸ outside)
    rw [fixed, write_of_size_le value outside,
      write_of_size_le (change value) (sameSize ▸ outside), sameSize]
    exact .fault (.outOfBounds table.size node.index)

end IsRenamed

end NodeMap

/-! ### Numberings -/

/-- `renamed` is `numbering` with its nodes renamed; positions stay what they are. -/
structure Numbering.IsRenamed (numbering : Numbering) (names : Renaming count)
    (renamed : Numbering) : Prop where
  order_eq : renamed.order = numbering.order.map names
  positions : numbering.positions.IsRenamed names id renamed.positions
  parents : numbering.parents.IsRenamed names (Option.map names) renamed.parents

namespace Numbering

open FlowGraph

variable {graph renamed : FlowGraph} {numbering renumbered : Numbering}

theorem isRenamed_empty (names : Renaming count) :
    (empty count).IsRenamed names (empty count) where
  order_eq := by simp [empty]
  positions := NodeMap.isRenamed_replicate names rfl
  parents := NodeMap.isRenamed_replicate names rfl

/-- A discovery writes to one table after the other. -/
theorem discover_eq_bind (numbering : Numbering) (node : Node) (parent : Option Node) :
    numbering.discover node parent =
      (numbering.positions.write node (some (numbering.size + 1))).bind fun positions =>
        (numbering.parents.write node parent).bind fun parents =>
          .ok ⟨numbering.order.push node, positions, parents⟩ := by
  simp only [discover, size, Array.size_push]
  cases numbering.positions.write node (some (numbering.order.size + 1)) with
  | error fault => rfl
  | ok positions => cases numbering.parents.write node parent <;> rfl

namespace IsRenamed

variable (isRenamed : numbering.IsRenamed names renumbered)
include isRenamed

theorem position?_eq (node : Node) :
    renumbered.position? (names node) = numbering.position? node := by
  rw [position?, position?, isRenamed.positions.find?_eq, Option.map_id_fun, id]

theorem parent?_eq (node : Node) :
    renumbered.parent? (names node) = (numbering.parent? node).map names := by
  rw [parent?, parent?, isRenamed.parents.find?_eq]
  cases numbering.parents.find? node <;> rfl

theorem contains_eq (node : Node) : renumbered.contains (names node) = numbering.contains node := by
  rw [contains, contains, isRenamed.position?_eq]

theorem nodeCount_eq : numbering.nodeCount = count :=
  isRenamed.positions.size_eq

theorem nodeCount_renamed : renumbered.nodeCount = count :=
  isRenamed.positions.size_renamed

theorem placedBelowRoot_eq :
    renumbered.placedBelowRoot = numbering.placedBelowRoot.map (Prod.map names id) := by
  rw [placedBelowRoot, placedBelowRoot, placed, placed, isRenamed.order_eq, Array.toList_map,
    List.zipIdx_map, List.map_tail]

theorem belowRoot_eq : renumbered.belowRoot = numbering.belowRoot.map names := by
  rw [belowRoot, belowRoot, isRenamed.order_eq, Array.toList_map, List.map_tail]

theorem carries_discover (node : Node) (parent : Option Node) :
    names.Carries (fun later other => later.IsRenamed names other)
      (numbering.discover node parent) (renumbered.discover (names node) (parent.map names)) := by
  have sameSize : renumbered.size = numbering.size := by
    rw [size, size, isRenamed.order_eq, Array.size_map]
  rw [discover_eq_bind, discover_eq_bind, sameSize]
  refine (isRenamed.positions.carries_write node _).bind fun positions others placed => ?_
  refine (isRenamed.parents.carries_write node parent).bind fun parents otherParents entered => ?_
  refine .result ⟨?_, placed, entered⟩
  rw [isRenamed.order_eq, Array.map_push]

end IsRenamed

def Frame.rename (rename : Node → Node) (frame : Frame) : Frame :=
  ⟨rename frame.node, frame.pending.map rename⟩

section

variable (isRenamed : graph.IsRenamed names renamed) (same : numbering.IsRenamed names renumbered)
include isRenamed same

/-- What the renamed traversal does with the next pending successor is decided by the graph and
the numbering before the renaming. -/
theorem explore_renamed_step (node next : Node) (pending : List Node) (outer : List Frame) :
    explore renamed ((⟨node, next :: pending⟩ :: outer).map (Frame.rename names)) renumbered =
      if graph.contains next then
        if numbering.contains next then
          explore renamed ((⟨node, pending⟩ :: outer).map (Frame.rename names)) renumbered
        else
          (renumbered.discover (names next) ((some node).map names)).bind
            (explore renamed
              ((⟨next, graph.successors next⟩ :: ⟨node, pending⟩ :: outer).map
                (Frame.rename names)))
      else .error (.unknownNode (names next) graph.nodeCount) := by
  have sameCount := isRenamed.nodeCount_renamed.trans isRenamed.nodeCount_eq.symm
  simp only [List.map_cons, Frame.rename, explore_step, isRenamed.contains_eq, same.contains_eq,
    sameCount, Option.map_some]
  by_cases inside : graph.contains next = true
  · rw [if_pos inside, if_pos inside, isRenamed.successors_eq next inside]
  · rw [if_neg inside, if_neg inside]

theorem carries_explore (frames : List Frame) :
    names.Carries (fun final other => final.IsRenamed names other)
      (explore graph frames numbering)
      (explore renamed (frames.map (Frame.rename names)) renumbered) := by
  fun_induction explore graph frames numbering generalizing renumbered with
  | case1 numbering =>
      rw [List.map_nil, explore_nil]
      exact .result same
  | case2 numbering node outer inductionHypothesis =>
      rw [List.map_cons, Frame.rename, List.map_nil, explore_pop]
      exact inductionHypothesis same
  | case3 numbering node next pending outer inside known inductionHypothesis =>
      rw [explore_renamed_step isRenamed same, if_pos inside, if_pos known]
      exact inductionHypothesis same
  | case4 numbering node next pending outer inside fresh fault failure =>
      have followed := same.carries_discover next (some node)
      rw [failure] at followed
      rw [explore_renamed_step isRenamed same, if_pos inside, if_neg fresh, followed.eq_fault]
      exact .fault fault
  | case5 numbering node next pending outer inside fresh later success fault failure =>
      exact absurd failure (successorsOf_ne_error inside)
  | case6 numbering node next pending outer inside fresh later success targets asked
      inductionHypothesis =>
      cases eq_of_successorsOf inside asked
      have followed := same.carries_discover next (some node)
      rw [success] at followed
      obtain ⟨other, otherSuccess, sameLater⟩ := followed.exists_result
      rw [explore_renamed_step isRenamed same, if_pos inside, if_neg fresh, otherSuccess]
      exact inductionHypothesis sameLater
  | case7 numbering node next pending outer outside =>
      rw [explore_renamed_step isRenamed same, if_neg outside]
      exact .fault (.unknownNode next graph.nodeCount)

end

end Numbering

theorem FlowGraph.IsRenamed.carries_number {graph renamed : FlowGraph}
    (isRenamed : graph.IsRenamed names renamed) (start : Node) :
    names.Carries (fun numbering other => numbering.IsRenamed names other)
      (graph.number start) (renamed.number (names start)) := by
  rw [number_eq, number_eq, isRenamed.contains_eq, isRenamed.nodeCount_eq,
    isRenamed.nodeCount_renamed]
  have blank := Numbering.isRenamed_empty names
  split
  · next inside =>
      refine (blank.carries_discover start none).bind fun first other same => ?_
      rw [isRenamed.successors_eq start inside]
      exact Numbering.carries_explore isRenamed same [⟨start, graph.successors start⟩]
  · exact .result blank

end FlowDominance
