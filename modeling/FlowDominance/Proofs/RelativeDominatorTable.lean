import FlowDominance.ImmediateDominator
import FlowDominance.Proofs.LoopInvariant
import FlowDominance.Proofs.TreeOrder

/-!
# The table of relative dominators

Going up the tree from a node, a climb keeps the best node passed so far.  It reaches the
semidominator of the node exactly if that is a proper ancestor, and then it has found the
relative dominator.  All this holds of any table that gives each discovered node another
discovered node, whether or not these are semidominators.
-/

namespace FlowDominance

namespace Numbering

/-- The table gives every discovered node a discovered node, `value` of that node. -/
structure ReadsAs (numbering : Numbering) (semi : NodeMap Node) (value : Node → Node) :
    Prop where
  find?_eq : ∀ node, 0 < numbering.rank node → semi.find? node = some (value node)
  rank_pos : ∀ node, 0 < numbering.rank node → 0 < numbering.rank (value node)

/-- The same for every discovered node but `start`, whose cell may hold anything. -/
structure ReadsBelow (numbering : Numbering) (start : Node) (semi : NodeMap Node)
    (value : Node → Node) : Prop where
  find?_eq : ∀ node, 0 < numbering.rank node → node ≠ start →
    semi.find? node = some (value node)
  rank_pos : ∀ node, 0 < numbering.rank node → node ≠ start → 0 < numbering.rank (value node)

theorem ReadsAs.below {numbering : Numbering} {semi : NodeMap Node} {value : Node → Node}
    (reads : numbering.ReadsAs semi value) (start : Node) :
    numbering.ReadsBelow start semi value where
  find?_eq node positive _ := reads.find?_eq node positive
  rank_pos node positive _ := reads.rank_pos node positive

end Numbering

namespace RelativeDominator

variable {numbering : Numbering} {start top node current : Node}
  {semi : NodeMap Node} {value : Node → Node}

/-- `relative` is the relative dominator of `node`, where `value` gives semidominators: on
the way from `node` up to its semidominator, both excluded, the lowest of the nodes whose
semidominators were discovered first, if that was before the semidominator of `node`. -/
def IsRelative (numbering : Numbering) (value : Node → Node) (node : Node) :
    Option Node → Prop
  | none => ∀ middle, numbering.Between (value node) middle node →
      numbering.rank (value node) ≤ numbering.rank (value middle)
  | some relative => numbering.Between (value node) relative node ∧
      numbering.rank (value relative) < numbering.rank (value node) ∧
        ∀ middle, numbering.Between (value node) middle node →
          numbering.rank (value relative) ≤ numbering.rank (value middle) ∧
            (numbering.ProperAncestor relative middle →
              numbering.rank (value relative) < numbering.rank (value middle))

/-- What a climb from `current` to `top` makes of the best node so far, whose semidominator
has rank `least`. -/
def Improves (numbering : Numbering) (value : Node → Node) (top current : Node) (least : Nat)
    (best : Option Node) (relative : Option Node) : Prop :=
  (relative = best ∧ ∀ middle, numbering.ProperAncestor top middle →
    numbering.Ancestor middle current → least ≤ numbering.rank (value middle)) ∨
  ∃ found, relative = some found ∧ numbering.ProperAncestor top found ∧
    numbering.Ancestor found current ∧ numbering.rank (value found) < least ∧
      ∀ middle, numbering.ProperAncestor top middle → numbering.Ancestor middle current →
        numbering.rank (value found) ≤ numbering.rank (value middle) ∧
          (numbering.ProperAncestor found middle →
            numbering.rank (value found) < numbering.rank (value middle))

section

variable (lawful : numbering.Lawful start)
include lawful

theorem positionOf_eq_ok (positive : 0 < numbering.rank node) :
    positionOf numbering node = .ok (numbering.rank node) := by
  rw [positionOf, lawful.position?_eq_some_iff.mpr ⟨positive, rfl⟩]

theorem improves_top (least : Nat) (best : Option Node) :
    Improves numbering value top top least best best := by
  refine .inl ⟨rfl, ?_⟩
  intro middle below above
  have := lawful.rank_lt_of_properAncestor below
  have := lawful.rank_le_of_ancestor above
  omega

theorem improves_of_lt {parent : Node} {least : Nat} {best relative : Option Node}
    (up : numbering.parent? current = some parent) (below : numbering.ProperAncestor top current)
    (earlier : numbering.rank (value current) < least)
    (rest : Improves numbering value top parent (numbering.rank (value current)) (some current)
      relative) :
    Improves numbering value top current least best relative := by
  right
  rcases rest with ⟨rfl, least_above⟩ | ⟨found, rfl, foundBelow, foundAbove, better, minimal⟩
  · refine ⟨current, rfl, below, .refl, earlier, ?_⟩
    intro middle middleBelow above
    rcases (Numbering.ancestor_iff_of_parent? up).mp above with rfl | higher
    · refine ⟨Nat.le_refl _, fun proper => ?_⟩
      have := lawful.rank_lt_of_properAncestor proper
      omega
    · refine ⟨least_above middle middleBelow higher, fun proper => ?_⟩
      have := lawful.rank_lt_of_properAncestor proper
      have := lawful.rank_le_of_ancestor above
      omega
  · refine ⟨found, rfl, foundBelow, .step up foundAbove, by omega, ?_⟩
    intro middle middleBelow above
    rcases (Numbering.ancestor_iff_of_parent? up).mp above with rfl | higher
    · exact ⟨Nat.le_of_lt better, fun _ => better⟩
    · exact minimal middle middleBelow higher

omit lawful in
theorem improves_of_le {parent : Node} {least : Nat} {best relative : Option Node}
    (up : numbering.parent? current = some parent)
    (later : least ≤ numbering.rank (value current))
    (rest : Improves numbering value top parent least best relative) :
    Improves numbering value top current least best relative := by
  rcases rest with ⟨rfl, least_above⟩ | ⟨found, rfl, foundBelow, foundAbove, better, minimal⟩
  · refine .inl ⟨rfl, ?_⟩
    intro middle middleBelow above
    rcases (Numbering.ancestor_iff_of_parent? up).mp above with rfl | higher
    · exact later
    · exact least_above middle middleBelow higher
  · refine .inr ⟨found, rfl, foundBelow, .step up foundAbove, better, ?_⟩
    intro middle middleBelow above
    rcases (Numbering.ancestor_iff_of_parent? up).mp above with rfl | higher
    · have smaller : numbering.rank (value found) < numbering.rank (value middle) := by omega
      exact ⟨Nat.le_of_lt smaller, fun _ => smaller⟩
    · exact minimal middle middleBelow higher

theorem climb_succ (found : semi.find? current = some (value current))
    (known : 0 < numbering.rank (value current)) (apart : current ≠ top)
    (steps least : Nat) (best : Option Node) :
    climb numbering semi node top (steps + 1) (some current) least best =
      if numbering.rank (value current) < least then
        climb numbering semi node top steps (numbering.parent? current)
          (numbering.rank (value current)) (some current)
      else climb numbering semi node top steps (numbering.parent? current) least best := by
  have read := NodeMap.read_eq_ok_iff.mpr found
  have position := positionOf_eq_ok lawful known
  rw [climb, if_neg apart, read]
  simp only [bind, Except.bind, position]

/-- A climb with enough steps arrives at an ancestor.  It never looks at the cell of the start
node, where it can only arrive. -/
theorem climb_of_ancestor (reads : numbering.ReadsBelow start semi value) (steps : Nat)
    (current : Node) (least : Nat) (best : Option Node)
    (ancestor : numbering.Ancestor top current) (positive : 0 < numbering.rank current)
    (enough : numbering.rank current ≤ steps) :
    ∃ relative, climb numbering semi node top steps (some current) least best = .ok relative ∧
      Improves numbering value top current least best relative := by
  induction steps generalizing current least best with
  | zero => omega
  | succ steps inductionHypothesis =>
      by_cases arrived : current = top
      · rw [arrived, climb, if_pos rfl]
        exact ⟨best, rfl, improves_top lawful least best⟩
      · have below := (Numbering.ancestor_iff.mp ancestor).resolve_left (Ne.symm arrived)
        obtain ⟨parent, up, above⟩ := id below
        have smaller := lawful.rank_parent_lt up
        have parentPositive := lawful.rank_parent_pos up
        have notStart := lawful.ne_start_of_properAncestor below
        rw [climb_succ lawful (reads.find?_eq current positive notStart)
          (reads.rank_pos current positive notStart) arrived, up]
        split
        · next earlier =>
            obtain ⟨relative, climbed, rest⟩ := inductionHypothesis parent
              (numbering.rank (value current)) (some current) above parentPositive (by omega)
            exact ⟨relative, climbed, improves_of_lt lawful up below earlier rest⟩
        · next later =>
            obtain ⟨relative, climbed, rest⟩ :=
              inductionHypothesis parent least best above parentPositive (by omega)
            exact ⟨relative, climbed, improves_of_le up (Nat.le_of_not_lt later) rest⟩

/-- A climb to a node that is no ancestor passes the root and says so. -/
theorem climb_of_not_ancestor (reads : numbering.ReadsAs semi value) (steps : Nat)
    (current : Node) (least : Nat) (best : Option Node) (stray : ¬ numbering.Ancestor top current)
    (positive : 0 < numbering.rank current) (enough : numbering.rank current ≤ steps) :
    climb numbering semi node top steps (some current) least best =
      .error (.inconsistent (.strayedSemidominator top node)) := by
  induction steps generalizing current least best with
  | zero => omega
  | succ steps inductionHypothesis =>
      have apart : current ≠ top := by
        rintro rfl
        exact stray .refl
      rw [climb_succ lawful (reads.find?_eq current positive) (reads.rank_pos current positive)
        apart]
      cases up : numbering.parent? current with
      | none => simp only [climb, ite_self]
      | some parent =>
          have smaller := lawful.rank_parent_lt up
          have higher : ¬ numbering.Ancestor top parent := fun above => stray (.step up above)
          have further (least : Nat) (best : Option Node) := inductionHypothesis parent least
            best higher (lawful.rank_parent_pos up) (by omega)
          rw [further, further, ite_self]

theorem find_eq_climb (found : semi.find? node = some (value node))
    (known : 0 < numbering.rank (value node)) :
    find numbering semi node =
      climb numbering semi node (value node) (numbering.nodeCount + 1) (numbering.parent? node)
        (numbering.rank (value node)) none := by
  have read := NodeMap.read_eq_ok_iff.mpr found
  have position := positionOf_eq_ok lawful known
  rw [find, read]
  simp only [bind, Except.bind, position]

theorem find_of_properAncestor (reads : numbering.ReadsBelow start semi value)
    (positive : 0 < numbering.rank node)
    (proper : numbering.ProperAncestor (value node) node) :
    ∃ relative, find numbering semi node = .ok relative ∧
      IsRelative numbering value node relative := by
  have apart := lawful.ne_start_of_properAncestor proper
  obtain ⟨parent, up, above⟩ := proper
  have between {middle : Node} : numbering.Between (value node) middle node ↔
      numbering.ProperAncestor (value node) middle ∧ numbering.Ancestor middle parent := by
    rw [Numbering.Between, Numbering.properAncestor_iff_ancestor_parent up]
  have enough : numbering.rank parent ≤ numbering.nodeCount + 1 :=
    Nat.le_succ_of_le lawful.rank_le_nodeCount
  obtain ⟨relative, climbed, improves⟩ := climb_of_ancestor lawful reads
    (numbering.nodeCount + 1) parent (numbering.rank (value node)) none above
    (lawful.rank_parent_pos up) enough
  refine ⟨relative, ?_, ?_⟩
  · rw [find_eq_climb lawful (reads.find?_eq node positive apart)
      (reads.rank_pos node positive apart), up]
    exact climbed
  · rcases improves with ⟨rfl, least⟩ | ⟨found, rfl, below, higher, better, minimal⟩
    · intro middle member
      exact least middle (between.mp member).1 (between.mp member).2
    · refine ⟨between.mpr ⟨below, higher⟩, better, ?_⟩
      intro middle member
      exact minimal middle (between.mp member).1 (between.mp member).2

theorem find_of_not_properAncestor (reads : numbering.ReadsAs semi value)
    (positive : 0 < numbering.rank node) (apart : node ≠ start)
    (stray : ¬ numbering.ProperAncestor (value node) node) :
    find numbering semi node =
      .error (.inconsistent (.strayedSemidominator (value node) node)) := by
  obtain ⟨parent, up⟩ := lawful.exists_parent node positive apart
  have enough : numbering.rank parent ≤ numbering.nodeCount + 1 :=
    Nat.le_succ_of_le lawful.rank_le_nodeCount
  rw [find_eq_climb lawful (reads.find?_eq node positive) (reads.rank_pos node positive), up]
  refine climb_of_not_ancestor lawful reads _ parent _ none ?_ (lawful.rank_parent_pos up) enough
  intro above
  exact stray ⟨parent, up, above⟩

end

end RelativeDominator

namespace RelativeDominator

variable {numbering : Numbering} {start : Node} {semi : NodeMap Node} {value : Node → Node}

/-- `relatives` holds the relative dominator of every discovered node but the first. -/
structure Tabulates (numbering : Numbering) (start : Node) (value : Node → Node)
    (relatives : NodeMap (Option Node)) : Prop where
  size_eq : relatives.size = numbering.nodeCount
  isRelative : ∀ node, 0 < numbering.rank node → node ≠ start →
    ∃ relative, relatives.find? node = some relative ∧
      IsRelative numbering value node relative
  find?_none : ∀ node, node.index < numbering.nodeCount →
    numbering.rank node = 0 ∨ node = start → relatives.find? node = some none

/-- What holds after the relative dominators of the nodes in `done` have been entered. -/
structure Holds (numbering : Numbering) (value : Node → Node) (done : List Node)
    (relatives : NodeMap (Option Node)) : Prop where
  size_eq : relatives.size = numbering.nodeCount
  properAncestor : ∀ node ∈ done, numbering.ProperAncestor (value node) node
  isRelative : ∀ node ∈ done, ∃ relative, relatives.find? node = some relative ∧
    IsRelative numbering value node relative
  find?_none : ∀ node, node.index < numbering.nodeCount → node ∉ done →
    relatives.find? node = some none

theorem holds_start (numbering : Numbering) (value : Node → Node) :
    Holds numbering value [] (.replicate numbering.nodeCount none) where
  size_eq := NodeMap.size_replicate _ _
  properAncestor node member := absurd member List.not_mem_nil
  isRelative node member := absurd member List.not_mem_nil
  find?_none node inside _ := by
    rw [NodeMap.find?_replicate, if_pos inside]

/-- Entering the relative dominator of a new node disturbs none of the others. -/
theorem Holds.enter (lawful : numbering.Lawful start)
    (reads : numbering.ReadsBelow start semi value) {done : List Node}
    {relatives : NodeMap (Option Node)} {node : Node}
    (holds : Holds numbering value done relatives) (positive : 0 < numbering.rank node)
    (proper : numbering.ProperAncestor (value node) node) :
    ∃ next, settle numbering semi relatives node = .ok next ∧
      Holds numbering value (done ++ [node]) next := by
  obtain ⟨relative, found, isRelative⟩ := find_of_properAncestor lawful reads positive proper
  have inside : node.index < relatives.size := by
    rw [holds.size_eq]
    exact Numbering.lt_nodeCount_of_rank_pos positive
  obtain ⟨written, success⟩ := NodeMap.exists_write_of_lt relative inside
  refine ⟨written, by rw [settle, found]; exact success, ?_⟩
  refine
    { size_eq := (NodeMap.size_of_write success).trans holds.size_eq
      properAncestor := ?_
      isRelative := ?_
      find?_none := ?_ }
  · refine List.forall_mem_append.mpr ⟨holds.properAncestor, ?_⟩
    exact List.forall_mem_singleton.mpr proper
  · intro other member
    rw [NodeMap.find?_of_write success]
    split
    · next same => exact ⟨relative, rfl, same ▸ isRelative⟩
    · next different =>
        rcases List.mem_append.mp member with old | new
        · exact holds.isRelative other old
        · exact absurd (List.mem_singleton.mp new) different
  · intro other otherInside absent
    rw [List.mem_append, not_or, List.mem_singleton] at absent
    rw [NodeMap.find?_of_write success, if_neg absent.2]
    exact holds.find?_none other otherInside absent.1

theorem Holds.tabulates (lawful : numbering.Lawful start) {relatives : NodeMap (Option Node)}
    (holds : Holds numbering value numbering.belowRoot relatives) :
    Tabulates numbering start value relatives where
  size_eq := holds.size_eq
  isRelative node positive apart :=
    holds.isRelative node (lawful.mem_belowRoot_iff.mpr ⟨positive, apart⟩)
  find?_none node inside unsettled := by
    apply holds.find?_none node inside
    rw [lawful.mem_belowRoot_iff]
    rintro ⟨positive, apart⟩
    rcases unsettled with undiscovered | root
    · omega
    · exact apart root

theorem settle_spec (lawful : numbering.Lawful start) (reads : numbering.ReadsAs semi value)
    {done : List Node} {relatives : NodeMap (Option Node)} {node : Node}
    (holds : Holds numbering value done relatives) (positive : 0 < numbering.rank node)
    (apart : node ≠ start) :
    (∃ next, settle numbering semi relatives node = .ok next ∧
      Holds numbering value (done ++ [node]) next) ∨
    (settle numbering semi relatives node =
        .error (.inconsistent (.strayedSemidominator (value node) node)) ∧
      ¬ numbering.ProperAncestor (value node) node) := by
  by_cases proper : numbering.ProperAncestor (value node) node
  · exact .inl (holds.enter lawful (reads.below start) positive proper)
  · right
    rw [settle, find_of_not_properAncestor lawful reads positive apart proper]
    exact ⟨rfl, proper⟩

theorem Holds.next (lawful : numbering.Lawful start) (reads : numbering.ReadsAs semi value)
    {done : List Node} {relatives next : NodeMap (Option Node)} {node : Node}
    (holds : Holds numbering value done relatives) (below : node ∈ numbering.belowRoot)
    (taken : settle numbering semi relatives node = .ok next) :
    Holds numbering value (done ++ [node]) next := by
  obtain ⟨positive, apart⟩ := lawful.mem_belowRoot_iff.mp below
  rcases settle_spec lawful reads holds positive apart with
    ⟨settled, success, further⟩ | ⟨failure, -⟩
  · rw [success] at taken
    cases taken
    exact further
  · rw [failure] at taken
    cases taken

end RelativeDominator

open RelativeDominator

variable {numbering : Numbering} {start : Node} {semi : NodeMap Node} {value : Node → Node}

/-- The table of relative dominators is found if every semidominator is a proper ancestor;
otherwise the first node for which it is not is reported. -/
theorem relativeDominators_spec (lawful : numbering.Lawful start)
    (reads : numbering.ReadsAs semi value) :
    (∃ relatives, relativeDominators numbering semi = .ok relatives ∧
      Tabulates numbering start value relatives ∧
        ∀ node, 0 < numbering.rank node → node ≠ start →
          numbering.ProperAncestor (value node) node) ∨
    ∃ node, relativeDominators numbering semi =
        .error (.inconsistent (.strayedSemidominator (value node) node)) ∧
      0 < numbering.rank node ∧ node ≠ start ∧ ¬ numbering.ProperAncestor (value node) node ∧
        ∀ other, 0 < numbering.rank other → other ≠ start →
          numbering.rank other < numbering.rank node →
            numbering.ProperAncestor (value other) other := by
  have kept (done : List Node) (node : Node) (rest : List Node)
      (relatives next : NodeMap (Option Node)) (split : numbering.belowRoot = done ++ node :: rest)
      (holds : Holds numbering value done relatives)
      (taken : settle numbering semi relatives node = .ok next) :
      Holds numbering value (done ++ [node]) next :=
    holds.next lawful reads (by simp [split]) taken
  rcases foldlM_spec (settle numbering semi) (Holds numbering value) numbering.belowRoot kept
    _ (holds_start numbering value) with
    ⟨final, folded, holds⟩ | ⟨before, node, after, reached, fault, split, holds, failure, folded⟩
  · left
    refine ⟨final, folded, holds.tabulates lawful, ?_⟩
    intro node positive apart
    exact holds.properAncestor node (lawful.mem_belowRoot_iff.mpr ⟨positive, apart⟩)
  · right
    obtain ⟨positive, apart⟩ := lawful.mem_belowRoot_iff.mp
      (show node ∈ numbering.belowRoot by simp [split])
    rcases settle_spec lawful reads holds positive apart with
      ⟨settled, success, -⟩ | ⟨strayed, stray⟩
    · rw [success] at failure
      cases failure
    · rw [strayed] at failure
      cases failure
      refine ⟨node, folded, positive, apart, stray, ?_⟩
      intro other otherPositive otherApart earlier
      exact holds.properAncestor other
        ((lawful.mem_before_iff split).mpr ⟨otherPositive, otherApart, earlier⟩)

/-- Where every semidominator is a proper ancestor, the table is found whatever the cell of the
start node holds. -/
theorem relativeDominators_of_properAncestor (lawful : numbering.Lawful start)
    (reads : numbering.ReadsBelow start semi value)
    (proper : ∀ node ∈ numbering.belowRoot, numbering.ProperAncestor (value node) node) :
    ∃ relatives, relativeDominators numbering semi = .ok relatives ∧
      Tabulates numbering start value relatives := by
  have entered (done : List Node) (node : Node) (rest : List Node)
      (relatives : NodeMap (Option Node)) (split : numbering.belowRoot = done ++ node :: rest)
      (holds : Holds numbering value done relatives) :
      ∃ next, settle numbering semi relatives node = .ok next ∧
        Holds numbering value (done ++ [node]) next := by
    have below : node ∈ numbering.belowRoot := by simp [split]
    exact holds.enter lawful reads (lawful.mem_belowRoot_iff.mp below).1 (proper node below)
  obtain ⟨relatives, searched, holds⟩ := foldlM_succeeds (settle numbering semi)
    (Holds numbering value) numbering.belowRoot entered _ (holds_start numbering value)
  exact ⟨relatives, searched, holds.tabulates lawful⟩

end FlowDominance
