import FlowDominance.DominatorTree
import FlowDominance.Proofs.LinkWalks
import FlowDominance.Proofs.LoopInvariant

/-!
# How far a check goes up

`DominatorTree.check` goes up from every node of a tree and gives up after as many steps as the
tree has nodes.  The tree may be a damaged one: immediate dominators may be missing, may lead
past the entry and may run in a circle.  The check tells these apart by where the walk is when it
stops.

Giving up is safe as long as the way up from a node of the tree stays in the tree until it comes
to the entry.  A walk of more steps than there are nodes has then come to some node twice, so it
runs in a circle, and the entry is not on it.

The queries of a tree go up as well.  Their limit is the size of the table of immediate
dominators, which no way up that ends can exceed, so `DominatorTree.ascend` reports just the ways
that never end.
-/

namespace FlowDominance

open Node

namespace DominatorTree

variable {tree : DominatorTree} {start node stop : Node} {steps limit : Nat}

/-- Going up from `node` leads to the entry in at most `limit` steps. -/
def Arrives (tree : DominatorTree) (limit : Nat) (node : Node) : Prop :=
  ∃ steps ≤ limit, follow tree.idom? steps node = some tree.entry

/-- Going up from `node` ends at `stop`, which is not the entry, after at most `limit` steps. -/
def Strands (tree : DominatorTree) (limit : Nat) (node stop : Node) : Prop :=
  ∃ steps ≤ limit, follow tree.idom? steps node = some stop ∧ stop ≠ tree.entry ∧
    tree.idom? stop = none

/-- For `limit` steps and one more, going up from `node` neither ends nor comes to the entry. -/
def Wanders (tree : DominatorTree) (limit : Nat) (node : Node) : Prop :=
  ∀ steps ≤ limit, ∃ passed, follow tree.idom? steps node = some passed ∧ passed ≠ tree.entry ∧
    tree.idom? passed ≠ none

/-- Going up from `node` never ends and never comes to the entry; it runs in a circle. -/
def Circles (tree : DominatorTree) (node : Node) : Prop :=
  (∀ steps, ∃ passed, follow tree.idom? steps node = some passed ∧ passed ≠ tree.entry) ∧
    ∃ first period, 0 < period ∧
      follow tree.idom? (first + period) node = follow tree.idom? first node

/-- Until it comes to the entry, going up from a node of the tree stays in the tree.  The order may
list a node more than once: that only leaves more steps than are needed. -/
def Closed (tree : DominatorTree) : Prop :=
  ∀ node ∈ tree.nodes, node ≠ tree.entry → ∀ parent, tree.idom? node = some parent →
    parent ∈ tree.nodes

def FirstAstray (tree : DominatorTree) (node : Node) : Prop :=
  ∃ before after, tree.nodes = before ++ node :: after ∧
    (∀ other ∈ before, tree.Arrives tree.size other) ∧ ¬ tree.Arrives tree.size node

/-- `violation` says truly how going up from `node`, which does not lead to the entry within the
limit, goes wrong. -/
structure Reports (tree : DominatorTree) (node : Node) (violation : Violation) : Prop where
  stage_eq : violation.stage = .tree
  brokenWalk_iff : ∀ stop, violation = .brokenWalk node stop ↔ tree.Strands tree.size node stop
  overlongWalk_iff : violation = .overlongWalk node tree.size ↔
    ∀ stop, ¬ tree.Strands tree.size node stop
  message_brokenWalk : ∀ stop, violation = .brokenWalk node stop →
    violation.message = s!"walk from {node} stops at {stop} before the entry"
  message_overlongWalk : violation = .overlongWalk node tree.size →
    violation.message = s!"walk from {node} does not reach the entry within {tree.size} steps"
  /-- In a closed tree only a walk without end is given up. -/
  overlongWalk_iff_endless : tree.Closed → (violation = .overlongWalk node tree.size ↔
    ∀ steps, (follow tree.idom? steps node).isSome = true)
  overlongWalk_iff_circles : tree.Closed →
    (violation = .overlongWalk node tree.size ↔ tree.Circles node)

/-! ### One step up -/

section

variable {parent : Node} (apart : node ≠ tree.entry) (up : tree.idom? node = some parent)
include apart up

theorem arrives_succ_iff : tree.Arrives (limit + 1) node ↔ tree.Arrives limit parent := by
  constructor
  · rintro ⟨_ | steps, bound, reached⟩
    · exact absurd (Option.some.inj reached) apart
    · rw [follow_succ_of_link up] at reached
      exact ⟨steps, Nat.le_of_succ_le_succ bound, reached⟩
  · rintro ⟨steps, bound, reached⟩
    exact ⟨steps + 1, Nat.succ_le_succ bound, by rw [follow_succ_of_link up, reached]⟩

omit apart in
theorem Strands.of_parent (strands : tree.Strands limit parent stop) :
    tree.Strands (limit + 1) node stop := by
  obtain ⟨steps, bound, reached, stranded⟩ := strands
  exact ⟨steps + 1, Nat.succ_le_succ bound, by rw [follow_succ_of_link up, reached], stranded⟩

theorem Wanders.of_parent (wanders : tree.Wanders limit parent) :
    tree.Wanders (limit + 1) node := by
  rintro (_ | steps) bound
  · exact ⟨node, rfl, apart, by rw [up]; exact nofun⟩
  · rw [follow_succ_of_link up]
    exact wanders steps (Nat.le_of_succ_le_succ bound)

end

/-! ### One walk -/

theorem arrives_of_eq (arrived : node = tree.entry) (limit : Nat) : tree.Arrives limit node :=
  ⟨0, Nat.zero_le _, congrArg some arrived⟩

theorem strands_of_stop (apart : node ≠ tree.entry) (stopped : tree.idom? node = none)
    (limit : Nat) : tree.Strands limit node node :=
  ⟨0, Nat.zero_le _, rfl, apart, stopped⟩

theorem not_arrives_of_stop (apart : node ≠ tree.entry) (stopped : tree.idom? node = none)
    (limit : Nat) : ¬ tree.Arrives limit node := by
  rintro ⟨_ | steps, -, reached⟩
  · exact apart (Option.some.inj reached)
  · rw [follow_succ_of_stop stopped] at reached
    cases reached

/-- A walk ends in one of three ways, and its outcome says in which. -/
theorem checkWalk_spec (tree : DominatorTree) (start : Node) (steps : Nat) (node : Node) :
    (tree.checkWalk start steps node = .ok () ∧ tree.Arrives steps node) ∨
    (∃ stop, tree.checkWalk start steps node = .error (.inconsistent (.brokenWalk start stop)) ∧
      tree.Strands steps node stop ∧ ¬ tree.Arrives steps node) ∨
    (tree.checkWalk start steps node =
        .error (.inconsistent (.overlongWalk start tree.size)) ∧ tree.Wanders steps node) := by
  induction steps generalizing node with
  | zero =>
      by_cases arrived : node = tree.entry
      · exact .inl ⟨by rw [checkWalk, if_pos arrived], arrives_of_eq arrived 0⟩
      · rw [checkWalk, if_neg arrived]
        right
        cases up : tree.idom? node with
        | none =>
            exact .inl ⟨node, rfl, strands_of_stop arrived up 0, not_arrives_of_stop arrived up 0⟩
        | some parent =>
            refine .inr ⟨rfl, fun steps bound => ?_⟩
            cases Nat.le_zero.mp bound
            exact ⟨node, rfl, arrived, by rw [up]; exact nofun⟩
  | succ steps inductionHypothesis =>
      by_cases arrived : node = tree.entry
      · exact .inl ⟨by rw [checkWalk, if_pos arrived], arrives_of_eq arrived _⟩
      · rw [checkWalk, if_neg arrived]
        cases up : tree.idom? node with
        | none =>
            exact .inr (.inl
              ⟨node, rfl, strands_of_stop arrived up _, not_arrives_of_stop arrived up _⟩)
        | some parent =>
            rw [arrives_succ_iff arrived up]
            rcases inductionHypothesis parent with
              ⟨passed, arrives⟩ | ⟨stop, broken, strands, astray⟩ | ⟨overlong, wanders⟩
            · exact .inl ⟨passed, arrives⟩
            · exact .inr (.inl ⟨stop, broken, strands.of_parent up, astray⟩)
            · exact .inr (.inr ⟨overlong, wanders.of_parent arrived up⟩)

theorem Strands.unique {other : Node} (first : tree.Strands limit node stop)
    (second : tree.Strands limit node other) : stop = other := by
  obtain ⟨steps, -, reached, -, ended⟩ := first
  obtain ⟨otherSteps, -, otherReached, -, otherEnded⟩ := second
  rcases Nat.lt_trichotomy steps otherSteps with before | rfl | after
  · rw [follow_eq_none_of_lt reached ended before] at otherReached
    cases otherReached
  · exact Option.some.inj (reached.symm.trans otherReached)
  · rw [follow_eq_none_of_lt otherReached otherEnded after] at reached
    cases reached

theorem Wanders.not_arrives (wanders : tree.Wanders limit node) : ¬ tree.Arrives limit node := by
  rintro ⟨steps, bound, reached⟩
  obtain ⟨passed, alsoReached, apart, -⟩ := wanders steps bound
  rw [reached] at alsoReached
  exact apart (Option.some.inj alsoReached).symm

theorem Wanders.not_strands (wanders : tree.Wanders limit node) (stop : Node) :
    ¬ tree.Strands limit node stop := by
  rintro ⟨steps, bound, reached, -, ended⟩
  obtain ⟨passed, alsoReached, -, goesOn⟩ := wanders steps bound
  rw [reached] at alsoReached
  cases alsoReached
  exact goesOn ended

theorem checkWalk_eq_ok_iff :
    tree.checkWalk start steps node = .ok () ↔ tree.Arrives steps node := by
  rcases checkWalk_spec tree start steps node with
    ⟨passed, arrives⟩ | ⟨stop, broken, -, astray⟩ | ⟨overlong, wanders⟩
  · exact ⟨fun _ => arrives, fun _ => passed⟩
  · rw [broken]
    exact ⟨nofun, fun arrives => absurd arrives astray⟩
  · rw [overlong]
    exact ⟨nofun, fun arrives => absurd arrives wanders.not_arrives⟩

theorem check_eq_ok_iff :
    tree.check = .ok () ↔ ∀ node ∈ tree.nodes, tree.Arrives tree.size node := by
  simp only [check, forM_eq_ok_iff, checkWalk_eq_ok_iff]

/-! ### Circles -/

/-- In a closed tree a walk that goes on for longer than the tree has nodes never ends. -/
theorem Wanders.circles (wanders : tree.Wanders tree.size node) (closed : tree.Closed)
    (member : node ∈ tree.nodes) : tree.Circles node := by
  have inside (steps : Nat) (bound : steps ≤ tree.nodes.length) :
      ∃ passed ∈ tree.nodes, follow tree.idom? steps node = some passed := by
    induction steps with
    | zero => exact ⟨node, member, rfl⟩
    | succ steps inductionHypothesis =>
        have before : steps ≤ tree.nodes.length := by omega
        obtain ⟨passed, owned, reached⟩ := inductionHypothesis before
        obtain ⟨same, alsoReached, apart, goesOn⟩ :=
          wanders steps (by simpa [size, nodes] using before)
        rw [reached] at alsoReached
        cases alsoReached
        obtain ⟨parent, up⟩ := Option.ne_none_iff_exists'.mp goesOn
        exact ⟨parent, closed passed owned apart parent up, by rw [follow_succ_eq_link reached, up]⟩
  obtain ⟨first, period, positive, short, same⟩ := exists_repeat inside
  refine ⟨fun steps => ?_, first, period, positive, same⟩
  obtain ⟨earlier, early, equal⟩ := exists_earlier_of_repeat positive same steps
  have bound : earlier ≤ tree.size := by
    have length : tree.nodes.length = tree.size := Array.length_toList
    omega
  obtain ⟨passed, reached, apart, -⟩ := wanders earlier bound
  exact ⟨passed, equal ▸ reached, apart⟩

theorem Circles.not_arrives (circles : tree.Circles node) (limit : Nat) :
    ¬ tree.Arrives limit node := by
  rintro ⟨steps, -, reached⟩
  obtain ⟨passed, alsoReached, apart⟩ := circles.1 steps
  rw [reached] at alsoReached
  exact apart (Option.some.inj alsoReached).symm

theorem Circles.endless (circles : tree.Circles node) (steps : Nat) :
    (follow tree.idom? steps node).isSome = true := by
  obtain ⟨passed, reached, -⟩ := circles.1 steps
  rw [reached, Option.isSome_some]

theorem Strands.not_endless (strands : tree.Strands limit node stop) :
    ¬ ∀ steps, (follow tree.idom? steps node).isSome = true := by
  intro endless
  obtain ⟨steps, -, reached, -, stopped⟩ := strands
  have beyond := endless (steps + 1)
  rw [follow_eq_none_of_lt reached stopped (Nat.lt_succ_self _)] at beyond
  cases beyond

/-- Where the way up ends within the limit, so does every way to the entry. -/
theorem Strands.arrives {further : Nat} (strands : tree.Strands limit node stop)
    (arrives : tree.Arrives further node) : tree.Arrives limit node := by
  obtain ⟨steps, bound, reached, -, stopped⟩ := strands
  obtain ⟨taken, -, arrived⟩ := arrives
  rcases Nat.lt_or_ge steps taken with beyond | within
  · rw [follow_eq_none_of_lt reached stopped beyond] at arrived
    cases arrived
  · exact ⟨taken, Nat.le_trans within bound, arrived⟩

/-! ### The whole check -/

theorem Strands.reports (strands : tree.Strands tree.size node stop) :
    tree.Reports node (.brokenWalk node stop) where
  stage_eq := rfl
  brokenWalk_iff other := by
    constructor
    · rintro ⟨⟩
      exact strands
    · intro otherStrands
      rw [strands.unique otherStrands]
  overlongWalk_iff := ⟨nofun, fun nowhere => absurd strands (nowhere stop)⟩
  message_brokenWalk := by
    rintro other ⟨⟩
    rfl
  message_overlongWalk := nofun
  overlongWalk_iff_endless _ := ⟨nofun, fun endless => absurd endless strands.not_endless⟩
  overlongWalk_iff_circles _ := ⟨nofun, fun circles => absurd circles.endless strands.not_endless⟩

theorem Wanders.reports (wanders : tree.Wanders tree.size node) (member : node ∈ tree.nodes) :
    tree.Reports node (.overlongWalk node tree.size) where
  stage_eq := rfl
  brokenWalk_iff stop := ⟨nofun, fun strands => absurd strands (wanders.not_strands stop)⟩
  overlongWalk_iff := ⟨fun _ => wanders.not_strands, fun _ => rfl⟩
  message_brokenWalk := nofun
  message_overlongWalk _ := rfl
  overlongWalk_iff_endless closed :=
    ⟨fun _ => (wanders.circles closed member).endless, fun _ => rfl⟩
  overlongWalk_iff_circles closed := ⟨fun _ => wanders.circles closed member, fun _ => rfl⟩

/-- The check passes, or it fails at the first node that is astray, whose walk has ended in one of
two ways. -/
theorem check_spec (tree : DominatorTree) :
    tree.check = .ok () ∨ ∃ node ∈ tree.nodes, tree.FirstAstray node ∧
      ((∃ stop, tree.check = .error (.inconsistent (.brokenWalk node stop)) ∧
        tree.Strands tree.size node stop) ∨
      (tree.check = .error (.inconsistent (.overlongWalk node tree.size)) ∧
        tree.Wanders tree.size node)) := by
  have decides (node : Node) (_ : node ∈ tree.nodes) :
      (tree.checkWalk node tree.size node = .ok () ∧ tree.Arrives tree.size node) ∨
      ∃ fault, tree.checkWalk node tree.size node = .error fault ∧
        ¬ tree.Arrives tree.size node ∧
          ((∃ stop, fault = .inconsistent (.brokenWalk node stop) ∧
            tree.Strands tree.size node stop) ∨
          (fault = .inconsistent (.overlongWalk node tree.size) ∧
            tree.Wanders tree.size node)) := by
    rcases checkWalk_spec tree node tree.size node with
      passed | ⟨stop, broken, strands, astray⟩ | ⟨overlong, wanders⟩
    · exact .inl passed
    · exact .inr ⟨_, broken, astray, .inl ⟨stop, rfl, strands⟩⟩
    · exact .inr ⟨_, overlong, wanders.not_arrives, .inr ⟨rfl, wanders⟩⟩
  rcases forM_spec decides with
    ⟨passed, -⟩ | ⟨before, node, after, fault, split, arrive, ⟨astray, way⟩, ended⟩
  · exact .inl passed
  · refine .inr ⟨node, by simp [split], ⟨before, after, split, arrive, astray⟩, ?_⟩
    rw [check, ended]
    rcases way with ⟨stop, rfl, strands⟩ | ⟨rfl, wanders⟩
    · exact .inl ⟨stop, rfl, strands⟩
    · exact .inr ⟨rfl, wanders⟩

/-- The check of any tree, damaged or not, decides whether all its nodes come up to the entry
within the limit.  If not, it reports the first node that does not, and whether going up from it
ends elsewhere or goes on for too long.  In a closed tree the limit turns no node away that comes
up to the entry at all, and only a walk in a circle goes on for too long. -/
theorem check_decides_ways_up (tree : DominatorTree) :
    (tree.check = .ok () ↔ ∀ node ∈ tree.nodes, tree.Arrives tree.size node) ∧
    (∀ fault, tree.check = .error fault → ∃ node violation, tree.FirstAstray node ∧
      fault = .inconsistent violation ∧ tree.Reports node violation) ∧
    (tree.Closed →
      (tree.check = .ok () ↔ ∀ node ∈ tree.nodes, ∃ limit, tree.Arrives limit node)) := by
  refine ⟨check_eq_ok_iff, ?_, ?_⟩
  · intro fault failed
    rcases check_spec tree with
      passed | ⟨node, member, astray, ⟨stop, broken, strands⟩ | ⟨overlong, wanders⟩⟩
    · rw [passed] at failed
      cases failed
    · rw [broken] at failed
      cases failed
      exact ⟨node, _, astray, rfl, strands.reports⟩
    · rw [overlong] at failed
      cases failed
      exact ⟨node, _, astray, rfl, wanders.reports member⟩
  · intro closed
    refine ⟨fun passed node member => ⟨_, check_eq_ok_iff.mp passed node member⟩, fun arrive => ?_⟩
    rcases check_spec tree with
      passed | ⟨node, member, ⟨before, after, -, -, astray⟩, ⟨stop, -, strands⟩ | ⟨-, wanders⟩⟩
    · exact passed
    · obtain ⟨limit, arrives⟩ := arrive node member
      exact absurd (strands.arrives arrives) astray
    · obtain ⟨limit, arrives⟩ := arrive node member
      exact absurd arrives ((wanders.circles closed member).not_arrives limit)

/-- A tree of four nodes in which `n1` and `n2` are above each other and `n3` is below `n1`. -/
def knotted : DominatorTree where
  entry := ⟨0⟩
  idom := ⟨#[none, some ⟨2⟩, some ⟨1⟩, some ⟨1⟩]⟩
  children := ⟨#[#[], #[⟨3⟩, ⟨2⟩], #[⟨1⟩], #[]]⟩
  order := #[⟨0⟩, ⟨3⟩, ⟨1⟩, ⟨2⟩]

/-- The walk from `n3` is given up after four steps, and it would never have ended. -/
theorem knotted_circles : knotted.Closed ∧ knotted.FirstAstray ⟨3⟩ ∧ knotted.Circles ⟨3⟩ := by
  have closed : knotted.Closed := by
    have listed : ∀ node ∈ knotted.nodes,
        (knotted.idom? node).all (knotted.nodes.contains ·) = true := by decide
    intro node member _ parent up
    have owned := listed node member
    rw [up, Option.all_some] at owned
    exact List.contains_iff_mem.mp owned
  have failed : knotted.check = .error (.inconsistent (.overlongWalk ⟨3⟩ 4)) := rfl
  obtain ⟨-, reported, -⟩ := check_decides_ways_up knotted
  obtain ⟨node, violation, astray, same, reports⟩ := reported _ failed
  cases same
  have nowhere (stop : Node) : ¬ knotted.Strands knotted.size node stop := by
    intro strands
    cases (reports.brokenWalk_iff stop).mpr strands
  have overlong := reports.overlongWalk_iff.mpr nowhere
  have circles := (reports.overlongWalk_iff_circles closed).mp overlong
  cases (Violation.overlongWalk.inj overlong).1
  exact ⟨closed, astray, circles⟩

/-! ### The limit of the queries -/

theorem lt_size_of_above? {parent : Node} (up : tree.above? node = some parent) :
    node.index < tree.idom.size := by
  rw [above?] at up
  split at up
  · cases up
  · exact NodeMap.lt_size_of_join_find? up

/-- A climb is broken off if the way up goes on for longer than the limit allows. -/
theorem climb_ends_or_breaks_off {α : Type} (tree : DominatorTree) (combine : α → Node → α)
    (start : Node) (steps : Nat) (node : Node) (result : α) :
    ((tree.climb combine start steps node result).2 = .ok () ∧
      ∃ further ≤ steps, follow tree.above? further node = none) ∨
    ((tree.climb combine start steps node result).2 = .error (.endlessWalk start) ∧
      ∀ further ≤ steps, (follow tree.above? further node).isSome = true) := by
  induction steps generalizing node result with
  | zero =>
      refine .inr ⟨rfl, fun further bound => ?_⟩
      cases Nat.le_zero.mp bound
      rfl
  | succ steps inductionHypothesis =>
      rw [climb]
      cases up : tree.above? node with
      | none => exact .inl ⟨rfl, 1, Nat.succ_le_succ (Nat.zero_le _), follow_succ_of_stop up 0⟩
      | some parent =>
          rcases inductionHypothesis parent (combine result node) with
            ⟨ended, further, bound, stopped⟩ | ⟨broken, goesOn⟩
          · refine .inl ⟨ended, further + 1, Nat.succ_le_succ bound, ?_⟩
            rw [follow_succ_of_link up, stopped]
          · refine .inr ⟨broken, ?_⟩
            rintro (_ | further) bound
            · rfl
            · rw [follow_succ_of_link up]
              exact goesOn further (Nat.le_of_succ_le_succ bound)

/-- All nodes on a way up but the last have a cell in the table of immediate dominators, so a
way of more nodes than `reach` has come to one of them twice. -/
theorem endless_of_beyond_reach
    (beyond : ∀ steps ≤ tree.reach, (follow tree.above? steps node).isSome = true) (steps : Nat) :
    (follow tree.above? steps node).isSome = true := by
  have length : (Node.below tree.idom.size).length = tree.idom.size := Node.length_below _
  have inside (steps : Nat) (bound : steps ≤ (Node.below tree.idom.size).length) :
      ∃ passed ∈ Node.below tree.idom.size, follow tree.above? steps node = some passed := by
    have within : steps + 1 ≤ tree.reach := by
      rw [reach]
      omega
    obtain ⟨passed, reached⟩ := Option.isSome_iff_exists.mp (beyond steps (by omega))
    obtain ⟨parent, above⟩ := Option.isSome_iff_exists.mp (beyond (steps + 1) within)
    rw [follow_succ_eq_link reached] at above
    exact ⟨passed, Node.mem_below.mpr (lt_size_of_above? above), reached⟩
  obtain ⟨first, period, positive, short, same⟩ := exists_repeat inside
  obtain ⟨earlier, early, equal⟩ := exists_earlier_of_repeat positive same steps
  rw [← equal]
  apply beyond
  rw [reach]
  omega

/-- Going up from a node of any tree, damaged or not, is reported as endless if it is, and not
otherwise: the limit breaks no way off that ends. -/
theorem ascend_spec (inside : tree.contains node = true) :
    ((tree.ascend node).2 = .ok () ∧ ∃ steps, follow tree.above? steps node = none) ∨
    ((tree.ascend node).2 = .error (.endlessWalk node) ∧
      ∀ steps, (follow tree.above? steps node).isSome = true) := by
  rw [ascend, if_pos inside, Prod.map_snd, id]
  rcases climb_ends_or_breaks_off tree (fun passed current => current :: passed) node tree.reach
    node [] with ⟨ended, further, -, stopped⟩ | ⟨broken, goesOn⟩
  · exact .inl ⟨ended, further, stopped⟩
  · exact .inr ⟨broken, endless_of_beyond_reach goesOn⟩

theorem Arrives.not_endless (arrives : tree.Arrives limit node) :
    ¬ ∀ steps, (follow tree.above? steps node).isSome = true := by
  intro endless
  obtain ⟨steps, -, arrived⟩ := arrives
  have same (passed : Nat) : follow tree.above? passed node = follow tree.idom? passed node := by
    induction passed with
    | zero => rfl
    | succ passed inductionHypothesis =>
        obtain ⟨current, reached⟩ := Option.isSome_iff_exists.mp (endless passed)
        obtain ⟨parent, above⟩ := Option.isSome_iff_exists.mp (endless (passed + 1))
        have up := above
        rw [follow_succ_eq_link reached, above?] at up
        split at up
        · cases up
        · rw [inductionHypothesis] at reached
          rw [above, follow_succ_eq_link reached, up]
  have stopped : tree.above? tree.entry = none := if_pos rfl
  have beyond := endless (steps + 1)
  rw [← same] at arrived
  rw [follow_eq_none_of_lt arrived stopped (Nat.lt_succ_self _)] at beyond
  cases beyond

theorem ascend_ends_of_check (passed : tree.check = .ok ()) (member : node ∈ tree.nodes) :
    (tree.ascend node).2 = .ok () := by
  have arrives := check_eq_ok_iff.mp passed node member
  by_cases inside : tree.contains node = true
  · rcases ascend_spec inside with ⟨ended, -⟩ | ⟨-, endless⟩
    · exact ended
    · exact absurd endless arrives.not_endless
  · rw [ascend, if_neg inside]

end DominatorTree

end FlowDominance
