import FlowDominance.Proofs.DepthFirstSearch
import FlowDominance.Proofs.SemidominatorTable

/-!
# Semidominators of a consistent graph

Where predecessors and successors agree, going back from a node is going along a path in
reverse.  A candidate then reaches its node through later nodes only, so it is above the
node in the depth-first tree, and every path that gets past an ancestor of a node without
meeting it enters the tree below that ancestor from a candidate.
-/

namespace FlowDominance

namespace Semidominator

open FlowGraph

variable {graph : FlowGraph} {numbering : Numbering} {start : Node}
  {source target node upper lower : Node} {bound : Nat} {nodes : List Node}
  (depthFirst : graph.DepthFirst start numbering) (consistent : graph.Consistent start)
include depthFirst

theorem ancestor_of_onEveryPath (always : graph.OnEveryPath start upper lower)
    (positive : 0 < numbering.rank lower) : numbering.Ancestor upper lower := by
  obtain ⟨nodes, path, between⟩ :=
    depthFirst.exists_tree_path (depthFirst.lawful.start_ancestor positive) positive
  exact (between upper (always nodes path)).2

theorem properAncestor_of_closest (positive : 0 < numbering.rank lower)
    (isClosest : graph.ClosestOnEveryPath start upper lower) :
    numbering.ProperAncestor upper lower := by
  have above := ancestor_of_onEveryPath depthFirst isClosest.onEveryPath positive
  exact depthFirst.lawful.properAncestor_iff.mpr ⟨above, isClosest.ne_target⟩

/-- A node on every path to a node below it is on every path to the nodes on the way. -/
theorem onEveryPath_of_below (always : graph.OnEveryPath start upper lower)
    (below : numbering.ProperAncestor upper node) (above : numbering.Ancestor node lower)
    (positive : 0 < numbering.rank lower) : graph.OnEveryPath start upper node := by
  intro nodes path
  obtain ⟨further, treePath, between⟩ := depthFirst.exists_tree_path above positive
  obtain ⟨joined, joinedPath, onlyThese⟩ := path.exists_append treePath
  rcases onlyThese upper (always joined joinedPath) with before | after
  · exact before
  · have := depthFirst.lawful.rank_lt_of_properAncestor below
    have := depthFirst.lawful.rank_le_of_ancestor (between upper after).1
    omega

include consistent

theorem mem_predecessors_iff (sourceKnown : 0 < numbering.rank source)
    (targetKnown : 0 < numbering.rank target) :
    source ∈ graph.predecessors target ↔ target ∈ graph.successors source :=
  consistent.mem_predecessors_iff source target ((depthFirst.rank_pos_iff source).mp sourceKnown)
    ((depthFirst.rank_pos_iff target).mp targetKnown)

theorem edge_of_mem_predecessors (listed : source ∈ graph.predecessors target)
    (sourceKnown : 0 < numbering.rank source) (targetKnown : 0 < numbering.rank target) :
    graph.Edge source target :=
  ⟨depthFirst.contains_of_rank_pos sourceKnown,
    (mem_predecessors_iff depthFirst consistent sourceKnown targetKnown).mp listed⟩

/-- The way back from `target` to `source`, walked forwards. -/
theorem LeadsTo.exists_path (leads : LeadsTo graph numbering bound source target)
    (sourceKnown : 0 < numbering.rank source) (targetKnown : 0 < numbering.rank target) :
    ∃ nodes, graph.Path source target nodes ∧
      ∀ node ∈ nodes, node = source ∨ node = target ∨ bound < numbering.rank node := by
  induction leads with
  | single listed =>
      have edge := edge_of_mem_predecessors depthFirst consistent listed sourceKnown targetKnown
      refine ⟨_, .cons edge (.single _), ?_⟩
      intro node member
      simp only [List.mem_cons, List.not_mem_nil, or_false] at member
      exact member.imp_right .inl
  | @step middle target position listed placed later _ inductionHypothesis =>
      have middleLater := Numbering.lt_rank_of_position? placed later
      have middleKnown : 0 < numbering.rank middle := by omega
      have edge := edge_of_mem_predecessors depthFirst consistent listed middleKnown targetKnown
      obtain ⟨nodes, path, between⟩ := inductionHypothesis middleKnown
      obtain ⟨joined, longer, onlyThese⟩ := path.exists_append (.cons edge (.single target))
      refine ⟨joined, longer, ?_⟩
      intro node member
      rcases onlyThese node member with before | after
      · rcases between node before with atSource | atMiddle | inner
        · exact .inl atSource
        · exact .inr (.inr (atMiddle ▸ middleLater))
        · exact .inr (.inr inner)
      · simp only [List.mem_cons, List.not_mem_nil, or_false] at after
        rcases after with atMiddle | atTarget
        · exact .inr (.inr (atMiddle ▸ middleLater))
        · exact .inr (.inl atTarget)

theorem Candidate.exists_path (candidate : Candidate graph numbering target source) :
    ∃ nodes, graph.Path source target nodes ∧ ∀ node ∈ nodes,
      node = source ∨ node = target ∨ numbering.rank target < numbering.rank node := by
  obtain ⟨positive, before, leads⟩ := (candidate_iff depthFirst.lawful).mp candidate
  exact leads.exists_path depthFirst consistent positive (by omega)

theorem Candidate.properAncestor (candidate : Candidate graph numbering target source) :
    numbering.ProperAncestor source target := by
  obtain ⟨positive, before, -⟩ := (candidate_iff depthFirst.lawful).mp candidate
  obtain ⟨nodes, path, between⟩ := candidate.exists_path depthFirst consistent
  have after : ∀ node ∈ nodes, numbering.rank source ≤ numbering.rank node := by
    intro node member
    rcases between node member with rfl | rfl | later
    · exact Nat.le_refl _
    · omega
    · omega
  have ancestor := depthFirst.ancestor_of_path path .refl positive after
  exact depthFirst.lawful.properAncestor_of_rank_lt ancestor before

theorem candidate_of_parent {parent : Node} (up : numbering.parent? node = some parent) :
    Candidate graph numbering node parent := by
  have parentKnown := depthFirst.lawful.rank_parent_pos up
  have before := depthFirst.lawful.rank_parent_lt up
  have listed := (mem_predecessors_iff depthFirst consistent parentKnown (by omega)).mpr
    (depthFirst.mem_successors_of_parent node parent up)
  exact (candidate_iff depthFirst.lawful).mpr ⟨parentKnown, before, .single listed⟩

/-- In a consistent graph no node is without candidates. -/
theorem not_starved (node : Node) : ¬ Starved graph numbering start node := by
  rintro ⟨discovered, apart, none⟩
  have positive := depthFirst.lawful.contains_iff_rank_pos.mp discovered
  obtain ⟨parent, up⟩ := depthFirst.lawful.exists_parent node positive apart
  exact none parent (candidate_of_parent depthFirst consistent up)

/-- A node on every path to another one is on every path to its candidates as well. -/
theorem Candidate.onEveryPath (candidate : Candidate graph numbering target source)
    (always : graph.OnEveryPath start node target) (apart : node ≠ target) :
    graph.OnEveryPath start node source := by
  have lawful := depthFirst.lawful
  intro front toSource
  obtain ⟨positive, before, -⟩ := (candidate_iff lawful).mp candidate
  obtain ⟨nodes, path, between⟩ := candidate.exists_path depthFirst consistent
  obtain ⟨joined, joinedPath, onlyThese⟩ := toSource.exists_append path
  rcases onlyThese node (always joined joinedPath) with inFront | after
  · exact inFront
  · rcases between node after with atSource | atTarget | later
    · rw [atSource]
      exact toSource.target_mem
    · exact absurd atTarget apart
    · have := lawful.rank_le_of_ancestor
        (ancestor_of_onEveryPath depthFirst always (by omega))
      omega

/-! ### Ways past an ancestor -/

/-- The earliest node of a path is above its end, and whatever precedes the path leads to
that node through later ones. -/
theorem exists_earliest (path : graph.Path source target nodes)
    (known : 0 < numbering.rank source) :
    ∃ least ∈ nodes, (∀ node ∈ nodes, numbering.rank least ≤ numbering.rank node) ∧
      numbering.Ancestor least target ∧ ∀ previous ∈ graph.predecessors source,
        LeadsTo graph numbering (numbering.rank least) previous least := by
  induction path with
  | single only =>
      refine ⟨only, List.mem_cons_self, ?_, .refl, fun previous listed => .single listed⟩
      intro node member
      exact Nat.le_of_eq (by rw [List.mem_singleton.mp member])
  | @cons source next target nodes edge rest inductionHypothesis =>
      have nextKnown := depthFirst.contains_successor source next known edge.2
      obtain ⟨least, member, minimal, above, leads⟩ := inductionHypothesis nextKnown
      rcases Nat.lt_or_ge (numbering.rank least) (numbering.rank source) with later | earlier
      · refine ⟨least, List.mem_cons_of_mem _ member, ?_, above, ?_⟩
        · exact List.forall_mem_cons.mpr ⟨Nat.le_of_lt later, minimal⟩
        · intro previous listed
          have fromSource := leads source
            ((mem_predecessors_iff depthFirst consistent known nextKnown).mpr edge.2)
          exact fromSource.prolong listed later
      · have sourceMinimal : ∀ node ∈ source :: nodes,
            numbering.rank source ≤ numbering.rank node := by
          refine List.forall_mem_cons.mpr ⟨Nat.le_refl _, ?_⟩
          intro node inRest
          exact Nat.le_trans earlier (minimal node inRest)
        exact ⟨source, List.mem_cons_self, sourceMinimal,
          depthFirst.ancestor_of_path (.cons edge rest) .refl known sourceMinimal,
          fun previous listed => .single listed⟩

/-- A path that comes from before `upper` and ends below it, without leading through it,
passes a node below `upper` that has a candidate before `upper`. -/
theorem exists_bypass (path : graph.Path source target nodes) (known : 0 < numbering.rank source)
    (avoids : upper ∉ nodes) (above : numbering.Ancestor upper target)
    (earlier : ∃ node ∈ nodes, numbering.rank node < numbering.rank upper) :
    ∃ outside inside, numbering.rank outside < numbering.rank upper ∧
      Candidate graph numbering inside outside ∧ numbering.ProperAncestor upper inside ∧
        numbering.Ancestor inside target := by
  have lawful := depthFirst.lawful
  induction path with
  | single only =>
      obtain ⟨node, member, before⟩ := earlier
      rw [List.mem_singleton.mp member] at before
      have := lawful.rank_le_of_ancestor above
      omega
  | @cons source next target nodes edge rest inductionHypothesis =>
      have nextKnown := depthFirst.contains_successor source next known edge.2
      have restAvoids : upper ∉ nodes := fun member => avoids (List.mem_cons_of_mem _ member)
      by_cases restEarlier : ∃ node ∈ nodes, numbering.rank node < numbering.rank upper
      · exact inductionHypothesis nextKnown restAvoids above restEarlier
      · have sourceEarlier : numbering.rank source < numbering.rank upper := by
          obtain ⟨node, member, before⟩ := earlier
          rcases List.mem_cons.mp member with rfl | inRest
          · exact before
          · exact absurd ⟨node, inRest, before⟩ restEarlier
        obtain ⟨inside, member, -, insideAbove, leads⟩ :=
          exists_earliest depthFirst consistent rest nextKnown
        have insideKnown := depthFirst.rank_pos_of_path rest nextKnown inside member
        have targetKnown := depthFirst.rank_pos_of_path rest nextKnown target rest.target_mem
        have notBefore : numbering.rank upper ≤ numbering.rank inside :=
          Nat.le_of_not_lt fun before => restEarlier ⟨inside, member, before⟩
        have apart : upper ≠ inside := by
          rintro rfl
          exact restAvoids member
        have upperAbove := lawful.ancestor_of_rank_le above insideAbove targetKnown notBefore
        have below := lawful.properAncestor_iff.mpr ⟨upperAbove, apart⟩
        have listed := (mem_predecessors_iff depthFirst consistent known nextKnown).mpr edge.2
        exact ⟨source, inside, sourceEarlier,
          (candidate_iff lawful).mpr ⟨known, by omega, leads source listed⟩, below, insideAbove⟩

/-- If an ancestor of a node is not on every path to it, then a node on the way between
them has a candidate before that ancestor. -/
theorem exists_bypass_of_not_onEveryPath (above : numbering.Ancestor upper lower)
    (notAlways : ¬ graph.OnEveryPath start upper lower) :
    ∃ outside inside, numbering.rank outside < numbering.rank upper ∧
      Candidate graph numbering inside outside ∧ numbering.ProperAncestor upper inside ∧
        numbering.Ancestor inside lower := by
  have lawful := depthFirst.lawful
  obtain ⟨nodes, path, avoids⟩ : ∃ nodes, graph.Path start lower nodes ∧ upper ∉ nodes := by
    simpa [OnEveryPath] using notAlways
  have startKnown := lawful.rank_start_pos
  have lowerKnown := depthFirst.rank_pos_of_path path startKnown lower path.target_mem
  have apart : upper ≠ start := by
    rintro rfl
    exact avoids path.source_mem
  have startEarlier : numbering.rank start < numbering.rank upper := by
    have := lawful.one_lt_rank (lawful.rank_pos_of_ancestor above lowerKnown) apart
    rwa [lawful.rank_start]
  exact exists_bypass depthFirst consistent path startKnown avoids above
    ⟨start, path.source_mem, startEarlier⟩

end Semidominator

end FlowDominance
