import FlowDominance.FlowGraph.Path

/-!
# Cutting and joining paths

Dominance quantifies over all paths, so its laws are shown by building one path out of
others: a path is cut at a node it leads through, prolonged by an edge, or joined to a
path that begins where it ends.
-/

namespace FlowDominance

namespace FlowGraph

variable {graph : FlowGraph} {source middle target node : Node} {nodes further : List Node}

namespace Path

/-- What holds of the first node and is handed on along edges holds all along a path. -/
theorem forall_mem_of_closed {holds : Node → Prop}
    (closed : ∀ source target, holds source → graph.Edge source target → holds target)
    (path : graph.Path source target nodes) (first : holds source) :
    ∀ node ∈ nodes, holds node := by
  induction path with
  | single only =>
      intro node member
      rwa [List.mem_singleton.mp member]
  | cons edge rest inductionHypothesis =>
      intro node member
      rcases List.mem_cons.mp member with rfl | member
      · exact first
      · exact inductionHypothesis (closed _ _ first edge) node member

theorem exists_to_mem (path : graph.Path source target nodes) (member : node ∈ nodes) :
    ∃ front, graph.Path source node front ∧ front ⊆ nodes := by
  induction path with
  | single only =>
      rw [List.mem_singleton.mp member]
      exact ⟨_, .single only, List.Subset.refl _⟩
  | @cons source next target nodes edge rest inductionHypothesis =>
      by_cases first : node = source
      · rw [first]
        exact ⟨_, .single source, List.cons_subset.mpr ⟨List.mem_cons_self, List.nil_subset _⟩⟩
      · have later := (List.mem_cons.mp member).resolve_left first
        obtain ⟨front, path, subset⟩ := inductionHypothesis later
        exact ⟨_, .cons edge path, List.cons_subset_cons _ subset⟩

theorem exists_last_edge (path : graph.Path source target nodes) :
    source = target ∨ ∃ middle front, graph.Path source middle front ∧
      graph.Edge middle target ∧ front ⊆ nodes := by
  induction path with
  | single only => exact .inl rfl
  | @cons source next target nodes edge rest inductionHypothesis =>
      right
      rcases inductionHypothesis with rfl | ⟨middle, front, path, last, subset⟩
      · exact ⟨source, _, .single source, edge, by simp⟩
      · exact ⟨middle, _, .cons edge path, last, List.cons_subset_cons _ subset⟩

/-- Two paths can be joined so that the result leads through no further nodes. -/
theorem exists_append (first : graph.Path source middle nodes)
    (second : graph.Path middle target further) :
    ∃ joined, graph.Path source target joined ∧
      ∀ node ∈ joined, node ∈ nodes ∨ node ∈ further := by
  refine ⟨_, first.append second, ?_⟩
  intro node member
  rcases List.mem_append.mp member with before | after
  · exact .inl before
  · exact .inr (List.mem_of_mem_tail after)

end Path

theorem Reaches.of_edge (edge : graph.Edge source target) : graph.Reaches source target :=
  ⟨_, .cons edge (.single target)⟩

/-- Of two nodes on a path the one that is on every path to the other is on every path to
the end. -/
theorem OnEveryPath.trans (first : graph.OnEveryPath source node middle)
    (second : graph.OnEveryPath source middle target) :
    graph.OnEveryPath source node target := by
  intro nodes path
  obtain ⟨front, toMiddle, subset⟩ := path.exists_to_mem (second nodes path)
  exact subset (first front toMiddle)

/-- What is on every path to the target of an edge, without being that target, is on every
path to its source. -/
theorem OnEveryPath.of_edge (always : graph.OnEveryPath source node target)
    (edge : graph.Edge middle target) (apart : node ≠ target) :
    graph.OnEveryPath source node middle := by
  intro nodes path
  obtain ⟨joined, longer, onlyThese⟩ := path.exists_append (.cons edge (.single target))
  rcases onlyThese node (always joined longer) with before | after
  · exact before
  · rcases List.mem_cons.mp after with rfl | last
    · exact path.target_mem
    · exact absurd (List.mem_singleton.mp last) apart

/-- The nodes on every path to the target are the target itself and those on every path to
the closest of them. -/
theorem ClosestOnEveryPath.onEveryPath_iff {closest : Node}
    (isClosest : graph.ClosestOnEveryPath source closest target) :
    graph.OnEveryPath source node target ↔
      node = target ∨ graph.OnEveryPath source node closest := by
  constructor
  · intro always
    by_cases same : node = target
    · exact .inl same
    · exact .inr (isClosest.closest_of_onEveryPath node same always)
  · rintro (rfl | always)
    · exact graph.onEveryPath_self source node
    · exact always.trans isClosest.onEveryPath

theorem onEveryPath_start_iff : graph.OnEveryPath source node source ↔ node = source := by
  constructor
  · intro always
    exact List.mem_singleton.mp (always _ (.single source))
  · rintro rfl
    exact graph.onEveryPath_self node node

end FlowGraph

end FlowDominance
