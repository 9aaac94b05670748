import FlowDominance.Proofs.AnalysisVerdict
import FlowDominance.Proofs.EdgeRecords
import FlowDominance.Proofs.NumberingLaws

/-!
# Which graphs are refused, and with which fault

Every fault of an analysis has a condition on the graph under which it is reported, given
that the conditions of the earlier ones do not apply.  No condition mentions a search or a
table, apart from the depth-first numbering that the later faults speak about.  A
consistent graph meets none of the conditions but the first two.
-/

namespace FlowDominance

open FlowGraph Semidominator

/-- The analysis of `graph` gets as far as numbering it from `start`. -/
def FlowGraph.Admitted (graph : FlowGraph) (options : Options) (start : Node) : Prop :=
  graph.entry = some start ∧ start.index < graph.nodeCount ∧
    ¬ (options.nodeLimit ≠ 0 ∧ options.nodeLimit < graph.nodeCount)

variable {graph : FlowGraph} {options : Options} {start : Node} {numbering : Numbering}

theorem admitted_iff : graph.Admitted options start ↔
    graph.usableEntry = .ok start ∧ options.refuses graph.nodeCount = false := by
  rw [Admitted, usableEntry_eq_ok_iff, ← Options.refuses_iff, Bool.not_eq_true, and_assoc]

/-! ### Fault by fault -/

theorem analyse_eq_noEntry_iff {reason : EntryFault} :
    (graph.analyse options).outcome = .error (.noEntry reason) ↔ graph.Unstartable reason := by
  constructor
  · intro ended
    have verdict := analyse_verdict graph options
    rw [ended] at verdict
    cases verdict with
    | noEntry unstartable => exact unstartable
  · exact outcome_of_unstartable

theorem analyse_eq_tooLarge_iff {nodeCount limit : Nat} :
    (graph.analyse options).outcome = .error (.tooLarge nodeCount limit) ↔
      (∃ start, graph.entry = some start ∧ start.index < graph.nodeCount) ∧
        (options.nodeLimit ≠ 0 ∧ options.nodeLimit < graph.nodeCount) ∧
          nodeCount = graph.nodeCount ∧ limit = options.nodeLimit := by
  constructor
  · intro ended
    have verdict := analyse_verdict graph options
    rw [ended] at verdict
    cases verdict with
    | tooLarge usable refused =>
        exact ⟨⟨_, usableEntry_eq_ok_iff.mp usable⟩, Options.refuses_iff.mp refused, rfl, rfl⟩
  · rintro ⟨⟨start, usable⟩, refused, rfl, rfl⟩
    exact outcome_of_refused (usableEntry_eq_ok_iff.mpr usable) (Options.refuses_iff.mpr refused)

theorem dangling_of_analyse_eq_unknownNode {target : Node} {nodeCount : Nat}
    (ended : (graph.analyse options).outcome = .error (.unknownNode target nodeCount)) :
    nodeCount = graph.nodeCount ∧
      ∃ start, graph.Admitted options start ∧ graph.Dangling start target := by
  have verdict := analyse_verdict graph options
  rw [ended] at verdict
  cases verdict with
  | dangling usable admitted dangling =>
      exact ⟨rfl, _, admitted_iff.mpr ⟨usable, admitted⟩, dangling⟩

theorem exists_unknownNode_of_dangling {target : Node} (admitted : graph.Admitted options start)
    (dangling : graph.Dangling start target) :
    ∃ named, (graph.analyse options).outcome = .error (.unknownNode named graph.nodeCount) := by
  obtain ⟨usable, notRefused⟩ := admitted_iff.mp admitted
  rcases number_spec (contains_iff.mpr admitted.2.1) with
    ⟨numbering, -, depthFirst⟩ | ⟨named, -, failed⟩
  · exact absurd dangling (depthFirst.not_dangling target)
  · exact ⟨named, outcome_of_unnumbered usable notRefused failed⟩

theorem exists_numbering_iff (admitted : graph.Admitted options start) :
    (∃ numbering, graph.number start = .ok numbering) ↔
      ∀ target, ¬ graph.Dangling start target :=
  exists_number_iff (contains_iff.mpr admitted.2.1)

theorem latestStarved_of_analyse_eq_noCandidate {node : Node}
    (ended : (graph.analyse options).outcome = .error (.noCandidate node)) :
    ∃ start numbering, graph.Admitted options start ∧ graph.number start = .ok numbering ∧
      LatestStarved graph numbering start node := by
  have verdict := analyse_verdict graph options
  rw [ended] at verdict
  cases verdict with
  | starved usable admitted numbered starved =>
      exact ⟨_, _, admitted_iff.mpr ⟨usable, admitted⟩, numbered, starved⟩

theorem earliestStrayed_of_analyse_eq_inconsistent {violation : Violation}
    (ended : (graph.analyse options).outcome = .error (.inconsistent violation)) :
    ∃ start numbering semidominator node, violation = .strayedSemidominator semidominator node ∧
      graph.Admitted options start ∧ graph.number start = .ok numbering ∧
        (∀ other, ¬ Starved graph numbering start other) ∧
          EarliestStrayed graph numbering start semidominator node := by
  have verdict := analyse_verdict graph options
  rw [ended] at verdict
  cases verdict with
  | strayed usable admitted numbered noneStarved strayed =>
      exact ⟨_, _, _, _, rfl, admitted_iff.mpr ⟨usable, admitted⟩, numbered, noneStarved,
        strayed⟩

section

variable (admitted : graph.Admitted options start) (numbered : graph.number start = .ok numbering)
include admitted numbered

/-- What becomes of a graph that has been numbered depends on whether a node is starved,
and otherwise on whether a semidominator strays. -/
theorem analyse_cases_of_numbered :
    (∃ node, (graph.analyse options).outcome = .error (.noCandidate node) ∧
      Starved graph numbering start node) ∨
    (∃ semidominator node, (graph.analyse options).outcome =
        .error (.inconsistent (.strayedSemidominator semidominator node)) ∧
      (∀ other, ¬ Starved graph numbering start other) ∧
        Strayed graph numbering start semidominator node) ∨
    ((∃ analysis, (graph.analyse options).outcome = .ok analysis) ∧
      (∀ other, ¬ Starved graph numbering start other) ∧
        ∀ semidominator other, ¬ Strayed graph numbering start semidominator other) := by
  obtain ⟨usable, notRefused⟩ := admitted_iff.mp admitted
  have depthFirst := depthFirst_of_number_eq_ok (contains_iff.mpr admitted.2.1) numbered
  rcases outcome_of_numbered usable notRefused numbered depthFirst with
    ⟨node, ended, starved⟩ | ⟨semidominator, node, ended, noneStarved, strayed⟩ |
    ⟨analysis, ended, rfl, derived⟩
  · exact .inl ⟨node, ended, starved.1⟩
  · exact .inr (.inl ⟨semidominator, node, ended, noneStarved, strayed.1⟩)
  · exact .inr (.inr ⟨⟨analysis, ended⟩, derived.not_starved, derived.not_strayed⟩)

theorem exists_noCandidate_of_starved {node : Node}
    (starved : Starved graph numbering start node) :
    ∃ named, (graph.analyse options).outcome = .error (.noCandidate named) := by
  rcases analyse_cases_of_numbered admitted numbered with
    ⟨named, ended, -⟩ | ⟨-, -, -, noneStarved, -⟩ | ⟨-, noneStarved, -⟩
  · exact ⟨named, ended⟩
  · exact absurd starved (noneStarved node)
  · exact absurd starved (noneStarved node)

variable (noneStarved : ∀ other, ¬ Starved graph numbering start other)
include noneStarved

theorem exists_inconsistent_of_strayed {semidominator node : Node}
    (strayed : Strayed graph numbering start semidominator node) :
    ∃ violation, (graph.analyse options).outcome = .error (.inconsistent violation) := by
  rcases analyse_cases_of_numbered admitted numbered with
    ⟨named, -, starved⟩ | ⟨other, named, ended, -, -⟩ | ⟨-, -, noneStrayed⟩
  · exact absurd starved (noneStarved named)
  · exact ⟨_, ended⟩
  · exact absurd strayed (noneStrayed semidominator node)

theorem exists_analysis_of_not_strayed
    (noneStrayed : ∀ semidominator node, ¬ Strayed graph numbering start semidominator node) :
    ∃ analysis, (graph.analyse options).outcome = .ok analysis := by
  rcases analyse_cases_of_numbered admitted numbered with
    ⟨named, -, starved⟩ | ⟨other, named, -, -, strayed⟩ | ⟨ended, -, -⟩
  · exact absurd starved (noneStarved named)
  · exact absurd strayed (noneStrayed other named)
  · exact ended

end

theorem numbered_of_analyse_eq_ok {analysis : Analysis}
    (ended : (graph.analyse options).outcome = .ok analysis) :
    ∃ start, graph.Admitted options start ∧ graph.number start = .ok analysis.numbering ∧
      analysis.Derived graph start := by
  have verdict := analyse_verdict graph options
  rw [ended] at verdict
  cases verdict with
  | finished usable admitted numbered derived =>
      exact ⟨_, admitted_iff.mpr ⟨usable, admitted⟩, numbered, derived⟩

theorem below_entry_of_visited {analysis : Analysis} {node : Node}
    (ended : (graph.analyse options).outcome = .ok analysis) (visited : node ∈ analysis.visited)
    (apart : graph.entry ≠ some node) :
    ∃ start, graph.entry = some start ∧ analysis.Derived graph start ∧
      0 < analysis.numbering.rank node ∧ node ≠ start := by
  obtain ⟨start, ⟨designated, -⟩, -, derived⟩ := numbered_of_analyse_eq_ok ended
  refine ⟨start, designated, derived, derived.depthFirst.lawful.mem_order_iff.mp visited, ?_⟩
  rintro rfl
  exact apart designated

/-- An analysis reports the first applicable of these faults, whatever the graph says about
itself and whatever checks are asked for, and succeeds if none applies.  Of several starved
nodes the last discovered is named, of several stray semidominators that of the node
discovered first. -/
theorem analyse_reports_first_fault (graph : FlowGraph) (options : Options) :
    -- no entry to start from: no nodes, none designated, or not a node of the graph
    (∀ reason, (graph.analyse options).outcome = .error (.noEntry reason) ↔
      graph.Unstartable reason) ∧
    -- over the limit
    (∀ nodeCount limit, (graph.analyse options).outcome = .error (.tooLarge nodeCount limit) ↔
      (∃ start, graph.entry = some start ∧ start.index < graph.nodeCount) ∧
        (options.nodeLimit ≠ 0 ∧ options.nodeLimit < graph.nodeCount) ∧
          nodeCount = graph.nodeCount ∧ limit = options.nodeLimit) ∧
    -- a foreign successor within reach
    ((∃ node nodeCount,
        (graph.analyse options).outcome = .error (.unknownNode node nodeCount)) ↔
      ∃ start target, graph.Admitted options start ∧ graph.Dangling start target) ∧
    (∀ node nodeCount,
      (graph.analyse options).outcome = .error (.unknownNode node nodeCount) →
        nodeCount = graph.nodeCount ∧
          ∃ start, graph.Admitted options start ∧ graph.Dangling start node) ∧
    (∀ start, graph.Admitted options start → ((∃ numbering, graph.number start = .ok numbering) ↔
      ∀ target, ¬ graph.Dangling start target)) ∧
    -- a reachable node without candidates
    ((∃ node, (graph.analyse options).outcome = .error (.noCandidate node)) ↔
      ∃ start numbering node, graph.Admitted options start ∧
        graph.number start = .ok numbering ∧ Starved graph numbering start node) ∧
    (∀ node, (graph.analyse options).outcome = .error (.noCandidate node) →
      ∃ start numbering, graph.Admitted options start ∧ graph.number start = .ok numbering ∧
        LatestStarved graph numbering start node) ∧
    -- a semidominator that is no proper ancestor
    ((∃ violation, (graph.analyse options).outcome = .error (.inconsistent violation)) ↔
      ∃ start numbering semidominator node, graph.Admitted options start ∧
        graph.number start = .ok numbering ∧ (∀ other, ¬ Starved graph numbering start other) ∧
          Strayed graph numbering start semidominator node) ∧
    (∀ violation, (graph.analyse options).outcome = .error (.inconsistent violation) →
      ∃ start numbering semidominator node, graph.Admitted options start ∧
        graph.number start = .ok numbering ∧
          EarliestStrayed graph numbering start semidominator node ∧
            violation = .strayedSemidominator semidominator node ∧
              violation.stage = .immediateDominators ∧
                violation.message =
                  s!"semidominator {semidominator} of {node} is not a DFS ancestor") ∧
    -- none of these, and no other fault
    ((∃ analysis, (graph.analyse options).outcome = .ok analysis) ↔
      ∃ start numbering, graph.Admitted options start ∧ graph.number start = .ok numbering ∧
        (∀ node, ¬ Starved graph numbering start node) ∧
          ∀ semidominator node, ¬ Strayed graph numbering start semidominator node) ∧
    ∀ fault, (graph.analyse options).outcome = .error fault →
      (∃ reason, fault = .noEntry reason) ∨
      (∃ nodeCount limit, fault = .tooLarge nodeCount limit) ∨
      (∃ node nodeCount, fault = .unknownNode node nodeCount) ∨
      (∃ node, fault = .noCandidate node) ∨ ∃ violation, fault = .inconsistent violation := by
  refine ⟨fun reason => analyse_eq_noEntry_iff, fun nodeCount limit => analyse_eq_tooLarge_iff,
    ⟨?_, ?_⟩, fun node nodeCount => dangling_of_analyse_eq_unknownNode,
    fun start => exists_numbering_iff, ⟨?_, ?_⟩,
    fun node => latestStarved_of_analyse_eq_noCandidate, ⟨?_, ?_⟩, ?_, ⟨?_, ?_⟩, ?_⟩
  · rintro ⟨node, nodeCount, ended⟩
    obtain ⟨-, start, admitted, dangling⟩ := dangling_of_analyse_eq_unknownNode ended
    exact ⟨start, node, admitted, dangling⟩
  · rintro ⟨start, target, admitted, dangling⟩
    obtain ⟨named, ended⟩ := exists_unknownNode_of_dangling admitted dangling
    exact ⟨named, _, ended⟩
  · rintro ⟨node, ended⟩
    obtain ⟨start, numbering, admitted, numbered, starved⟩ :=
      latestStarved_of_analyse_eq_noCandidate ended
    exact ⟨start, numbering, node, admitted, numbered, starved.1⟩
  · rintro ⟨start, numbering, node, admitted, numbered, starved⟩
    exact exists_noCandidate_of_starved admitted numbered starved
  · rintro ⟨violation, ended⟩
    obtain ⟨start, numbering, semidominator, node, -, admitted, numbered, noneStarved, strayed⟩ :=
      earliestStrayed_of_analyse_eq_inconsistent ended
    exact ⟨start, numbering, semidominator, node, admitted, numbered, noneStarved, strayed.1⟩
  · rintro ⟨start, numbering, semidominator, node, admitted, numbered, noneStarved, strayed⟩
    exact exists_inconsistent_of_strayed admitted numbered noneStarved strayed
  · intro violation ended
    obtain ⟨start, numbering, semidominator, node, rfl, admitted, numbered, -, strayed⟩ :=
      earliestStrayed_of_analyse_eq_inconsistent ended
    exact ⟨start, numbering, semidominator, node, admitted, numbered, strayed, rfl, rfl, rfl⟩
  · rintro ⟨analysis, ended⟩
    obtain ⟨start, admitted, numbered, derived⟩ := numbered_of_analyse_eq_ok ended
    exact ⟨start, _, admitted, numbered, derived.not_starved, derived.not_strayed⟩
  · rintro ⟨start, numbering, admitted, numbered, noneStarved, noneStrayed⟩
    exact exists_analysis_of_not_strayed admitted numbered noneStarved noneStrayed
  · intro fault ended
    have verdict := analyse_verdict graph options
    rw [ended] at verdict
    cases verdict with
    | noEntry => exact .inl ⟨_, rfl⟩
    | tooLarge => exact .inr (.inl ⟨_, _, rfl⟩)
    | dangling => exact .inr (.inr (.inl ⟨_, _, rfl⟩))
    | starved => exact .inr (.inr (.inr (.inl ⟨_, rfl⟩)))
    | strayed => exact .inr (.inr (.inr (.inr ⟨_, rfl⟩)))

/-! ### Consistent graphs -/

theorem FlowGraph.Consistent.not_dangling (consistent : graph.Consistent start) (target : Node) :
    ¬ graph.Dangling start target := by
  rintro ⟨source, reached, edge, outside⟩
  rw [consistent.contains_successor source target reached edge.2] at outside
  cases outside

theorem Semidominator.not_strayed (depthFirst : graph.DepthFirst start numbering)
    (consistent : graph.Consistent start) (semidominator node : Node) :
    ¬ Strayed graph numbering start semidominator node := by
  rintro ⟨-, -, isSemidominator, stray⟩
  exact stray (isSemidominator.1.properAncestor depthFirst consistent)

theorem exists_analysis_of_consistent (admitted : graph.Admitted options start)
    (consistent : graph.Consistent start) :
    ∃ analysis, (graph.analyse options).outcome = .ok analysis := by
  rcases number_spec (contains_iff.mpr admitted.2.1) with
    ⟨numbering, numbered, depthFirst⟩ | ⟨target, dangling, -⟩
  · exact exists_analysis_of_not_strayed admitted numbered
      (not_starved depthFirst consistent) (not_strayed depthFirst consistent)
  · exact absurd dangling (consistent.not_dangling target)

theorem fault_of_consistent {fault : Fault}
    (consistent : ∀ entry, graph.usableEntry = .ok entry → graph.Consistent entry)
    (ended : (graph.analyse options).outcome = .error fault) :
    (∃ reason, fault = .noEntry reason ∧ graph.Unstartable reason) ∨
      (fault = .tooLarge graph.nodeCount options.nodeLimit ∧
        options.nodeLimit ≠ 0 ∧ options.nodeLimit < graph.nodeCount) := by
  have notAdmitted {entry : Node} (usable : graph.usableEntry = .ok entry)
      (notRefused : options.refuses graph.nodeCount = false) : False := by
    obtain ⟨analysis, succeeded⟩ := exists_analysis_of_consistent
      (admitted_iff.mpr ⟨usable, notRefused⟩) (consistent entry usable)
    rw [succeeded] at ended
    cases ended
  have verdict := analyse_verdict graph options
  rw [ended] at verdict
  cases verdict with
  | noEntry unstartable => exact .inl ⟨_, rfl, unstartable⟩
  | tooLarge usable refused => exact .inr ⟨rfl, Options.refuses_iff.mp refused⟩
  | dangling usable notRefused => exact (notAdmitted usable notRefused).elim
  | starved usable notRefused => exact (notAdmitted usable notRefused).elim
  | strayed usable notRefused => exact (notAdmitted usable notRefused).elim

/-- The analysis of a consistent graph, or of one that was built step by step, succeeds if
there is an entry to start from and the graph is not over the limit; otherwise the fault
says so.  None of the other faults is ever reported for such a graph. -/
theorem analyse_succeeds_on_consistent (graph : FlowGraph) (options : Options)
    (inOrder : (∀ entry, graph.entry = some entry → graph.contains entry = true →
        graph.Consistent entry) ∨
      ∃ (α : Type) (history : List (BlockGraph.Command α)),
        graph = (BlockGraph.Command.replay .empty history).toFlowGraph) :
    ((∃ analysis, (graph.analyse options).outcome = .ok analysis) ↔
      0 < graph.nodeCount ∧
        (∃ entry, graph.entry = some entry ∧ entry.index < graph.nodeCount) ∧
          ¬ (options.nodeLimit ≠ 0 ∧ options.nodeLimit < graph.nodeCount)) ∧
    ∀ fault, (graph.analyse options).outcome = .error fault →
      (∃ reason, fault = .noEntry reason ∧ graph.Unstartable reason) ∨
      (fault = .tooLarge graph.nodeCount options.nodeLimit ∧
        options.nodeLimit ≠ 0 ∧ options.nodeLimit < graph.nodeCount) := by
  have consistent (entry : Node) (usable : graph.usableEntry = .ok entry) :
      graph.Consistent entry := by
    obtain ⟨designated, inside⟩ := usableEntry_eq_ok_iff.mp usable
    rcases inOrder with consistent | ⟨α, history, rfl⟩
    · exact consistent entry designated (contains_iff.mpr inside)
    · exact (BlockGraph.records_replay_empty history).consistent designated
  refine ⟨⟨?_, ?_⟩, fun fault => fault_of_consistent consistent⟩
  · rintro ⟨analysis, ended⟩
    obtain ⟨entry, ⟨designated, inside, notRefused⟩, -⟩ := numbered_of_analyse_eq_ok ended
    exact ⟨Nat.zero_lt_of_lt inside, ⟨entry, designated, inside⟩, notRefused⟩
  · rintro ⟨-, ⟨entry, designated, inside⟩, notRefused⟩
    have admitted : graph.Admitted options entry := ⟨designated, inside, notRefused⟩
    exact exists_analysis_of_consistent admitted
      (consistent entry (admitted_iff.mp admitted).1)

theorem analyse_crossing_succeeds :
    ∃ analysis, (BlockGraph.crossing.toFlowGraph.analyse .strict).outcome = .ok analysis := by
  have succeeds :=
    (analyse_succeeds_on_consistent BlockGraph.crossing.toFlowGraph .strict
      (.inr ⟨Unit, _, rfl⟩)).1
  exact succeeds.mpr ⟨by decide, ⟨⟨0⟩, by decide, by decide⟩, by decide⟩

end FlowDominance
