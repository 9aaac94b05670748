import FlowDominance.Proofs.PassingChecks
import FlowDominance.Proofs.TableHandover

/-!
# How an analysis ends

An analysis of any graph ends in one of six ways.  `Verdict` lists them in the order in
which they are found out, each with everything that had been established by then.  All
other faults a stage can report are out of reach: what the later stages rely on holds
whatever the graph says about itself.
-/

namespace FlowDominance

open FlowGraph Semidominator

/-- Why an analysis cannot start on `graph`. -/
def FlowGraph.Unstartable (graph : FlowGraph) : EntryFault → Prop
  | .noNodes => graph.nodeCount = 0
  | .undesignated => graph.nodeCount ≠ 0 ∧ graph.entry = none
  | .foreign entry nodeCount => graph.nodeCount ≠ 0 ∧ graph.entry = some entry ∧
      graph.nodeCount ≤ entry.index ∧ nodeCount = graph.nodeCount
  | .stated _ => False

/-- How the analysis of a graph ends, and for what reason. -/
inductive Verdict (graph : FlowGraph) (options : Options) : Except Fault Analysis → Prop where
  | noEntry {reason : EntryFault} : graph.Unstartable reason →
      Verdict graph options (.error (.noEntry reason))
  | tooLarge {start : Node} : graph.usableEntry = .ok start →
      options.refuses graph.nodeCount = true →
        Verdict graph options (.error (.tooLarge graph.nodeCount options.nodeLimit))
  /-- Within reach there is a successor that the graph does not own. -/
  | dangling {start target : Node} : graph.usableEntry = .ok start →
      options.refuses graph.nodeCount = false → graph.Dangling start target →
        Verdict graph options (.error (.unknownNode target graph.nodeCount))
  /-- A reachable node has no candidate. -/
  | starved {start node : Node} {numbering : Numbering} : graph.usableEntry = .ok start →
      options.refuses graph.nodeCount = false → graph.number start = .ok numbering →
        LatestStarved graph numbering start node →
          Verdict graph options (.error (.noCandidate node))
  /-- A semidominator is no ancestor. -/
  | strayed {start semidominator node : Node} {numbering : Numbering} :
      graph.usableEntry = .ok start → options.refuses graph.nodeCount = false →
        graph.number start = .ok numbering →
          (∀ other, ¬ Starved graph numbering start other) →
            EarliestStrayed graph numbering start semidominator node →
              Verdict graph options
                (.error (.inconsistent (.strayedSemidominator semidominator node)))
  | finished {start : Node} {analysis : Analysis} : graph.usableEntry = .ok start →
      options.refuses graph.nodeCount = false → graph.number start = .ok analysis.numbering →
        analysis.Derived graph start → Verdict graph options (.ok analysis)

theorem outcome_analyse (graph : FlowGraph) (options : Options) :
    (graph.analyse options).outcome =
      graph.usableEntry.bind fun start =>
        if options.refuses graph.nodeCount then
          .error (.tooLarge graph.nodeCount options.nodeLimit)
        else
          (graph.number start).bind fun numbering =>
            (if options.checksNumbering then numbering.check start else .ok ()).bind fun _ =>
              (semidominators graph numbering).outcome.bind fun semi =>
                (relativeDominators numbering semi).bind fun relatives =>
                  (immediateDominators numbering semi relatives).outcome.bind fun idom =>
                    (if options.checksTree then Analysis.check ⟨numbering, semi, idom⟩
                      else .ok ()).bind fun _ => .ok ⟨numbering, semi, idom⟩ := by
  have lifted {α : Type} (result : Except Fault α) :
      (liftM result : Traced α).outcome = result := rfl
  simp only [FlowGraph.analyse, Traced.outcome_bind, lifted]
  congr 1
  funext start
  split
  · rfl
  · cases options.checksNumbering <;> cases options.checksTree <;>
      simp [Except.bind, Traced.outcome_bind, lifted]

/-! ### Stage by stage -/

variable {graph : FlowGraph} {options : Options} {start node : Node} {numbering : Numbering}
  {analysis : Analysis}

theorem usableEntry_eq_error_iff {fault : Fault} :
    graph.usableEntry = .error fault ↔
      ∃ reason, fault = .noEntry reason ∧ graph.Unstartable reason := by
  constructor
  · intro failed
    rw [usableEntry] at failed
    split at failed
    · next empty =>
        cases failed
        exact ⟨.noNodes, rfl, empty⟩
    · next inhabited =>
        split at failed
        · next undesignated =>
            cases failed
            exact ⟨.undesignated, rfl, inhabited, undesignated⟩
        · next entry designated =>
            split at failed
            · cases failed
            · next outside =>
                cases failed
                rw [contains_iff, Nat.not_lt] at outside
                exact ⟨.foreign entry graph.nodeCount, rfl, inhabited, designated, outside, rfl⟩
  · rintro ⟨reason, rfl, unstartable⟩
    cases reason with
    | noNodes => exact if_pos unstartable
    | undesignated => rw [usableEntry, if_neg unstartable.1, unstartable.2]
    | foreign entry nodeCount =>
        obtain ⟨inhabited, designated, outside, rfl⟩ := unstartable
        have absent : ¬ graph.contains entry = true := by
          rwa [contains_iff, Nat.not_lt]
        rw [usableEntry, if_neg inhabited, designated]
        exact if_neg absent
    | stated text => cases unstartable

theorem outcome_of_unstartable {reason : EntryFault} (unstartable : graph.Unstartable reason) :
    (graph.analyse options).outcome = .error (.noEntry reason) := by
  rw [outcome_analyse, usableEntry_eq_error_iff.mpr ⟨reason, rfl, unstartable⟩]
  rfl

section

variable (usable : graph.usableEntry = .ok start)
include usable

theorem outcome_of_refused (refused : options.refuses graph.nodeCount = true) :
    (graph.analyse options).outcome = .error (.tooLarge graph.nodeCount options.nodeLimit) := by
  rw [outcome_analyse, usable]
  simp only [Except.bind, refused, if_true]

variable (admitted : options.refuses graph.nodeCount = false)
include admitted

theorem outcome_of_unnumbered {fault : Fault} (failed : graph.number start = .error fault) :
    (graph.analyse options).outcome = .error fault := by
  rw [outcome_analyse, usable]
  simp [Except.bind, admitted, failed]

theorem outcome_of_numbered (numbered : graph.number start = .ok numbering)
    (depthFirst : graph.DepthFirst start numbering) :
    (∃ node, (graph.analyse options).outcome = .error (.noCandidate node) ∧
      LatestStarved graph numbering start node) ∨
    (∃ semidominator node, (graph.analyse options).outcome =
        .error (.inconsistent (.strayedSemidominator semidominator node)) ∧
      (∀ other, ¬ Starved graph numbering start other) ∧
        EarliestStrayed graph numbering start semidominator node) ∨
    ∃ analysis, (graph.analyse options).outcome = .ok analysis ∧
      analysis.numbering = numbering ∧ analysis.Derived graph start := by
  have lawful := depthFirst.lawful
  have numberingChecked :
      (if options.checksNumbering then numbering.check start else .ok ()) = .ok () := by
    rw [lawful.check_eq_ok, ite_self]
  rw [outcome_analyse, usable]
  simp only [Except.bind, admitted, Bool.false_eq_true, if_false, numbered, numberingChecked]
  rcases semidominators_spec lawful depthFirst.nodeCount_eq with
    ⟨semi, searched, tabulates⟩ | ⟨node, searched, starved, latest⟩
  · simp only [searched]
    right
    have reads := tabulates.readsAs lawful
    rcases relativeDominators_spec lawful reads with
      ⟨relatives, related, relativeTable, properAncestor⟩ |
      ⟨node, related, positive, apart, stray, earlier⟩
    · simp only [related]
      right
      rcases immediateDominators_spec lawful (relativeTable.readsAs lawful reads) with
        ⟨idom, settled, solves, -⟩ | ⟨node, source, -, positive, -, -, unresolved, -⟩
      · have derived :=
          derived_of_tables tabulates depthFirst relativeTable properAncestor solves
        have treeChecked : (if options.checksTree then
            Analysis.check ⟨numbering, semi, idom⟩ else .ok ()) = .ok () := by
          rw [derived.check_eq_ok, ite_self]
        simp only [settled, treeChecked]
        exact ⟨_, rfl, rfl, derived⟩
      · exact absurd (relativeTable.resolved lawful positive) unresolved
    · simp only [related]
      left
      have first := strayed_of_tabulates tabulates positive apart stray
      refine ⟨_, node, rfl, tabulates.not_starved lawful, first, ?_⟩
      intro other otherNode strayed
      by_contra before
      have proper := earlier otherNode (lawful.contains_iff_rank_pos.mp strayed.1)
        strayed.2.1 (Nat.lt_of_not_le before)
      exact not_strayed_of_tabulates tabulates lawful proper strayed
  · simp only [searched]
    exact .inl ⟨node, rfl, starved, latest⟩

end

/-- Every analysis ends in one of the ways listed by `Verdict`. -/
theorem analyse_verdict (graph : FlowGraph) (options : Options) :
    Verdict graph options (graph.analyse options).outcome := by
  cases usable : graph.usableEntry with
  | error fault =>
      obtain ⟨reason, rfl, unstartable⟩ := usableEntry_eq_error_iff.mp usable
      rw [outcome_of_unstartable unstartable]
      exact .noEntry unstartable
  | ok start =>
      cases admitted : options.refuses graph.nodeCount with
      | true =>
          rw [outcome_of_refused usable admitted]
          exact .tooLarge usable admitted
      | false =>
          rcases number_spec (contains_iff.mpr (usableEntry_eq_ok_iff.mp usable).2) with
            ⟨numbering, numbered, depthFirst⟩ | ⟨target, dangling, failed⟩
          · rcases outcome_of_numbered usable admitted numbered depthFirst with
              ⟨node, ended, starved⟩ | ⟨semidominator, node, ended, noneStarved, strayed⟩ |
              ⟨analysis, ended, rfl, derived⟩
            · rw [ended]
              exact .starved usable admitted numbered starved
            · rw [ended]
              exact .strayed usable admitted numbered noneStarved strayed
            · rw [ended]
              exact .finished usable admitted numbered derived
          · rw [outcome_of_unnumbered usable admitted failed]
            exact .dangling usable admitted dangling

theorem derived_of_analyse_eq_ok {entry : Node} (designated : graph.entry = some entry)
    (success : (graph.analyse options).outcome = .ok analysis) : analysis.Derived graph entry := by
  have verdict := analyse_verdict graph options
  rw [success] at verdict
  cases verdict with
  | finished usable _ _ derived =>
      have same := (usableEntry_eq_ok_iff.mp usable).1
      rw [designated] at same
      cases same
      exact derived

namespace Analysis.Derived

variable (derived : analysis.Derived graph start)
include derived

theorem not_starved (node : Node) : ¬ Starved graph analysis.numbering start node :=
  derived.tabulates.not_starved derived.depthFirst.lawful node

theorem not_strayed (semidominator node : Node) :
    ¬ Strayed graph analysis.numbering start semidominator node := by
  intro strayed
  have lawful := derived.depthFirst.lawful
  have positive := lawful.contains_iff_rank_pos.mp strayed.1
  exact not_strayed_of_tabulates derived.tabulates lawful
    (derived.properAncestor node positive strayed.2.1) strayed

end Analysis.Derived

end FlowDominance
