import FlowDominance.Proofs.DominanceQueries

/-!
# Checks that may be left out

An analysis can be asked to check its numbering and its finished tables.  Both checks
pass whenever they are reached, whatever the graph says about itself: what they compare
follows from the loops that filled the tables.  A check that passes notes nothing, so a
run with checks is, record by record, the run without them.
-/

namespace FlowDominance

open FlowGraph Semidominator

section Stages

variable {graph : FlowGraph} {start : Node} {numbering : Numbering} {semi : NodeMap Node}
  {relatives idom : NodeMap (Option Node)}

theorem check_of_number (inside : graph.contains start = true)
    (numbered : graph.number start = .ok numbering) : numbering.check start = .ok () :=
  (depthFirst_of_number_eq_ok inside numbered).lawful.check_eq_ok

theorem derived_of_stages (depthFirst : graph.DepthFirst start numbering)
    (searched : (semidominators graph numbering).outcome = .ok semi)
    (related : relativeDominators numbering semi = .ok relatives)
    (settled : (immediateDominators numbering semi relatives).outcome = .ok idom) :
    Analysis.Derived graph start ⟨numbering, semi, idom⟩ := by
  have lawful := depthFirst.lawful
  have tabulates := tabulates_of_semidominators lawful depthFirst.nodeCount_eq searched
  have reads := tabulates.readsAs lawful
  rcases relativeDominators_spec lawful reads with
    ⟨found, ended, relativeTable, properAncestor⟩ | ⟨node, ended, -⟩
  · rw [related] at ended
    cases ended
    rcases immediateDominators_spec lawful (relativeTable.readsAs lawful reads) with
      ⟨table, ended, solves, -⟩ | ⟨node, source, ended, -⟩
    · rw [settled] at ended
      cases ended
      exact derived_of_tables tabulates depthFirst relativeTable properAncestor solves
    · rw [settled] at ended
      cases ended
  · rw [related] at ended
    cases ended

theorem check_of_stages (inside : graph.contains start = true)
    (numbered : graph.number start = .ok numbering)
    (searched : (semidominators graph numbering).outcome = .ok semi)
    (related : relativeDominators numbering semi = .ok relatives)
    (settled : (immediateDominators numbering semi relatives).outcome = .ok idom) :
    Analysis.check ⟨numbering, semi, idom⟩ = .ok () := by
  have depthFirst := depthFirst_of_number_eq_ok inside numbered
  exact (derived_of_stages depthFirst searched related settled).check_eq_ok

end Stages

def Options.withoutChecks (options : Options) : Options :=
  { options with checksNumbering := false, checksTree := false }

theorem analyse_withoutChecks (graph : FlowGraph) (options : Options) :
    graph.analyse options = graph.analyse options.withoutChecks := by
  have refuses : options.withoutChecks.refuses graph.nodeCount = options.refuses graph.nodeCount :=
    rfl
  unfold analyse
  apply Traced.bind_congr
  intro start usable
  rw [refuses]
  by_cases refused : options.refuses graph.nodeCount = true
  · simp only [refused, if_true, Traced.error_bind]
    rfl
  · simp only [refused]
    apply Traced.bind_congr
    intro numbering numbered
    have inside := contains_iff.mpr (usableEntry_eq_ok_iff.mp usable).2
    rw [Traced.ite_check_bind (check_of_number inside numbered)]
    apply Traced.bind_congr
    intro _ _
    apply Traced.bind_congr
    intro semi searched
    apply Traced.bind_congr
    intro relatives related
    apply Traced.bind_congr
    intro idom settled
    rw [Traced.ite_check_bind (check_of_stages inside numbered searched related settled)]
    rfl

/-- Options with the same limit lead to the same run: the same records, and the same
analysis or the same fault at the end.  Neither check ever fails. -/
theorem checks_never_change_analysis (graph : FlowGraph) :
    (∀ first second : Options, first.nodeLimit = second.nodeLimit →
      graph.analyse first = graph.analyse second) ∧
    (∀ start numbering, graph.contains start = true → graph.number start = .ok numbering →
      numbering.check start = .ok ()) ∧
    ∀ start numbering semi relatives idom, graph.contains start = true →
      graph.number start = .ok numbering →
        (semidominators graph numbering).outcome = .ok semi →
          relativeDominators numbering semi = .ok relatives →
            (immediateDominators numbering semi relatives).outcome = .ok idom →
              Analysis.check ⟨numbering, semi, idom⟩ = .ok () := by
  refine ⟨?_, fun start numbering => check_of_number,
    fun start numbering semi relatives idom => check_of_stages⟩
  intro first second sameLimit
  rw [analyse_withoutChecks graph first, analyse_withoutChecks graph second]
  unfold Options.withoutChecks
  rw [sameLimit]

theorem checks_pass_on_crossing :
    BlockGraph.crossing.toFlowGraph.analyse .strict =
        BlockGraph.crossing.toFlowGraph.analyse .standard ∧
      crossingAnalysis.numbering.check ⟨0⟩ = .ok () ∧ crossingAnalysis.check = .ok () := by
  obtain ⟨sameRun, numberingPasses, treePasses⟩ :=
    checks_never_change_analysis BlockGraph.crossing.toFlowGraph
  have numbered :
      BlockGraph.crossing.toFlowGraph.number ⟨0⟩ = .ok crossingAnalysis.numbering := by cbv
  refine ⟨sameRun .strict .standard rfl, numberingPasses ⟨0⟩ _ (by decide) numbered, ?_⟩
  exact treePasses ⟨0⟩ _ _ (.replicate 3 none) _ (by decide) numbered (by cbv) (by cbv) (by cbv)

end FlowDominance
