import FlowDominance.Proofs.OptionalChecks
import FlowDominance.Proofs.Renaming
import FlowDominance.Proofs.SearchSteps

/-!
# Analyses of renamed graphs

Every stage of an analysis decides by positions alone, so on renamed input it takes the same
course and ends with the renamed table or the renamed fault.  The stages are followed one by
one: what a function does with the outcomes of others is first written with `Except.bind`, and
then the rules of `Renaming.Carries` apply.  No stage needs to know what the tables mean, so the
two runs agree also where a stage fails.
-/

namespace FlowDominance

variable {count : Nat} {names : Renaming count}

/-! ### Sets of nodes -/

/-- `renamed` is the set of the renamed members of `set`, in the same round. -/
structure StampSet.IsRenamed (set : StampSet) (names : Renaming count) (renamed : StampSet) :
    Prop where
  round_eq : renamed.round = set.round
  stamps : set.stamps.IsRenamed names id renamed.stamps

namespace StampSet

theorem isRenamed_fresh (names : Renaming count) :
    (fresh count).IsRenamed names (fresh count) where
  round_eq := rfl
  stamps := NodeMap.isRenamed_replicate names rfl

namespace IsRenamed

variable {set renamed : StampSet} (isRenamed : set.IsRenamed names renamed)
include isRenamed

theorem contains_eq (node : Node) : renamed.contains (names node) = set.contains node := by
  rw [contains, contains, isRenamed.stamps.find?_eq, isRenamed.round_eq, Option.map_id_fun, id]

theorem nextRound : set.nextRound.IsRenamed names renamed.nextRound := by
  obtain ⟨stamps, before⟩ := set
  obtain ⟨otherStamps, round⟩ := renamed
  obtain ⟨sameRound, stampsRenamed⟩ := isRenamed
  change round = before at sameRound
  subst sameRound
  by_cases last : round = lastRound
  · simp only [StampSet.nextRound, if_pos last]
    refine ⟨rfl, ?_⟩
    rw [stampsRenamed.size_eq, stampsRenamed.size_renamed]
    exact NodeMap.isRenamed_replicate names rfl
  · simp only [StampSet.nextRound, if_neg last]
    exact ⟨rfl, stampsRenamed⟩

theorem carries_insert (node : Node) :
    names.Carries (fun inserted other => inserted.IsRenamed names other)
      (set.insert node) (renamed.insert (names node)) := by
  rw [insert_eq_bind, insert_eq_bind, isRenamed.round_eq]
  exact (isRenamed.stamps.carries_write node set.round).bind fun _ _ stamps => .result ⟨rfl, stamps⟩

end IsRenamed

end StampSet

/-! ### Semidominators -/

namespace Semidominator

variable {graph renamed : FlowGraph} {numbering renumbered : Numbering}

theorem better_renamed (rename : Node → Node) (node : Node) (position : Nat)
    (best : Option (Node × Nat)) :
    better (rename node) position (best.map (Prod.map rename id)) =
      Prod.map rename id (better node position best) := by
  cases best with
  | none => rfl
  | some best =>
      simp only [Option.map_some, better, Prod.map_snd, id]
      split <;> rfl

/-- Whether a renamed predecessor is passed over is decided by the numbering and the set before
the renaming. -/
theorem sweep_renamed_cons (same : numbering.IsRenamed names renumbered) {seen others : StampSet}
    (seenRenamed : seen.IsRenamed names others) (bound : Nat) (node : Node)
    (pending stack : List Node) (best : Option (Node × Nat)) :
    sweep renamed renumbered bound ((node :: pending).map names) stack best others =
      match numbering.position? node with
      | none => sweep renamed renumbered bound (pending.map names) stack best others
      | some position =>
          if seen.contains node then
            sweep renamed renumbered bound (pending.map names) stack best others
          else
            (others.insert (names node)).bind fun others =>
              if position < bound then
                sweep renamed renumbered bound (pending.map names) stack
                  (some (better (names node) position best)) others
              else
                sweep renamed renumbered bound (pending.map names) (names node :: stack) best
                  others := by
  have step :=
    sweep_cons renamed renumbered bound (names node) (pending.map names) stack best others
  rw [same.position?_eq, seenRenamed.contains_eq] at step
  exact step

variable (isRenamed : graph.IsRenamed names renamed) (same : numbering.IsRenamed names renumbered)
include isRenamed same

theorem carries_sweep (bound : Nat) (pending stack : List Node) (best : Option (Node × Nat))
    {seen others : StampSet} (seenRenamed : seen.IsRenamed names others) :
    names.Carries (fun found other => other.1 = found.1.map names ∧ found.2.IsRenamed names other.2)
      (sweep graph numbering bound pending stack best seen)
      (sweep renamed renumbered bound (pending.map names) (stack.map names)
        (best.map (Prod.map names id)) others) := by
  fun_induction sweep graph numbering bound pending stack best seen generalizing others with
  | case1 stack best seen node pending unplaced inductionHypothesis =>
      rw [sweep_renamed_cons same seenRenamed, unplaced]
      exact inductionHypothesis seenRenamed
  | case2 stack best seen node pending position placed known inductionHypothesis =>
      rw [sweep_renamed_cons same seenRenamed, placed]
      simp only [if_pos known]
      exact inductionHypothesis seenRenamed
  | case3 stack best seen node pending position placed fresh fault failure =>
      have followed := seenRenamed.carries_insert node
      rw [failure] at followed
      rw [sweep_renamed_cons same seenRenamed, placed]
      simp only [if_neg fresh, followed.eq_fault]
      exact .fault fault
  | case4 stack best seen node pending position placed fresh inserted success early
      inductionHypothesis =>
      have followed := seenRenamed.carries_insert node
      rw [success] at followed
      obtain ⟨other, otherSuccess, insertedRenamed⟩ := followed.exists_result
      rw [sweep_renamed_cons same seenRenamed, placed]
      simp only [if_neg fresh, otherSuccess, Except.bind, if_pos early, better_renamed]
      exact inductionHypothesis insertedRenamed
  | case5 stack best seen node pending position placed fresh inserted success late
      inductionHypothesis =>
      have followed := seenRenamed.carries_insert node
      rw [success] at followed
      obtain ⟨other, otherSuccess, insertedRenamed⟩ := followed.exists_result
      rw [sweep_renamed_cons same seenRenamed, placed]
      simp only [if_neg fresh, otherSuccess, Except.bind, if_neg late]
      exact inductionHypothesis insertedRenamed
  | case6 best seen =>
      rw [List.map_nil, sweep]
      refine .result ⟨?_, seenRenamed⟩
      cases best <;> rfl
  | case7 best seen node stack fault failure =>
      have looked := isRenamed.carries_predecessorsOf node
      rw [failure] at looked
      rw [List.map_nil, List.map_cons, sweep_nil_cons, looked.eq_fault]
      exact .fault fault
  | case8 best seen node stack predecessors success inductionHypothesis =>
      have looked := isRenamed.carries_predecessorsOf node
      rw [success] at looked
      obtain ⟨others, otherSuccess, rfl⟩ := looked.exists_result
      rw [List.map_nil, List.map_cons, sweep_nil_cons, otherSuccess]
      exact inductionHypothesis seenRenamed

theorem carries_search (target : Node) (position : Nat) {seen others : StampSet}
    (seenRenamed : seen.IsRenamed names others) :
    names.Carries (fun found other => other.1 = found.1.map names ∧ found.2.IsRenamed names other.2)
      (search graph numbering target position seen)
      (search renamed renumbered (names target) position others) := by
  rw [search_eq_bind, search_eq_bind]
  refine (seenRenamed.nextRound.carries_insert target).bind fun inserted other insertedRenamed => ?_
  exact carries_sweep isRenamed same position [] [target] none insertedRenamed

structure Progress.IsRenamed (progress : Progress) (names : Renaming count) (other : Progress) :
    Prop where
  seen : progress.seen.IsRenamed names other.seen
  found : progress.found.IsRenamed names names other.found

theorem carries_settle {progress other : Progress} (holds : progress.IsRenamed names other)
    (entry : Node × Nat) :
    names.Carries (fun taken followed => taken.1.IsRenamed names followed.1)
      (settle graph numbering progress entry)
      (settle renamed renumbered other (Prod.map names id entry)) := by
  obtain ⟨node, position⟩ := entry
  rw [Prod.map_apply, id, settle_eq_bind, settle_eq_bind]
  refine (carries_search isRenamed same node position holds.seen).bind ?_
  rintro ⟨result, seen⟩ ⟨_, others⟩ ⟨rfl, seenRenamed⟩
  cases result with
  | none => exact .fault (.noCandidate node)
  | some semidominator =>
      refine (holds.found.carries_write node semidominator).bind fun found other written => ?_
      exact .result ⟨seenRenamed, written⟩

theorem carries_semidominators :
    names.Carries (fun semi other => semi.IsRenamed names names other)
      (semidominators graph numbering).outcome (semidominators renamed renumbered).outcome := by
  rw [outcome_semidominators, outcome_semidominators, same.nodeCount_eq, same.nodeCount_renamed,
    same.placedBelowRoot_eq, ← List.map_reverse]
  have started : (Progress.start count).IsRenamed names (.start count) :=
    ⟨StampSet.isRenamed_fresh names, NodeMap.isRenamed_ofFn_id names⟩
  have searched (entries : List (Node × Nat)) :
      names.Carries (fun progress other => progress.IsRenamed names other)
        (Traced.foldNoting (settle graph numbering) entries (.start count) #[]).outcome
        (Traced.foldNoting (settle renamed renumbered) (entries.map (Prod.map names id))
          (.start count) #[]).outcome :=
    .foldNoting (fun entry progress other holds => carries_settle isRenamed same holds entry)
      entries started
  exact (searched _).bind fun progress other holds => .result holds.found

end Semidominator

/-! ### Immediate dominators -/

namespace RelativeDominator

theorem settle_eq_bind (numbering : Numbering) (semi : NodeMap Node)
    (relatives : NodeMap (Option Node)) (node : Node) :
    settle numbering semi relatives node =
      (find numbering semi node).bind (relatives.write node) := by
  rw [settle]
  cases find numbering semi node <;> rfl

variable {numbering renumbered : Numbering} (same : numbering.IsRenamed names renumbered)
include same

theorem carries_positionOf (semidominator : Node) :
    names.Carries (fun position other => other = position) (positionOf numbering semidominator)
      (positionOf renumbered (names semidominator)) := by
  rw [positionOf, positionOf, same.position?_eq]
  cases numbering.position? semidominator with
  | none => exact .fault (.inconsistent (.unnumberedSemidominator semidominator))
  | some position => exact .result rfl

variable {semi semiRenamed : NodeMap Node} (semiSame : semi.IsRenamed names names semiRenamed)
include semiSame

theorem carries_climb (node semidominator : Node) (steps : Nat) (walk : Option Node) (least : Nat)
    (best : Option Node) :
    names.Carries (fun relative other => other = relative.map names)
      (climb numbering semi node semidominator steps walk least best)
      (climb renumbered semiRenamed (names node) (names semidominator) steps (walk.map names) least
        (best.map names)) := by
  induction steps generalizing walk least best with
  | zero =>
      cases walk with
      | none => exact .fault (.inconsistent (.strayedSemidominator semidominator node))
      | some current => exact .fault (.endlessWalk node)
  | succ steps inductionHypothesis =>
      cases walk with
      | none => exact .fault (.inconsistent (.strayedSemidominator semidominator node))
      | some current =>
          simp only [Option.map_some, climb, names.apply_eq_iff]
          split
          · exact .result rfl
          · refine (semiSame.carries_read current).bind ?_
            rintro found _ rfl
            refine (carries_positionOf same found).bind ?_
            rintro _ position rfl
            rw [same.parent?_eq]
            split
            · exact inductionHypothesis (numbering.parent? current) position (some current)
            · exact inductionHypothesis (numbering.parent? current) least best

theorem carries_find (node : Node) :
    names.Carries (fun relative other => other = relative.map names)
      (find numbering semi node) (find renumbered semiRenamed (names node)) := by
  refine (semiSame.carries_read node).bind ?_
  rintro semidominator _ rfl
  refine (carries_positionOf same semidominator).bind ?_
  rintro _ position rfl
  rw [same.parent?_eq, same.nodeCount_eq, same.nodeCount_renamed]
  exact carries_climb same semiSame node semidominator (count + 1) (numbering.parent? node)
    position none

theorem carries_settle {relatives others : NodeMap (Option Node)}
    (holds : relatives.IsRenamed names (Option.map names) others) (node : Node) :
    names.Carries (fun written other => written.IsRenamed names (Option.map names) other)
      (settle numbering semi relatives node) (settle renumbered semiRenamed others (names node)) := by
  rw [settle_eq_bind, settle_eq_bind]
  refine (carries_find same semiSame node).bind ?_
  rintro relative _ rfl
  exact holds.carries_write node relative

theorem carries_relativeDominators :
    names.Carries (fun relatives others => relatives.IsRenamed names (Option.map names) others)
      (relativeDominators numbering semi) (relativeDominators renumbered semiRenamed) := by
  rw [relativeDominators, relativeDominators, same.belowRoot_eq, same.nodeCount_eq,
    same.nodeCount_renamed]
  exact .foldlM (fun node relatives others holds => carries_settle same semiSame holds node)
    numbering.belowRoot (NodeMap.isRenamed_replicate names rfl)

end RelativeDominator

namespace ImmediateDominator

theorem settle_eq_bind (semi : NodeMap Node) (relatives idom : NodeMap (Option Node))
    (node : Node) :
    settle semi relatives idom node =
      (find semi relatives idom node).bind fun dominator =>
        (idom.write node (some dominator)).bind fun idom =>
          .ok (idom, .immediateDominator node dominator) := by
  rw [settle]
  cases find semi relatives idom node with
  | error fault => rfl
  | ok dominator =>
      simp only [Except.bind]
      cases idom.write node (some dominator) <;> rfl

variable {semi semiRenamed : NodeMap Node}
  {relatives relativesRenamed idom idomRenamed : NodeMap (Option Node)}
  (semiSame : semi.IsRenamed names names semiRenamed)
  (relativesSame : relatives.IsRenamed names (Option.map names) relativesRenamed)
include semiSame relativesSame

theorem carries_find (idomSame : idom.IsRenamed names (Option.map names) idomRenamed)
    (node : Node) :
    names.Carries (fun dominator other => other = names dominator)
      (find semi relatives idom node)
      (find semiRenamed relativesRenamed idomRenamed (names node)) := by
  refine (relativesSame.carries_read node).bind ?_
  rintro relative _ rfl
  cases relative with
  | none => exact semiSame.carries_read node
  | some relative =>
      refine (idomSame.carries_read relative).bind ?_
      rintro dominator _ rfl
      cases dominator with
      | none => exact .fault (.inconsistent (.unresolvedDominator relative node))
      | some dominator => exact .result rfl

theorem carries_settle (idomSame : idom.IsRenamed names (Option.map names) idomRenamed)
    (node : Node) :
    names.Carries (fun taken followed => taken.1.IsRenamed names (Option.map names) followed.1)
      (settle semi relatives idom node)
      (settle semiRenamed relativesRenamed idomRenamed (names node)) := by
  rw [settle_eq_bind, settle_eq_bind]
  refine (carries_find semiSame relativesSame idomSame node).bind ?_
  rintro dominator _ rfl
  refine (idomSame.carries_write node (some dominator)).bind fun written other holds => ?_
  exact .result holds

theorem carries_immediateDominators {numbering renumbered : Numbering}
    (same : numbering.IsRenamed names renumbered) :
    names.Carries (fun idom other => idom.IsRenamed names (Option.map names) other)
      (immediateDominators numbering semi relatives).outcome
      (immediateDominators renumbered semiRenamed relativesRenamed).outcome := by
  rw [immediateDominators, immediateDominators, same.belowRoot_eq, same.nodeCount_eq,
    same.nodeCount_renamed]
  exact .foldNoting
    (fun node idom other holds => carries_settle semiSame relativesSame holds node)
    numbering.belowRoot (NodeMap.isRenamed_replicate names rfl)

end ImmediateDominator

/-! ### Whole analyses -/

/-- `renamed` is `analysis` with its nodes renamed, table by table. -/
structure Analysis.IsRenamed (analysis : Analysis) (names : Renaming count) (renamed : Analysis) :
    Prop where
  numbering : analysis.numbering.IsRenamed names renamed.numbering
  semi : analysis.semi.IsRenamed names names renamed.semi
  idom : analysis.idom.IsRenamed names (Option.map names) renamed.idom

namespace Analysis.IsRenamed

variable {analysis renamed : Analysis} (isRenamed : analysis.IsRenamed names renamed)
include isRenamed

theorem visited_eq : renamed.visited = analysis.visited.map names := by
  rw [visited, visited, isRenamed.numbering.order_eq, Array.toList_map]

theorem idom?_eq (node : Node) : renamed.idom? (names node) = (analysis.idom? node).map names := by
  rw [idom?, idom?, isRenamed.idom.find?_eq]
  cases analysis.idom.find? node <;> rfl

end Analysis.IsRenamed

variable {graph renamed : FlowGraph}

/-- The analysis of a renamed graph is the renamed analysis of the graph: the renamed nodes in
the same order, at the same positions, with the renamed parents, semidominators and immediate
dominators.  If the one fails, so does the other, with the renamed fault. -/
theorem analyse_of_isRenamed (isRenamed : graph.IsRenamed names renamed) (options : Options) :
    names.Carries (fun analysis other => analysis.IsRenamed names other)
      (graph.analyse options).outcome (renamed.analyse options).outcome := by
  rw [analyse_withoutChecks graph, analyse_withoutChecks renamed, outcome_analyse, outcome_analyse,
    isRenamed.nodeCount_eq, isRenamed.nodeCount_renamed]
  refine isRenamed.carries_usableEntry.bind ?_
  rintro start _ rfl
  split
  · exact .fault (.tooLarge count options.nodeLimit)
  · refine (isRenamed.carries_number start).bind fun numbering renumbered same => ?_
    refine (Semidominator.carries_semidominators isRenamed same).bind fun semi _ semiSame => ?_
    refine (RelativeDominator.carries_relativeDominators same semiSame).bind ?_
    intro relatives _ relativesSame
    refine (ImmediateDominator.carries_immediateDominators semiSame relativesSame same).bind ?_
    intro idom _ idomSame
    exact .result ⟨same, semiSame, idomSame⟩

/-- The first and the last block of `crossing` exchange their names. -/
def endsExchanged : Renaming BlockGraph.crossing.toFlowGraph.nodeCount :=
  .swap ⟨0⟩ ⟨2⟩ (by decide) (by decide)

theorem analyse_crossing_renamed : ∃ other,
    ((BlockGraph.crossing.toFlowGraph.rename endsExchanged).analyse .standard).outcome =
        .ok other ∧
      crossingAnalysis.IsRenamed endsExchanged other ∧
        other.visited = [⟨2⟩, ⟨1⟩, ⟨0⟩] ∧ other.idom? ⟨0⟩ = some ⟨2⟩ := by
  have carried := analyse_of_isRenamed
    (BlockGraph.crossing.toFlowGraph.isRenamed_rename endsExchanged) .standard
  rw [analyse_crossing] at carried
  obtain ⟨other, success, isRenamed⟩ := carried.exists_result
  exact ⟨other, success, isRenamed, isRenamed.visited_eq, isRenamed.idom?_eq ⟨2⟩⟩

end FlowDominance
