import FlowDominance.Proofs.BoundedAnswers
import FlowDominance.Proofs.OptionalChecks

/-!
# What a run notes

The records of an analysis tell its course.  The two loops that fill a table note each cell when
they write it and write it once, so their records can be read off the table they leave: those of
the semidominators in descending, those of the immediate dominators in ascending order of
positions.  A run that fails keeps what it has noted before.  If a node has no candidate, these
are the semidominators of the nodes that were discovered after it.  If a semidominator is no
ancestor, all semidominators have been noted, and no immediate dominator: the stage that finds
this out notes nothing itself and comes between the two loops.
-/

namespace FlowDominance

open FlowGraph Semidominator

/-! ### What a log shows -/

namespace Traced

variable {α β : Type}

def log (run : Traced α) (level : Level) : List Record :=
  run.records.toList.filter (·.shownAt level)

theorem log_trace (run : Traced α) : run.log .trace = run.records.toList := by
  apply List.filter_eq_self.mpr
  intro record _
  cases record <;> rfl

theorem ok_bind (result : α) (next : α → Traced β) :
    (liftM (Except.ok result : Except Fault α) : Traced α) >>= next = next result := by
  change andThen (ofExcept (.ok result)) next = next result
  simp [andThen, ofExcept]

@[simp] theorem outcome_liftM (outcome : Except Fault α) :
    (liftM outcome : Traced α).outcome = outcome :=
  rfl

@[simp] theorem records_liftM (outcome : Except Fault α) :
    (liftM outcome : Traced α).records = #[] :=
  rfl

end Traced

/-! ### Loops that note what they enter -/

/-- The records tell of each node in turn what `value` gives for it. -/
def Tells (kind : Node → Node → Record) (value : Node → Node) (nodes : List Node)
    (records : Array Record) : Prop :=
  records.toList = nodes.map fun node => kind node (value node)

/-- One node more is told of.  What has been told of the others stays true if only the value of
the new node has changed. -/
theorem Tells.push {kind : Node → Node → Record} {value later : Node → Node} {nodes : List Node}
    {records : Array Record} {node : Node} (tells : Tells kind value nodes records)
    (fresh : node ∉ nodes) (kept : ∀ other, other ≠ node → later other = value other) :
    Tells kind later (nodes ++ [node]) (records.push (kind node (later node))) := by
  have same : nodes.map (fun other => kind other (later other)) =
      nodes.map fun other => kind other (value other) := by
    apply List.map_congr_left
    intro other member
    rw [kept other]
    rintro rfl
    exact fresh member
  rw [Tells, Array.toList_push, tells, List.map_append, same]
  rfl

variable {graph : FlowGraph} {options : Options} {start node : Node} {numbering : Numbering}
  {semi : NodeMap Node} {relatives idom : NodeMap (Option Node)} {record : Record}

namespace Semidominator

variable {progress next : Progress} {position : Nat}

def Progress.value (progress : Progress) (node : Node) : Node :=
  (progress.found.find? node).getD node

/-- A step notes the cell it writes, and writes no other. -/
theorem settle_notes
    (taken : settle graph numbering progress (node, position) = .ok (next, record)) :
    record = .semidominator node (next.value node) ∧
      ∀ other, other ≠ node → next.value other = progress.value other := by
  simp only [settle] at taken
  split at taken
  · cases taken
  · cases taken
  · next semidominator final _ =>
      split at taken
      · cases taken
      · next found written =>
          cases taken
          have entries := NodeMap.find?_of_write written
          constructor
          · rw [Progress.value, entries, if_pos rfl, Option.getD_some]
          · intro other apart
            rw [Progress.value, Progress.value, entries, if_neg apart]

theorem fresh_of_split (lawful : numbering.Lawful start) {done rest : List (Node × Nat)}
    (split : numbering.placedBelowRoot.reverse = done ++ (node, position) :: rest) :
    0 < numbering.rank node ∧ position = numbering.rank node ∧ node ∉ done.map Prod.fst := by
  have member : (node, position) ∈ numbering.placedBelowRoot.reverse := by simp [split]
  obtain ⟨positive, -, same⟩ := lawful.mem_placedBelowRoot_iff.mp (List.mem_reverse.mp member)
  refine ⟨positive, same, ?_⟩
  have distinct := lawful.nodup_belowRoot
  rw [belowRoot_of_split lawful split, List.nodup_append, List.nodup_cons,
    List.mem_reverse] at distinct
  exact distinct.2.1.1

end Semidominator

namespace ImmediateDominator

def value (idom : NodeMap (Option Node)) (node : Node) : Node :=
  (idom.find? node).join.getD node

theorem settle_notes {next : NodeMap (Option Node)}
    (taken : settle semi relatives idom node = .ok (next, record)) :
    record = .immediateDominator node (value next node) ∧
      ∀ other, other ≠ node → value next other = value idom other := by
  simp only [settle] at taken
  split at taken
  · cases taken
  · next dominator _ =>
      split at taken
      · cases taken
      · next written success =>
          cases taken
          have entries := NodeMap.find?_of_write success
          constructor
          · rw [value, entries, if_pos rfl, Option.join_some, Option.getD_some]
          · intro other apart
            rw [value, value, entries, if_neg apart]

end ImmediateDominator

theorem immediateDominators_notes_table (lawful : numbering.Lawful start)
    (settled : (immediateDominators numbering semi relatives).outcome = .ok idom) :
    (immediateDominators numbering semi relatives).records.toList =
      numbering.belowRoot.map fun node =>
        .immediateDominator node (ImmediateDominator.value idom node) := by
  have kept (done : List Node) (node : Node) (rest : List Node) (reached : NodeMap (Option Node))
      (records : Array Record) (next : NodeMap (Option Node)) (record : Record)
      (split : numbering.belowRoot = done ++ node :: rest)
      (tells : Tells .immediateDominator (ImmediateDominator.value reached) done records)
      (taken : ImmediateDominator.settle semi relatives reached node = .ok (next, record)) :
      Tells .immediateDominator (ImmediateDominator.value next) (done ++ [node])
        (records.push record) := by
    obtain ⟨-, -, fresh⟩ := ImmediateDominator.fresh_of_split lawful split
    obtain ⟨rfl, others⟩ := ImmediateDominator.settle_notes taken
    exact tells.push fresh others
  rw [immediateDominators] at settled ⊢
  rcases Traced.foldNoting_spec (ImmediateDominator.settle semi relatives)
    (fun done reached records =>
      Tells .immediateDominator (ImmediateDominator.value reached) done records)
    numbering.belowRoot kept _ rfl with
    ⟨final, noted, folded, tells⟩ | ⟨-, -, -, -, noted, fault, -, -, -, folded⟩
  · rw [folded] at settled ⊢
    cases settled
    exact tells
  · rw [folded] at settled
    cases settled

/-- The semidominators that have been found are noted, those of the nodes discovered last first.
If a node has none, these are the semidominators of the nodes after it. -/
theorem semidominators_notes_table (lawful : numbering.Lawful start)
    (nodeCount : numbering.nodeCount = graph.nodeCount) :
    (∃ semi, (semidominators graph numbering).outcome = .ok semi ∧
        (semidominators graph numbering).records.toList =
          numbering.belowRoot.reverse.map fun node =>
            .semidominator node ((semi.find? node).getD node)) ∨
    ∃ node earlier later, ∃ semidominator : Node → Node,
      (semidominators graph numbering).outcome = .error (.noCandidate node) ∧
        numbering.belowRoot = earlier ++ node :: later ∧
          (∀ other ∈ later, IsSemidominator graph numbering other (semidominator other)) ∧
            (semidominators graph numbering).records.toList =
              later.reverse.map fun other => .semidominator other (semidominator other) := by
  have kept (done : List (Node × Nat)) (entry : Node × Nat) (rest : List (Node × Nat))
      (progress : Progress) (records : Array Record) (next : Progress) (record : Record)
      (split : numbering.placedBelowRoot.reverse = done ++ entry :: rest)
      (holds : progress.Holds graph numbering (done.map Prod.fst) ∧
        Tells .semidominator progress.value (done.map Prod.fst) records)
      (taken : settle graph numbering progress entry = .ok (next, record)) :
      next.Holds graph numbering ((done ++ [entry]).map Prod.fst) ∧
        Tells .semidominator next.value ((done ++ [entry]).map Prod.fst)
          (records.push record) := by
    obtain ⟨node, position⟩ := entry
    obtain ⟨positive, rfl, fresh⟩ := fresh_of_split lawful split
    have further := holds.1.next lawful nodeCount positive taken
    obtain ⟨rfl, others⟩ := settle_notes taken
    rw [List.map_append]
    exact ⟨further, holds.2.push fresh others⟩
  rcases Traced.foldNoting_spec (settle graph numbering)
    (fun done progress records => progress.Holds graph numbering (done.map Prod.fst) ∧
      Tells .semidominator progress.value (done.map Prod.fst) records)
    numbering.placedBelowRoot.reverse kept _ ⟨Progress.holds_start graph numbering, rfl⟩ with
    ⟨final, noted, folded, -, tells⟩ | ⟨before, entry, after, progress, noted, fault, split,
      ⟨holds, tells⟩, failure, folded⟩
  · refine .inl ⟨final.found, ?_, ?_⟩
    · rw [outcome_semidominators, folded]
      rfl
    · rw [semidominators, Traced.records_bind, folded]
      rw [placedBelowRoot_reverse lawful, List.map_map] at tells
      simpa [Tells, Progress.value, Function.comp_def] using tells
  · obtain ⟨node, position⟩ := entry
    obtain ⟨positive, rfl, -⟩ := fresh_of_split lawful split
    rcases settle_spec lawful nodeCount holds positive with
      ⟨next, found, success, -⟩ | ⟨notFound, -⟩
    · rw [success] at failure
      cases failure
    · rw [notFound] at failure
      cases failure
      refine .inr ⟨node, _, _, progress.value, ?_, belowRoot_of_split lawful split, ?_, ?_⟩
      · rw [outcome_semidominators, folded]
        rfl
      · intro other member
        obtain ⟨found, entered, isSemidominator⟩ :=
          holds.isSemidominator other (List.mem_reverse.mp member)
        rwa [Progress.value, entered]
      · rw [semidominators, Traced.records_bind, folded, List.reverse_reverse]
        exact tells

/-! ### Whole runs -/

/-- `graph.Replays outcome log` says that `log` is what a run on `graph` with this outcome has to
have noted, record by record.  There is no log for an outcome that cannot occur. -/
inductive FlowGraph.Replays (graph : FlowGraph) : Except Fault Analysis → List Record → Prop where
  | noEntry (reason : EntryFault) : graph.Replays (.error (.noEntry reason)) []
  | tooLarge (nodeCount limit : Nat) :
      graph.Replays (.error (.tooLarge nodeCount limit)) [.refused nodeCount limit]
  | unknownNode (node : Node) (nodeCount : Nat) :
      graph.Replays (.error (.unknownNode node nodeCount)) []
  /-- The nodes discovered after `node` have been settled, and no others. -/
  | noCandidate {entry node : Node} {numbering : Numbering} {earlier later : List Node}
      {semidominator : Node → Node} :
      graph.entry = some entry → graph.number entry = .ok numbering →
        numbering.order.toList = earlier ++ node :: later → numbering.order.toList.Nodup →
          (∀ other, other ∈ later ↔ numbering.DiscoveredBefore node other) →
            (∀ other ∈ later, IsSemidominator graph numbering other (semidominator other)) →
              graph.Replays (.error (.noCandidate node))
                (.numbered numbering.size graph.nodeCount entry ::
                  later.reverse.map fun other => .semidominator other (semidominator other))
  /-- All semidominators are known, and no immediate dominator has been looked for. -/
  | inconsistent {entry : Node} {violation : Violation} {numbering : Numbering}
      {below : List Node} {semidominator : Node → Node} :
      graph.entry = some entry → graph.number entry = .ok numbering →
        numbering.order.toList = entry :: below → numbering.order.toList.Nodup →
          (∀ node ∈ below, IsSemidominator graph numbering node (semidominator node)) →
            graph.Replays (.error (.inconsistent violation))
              (.numbered numbering.size graph.nodeCount entry ::
                below.reverse.map fun node => .semidominator node (semidominator node))
  /-- The records agree with what the analysis answers. -/
  | finished {entry : Node} {analysis : Analysis} {below : List Node}
      {semidominator dominator : Node → Node} :
      graph.entry = some entry → analysis.visited = entry :: below → analysis.visited.Nodup →
        (∀ node ∈ below, analysis.semidominator? node = .ok (some (semidominator node)) ∧
          analysis.idom? node = some (dominator node)) →
          graph.Replays (.ok analysis)
            (Record.numbered analysis.visited.length graph.nodeCount entry ::
              (below.reverse.map fun node => Record.semidominator node (semidominator node)) ++
                (below.map fun node => Record.immediateDominator node (dominator node)) ++
                  [Record.completed analysis.visited.length])

theorem Analysis.Derived.answers_of_mem_belowRoot {analysis : Analysis}
    (derived : analysis.Derived graph start) (member : node ∈ analysis.numbering.belowRoot) :
    analysis.semidominator? node = .ok (some (analysis.semidominatorOf node)) ∧
      analysis.idom? node = some (ImmediateDominator.value analysis.idom node) := by
  obtain ⟨positive, apart⟩ := derived.depthFirst.lawful.mem_belowRoot_iff.mp member
  obtain ⟨dominator, found⟩ := derived.exists_idom? positive apart
  have entered : (analysis.idom.find? node).join = some dominator := found
  constructor
  · rw [derived.semidominator?_eq_ok, if_pos ⟨positive, apart⟩]
  · rw [found, ImmediateDominator.value, entered, Option.getD_some]

section

variable (usable : graph.usableEntry = .ok start)
include usable

theorem analyse_of_refused (refused : options.refuses graph.nodeCount = true) :
    graph.analyse options = ⟨#[.refused graph.nodeCount options.nodeLimit],
      .error (.tooLarge graph.nodeCount options.nodeLimit)⟩ := by
  rw [analyse, usable, Traced.ok_bind]
  simp only [refused, if_true, Traced.error_bind]
  rfl

variable (admitted : options.refuses graph.nodeCount = false)
include admitted

theorem analyse_of_unnumbered {fault : Fault} (failed : graph.number start = .error fault) :
    graph.analyse options = Traced.ofExcept (.error fault) := by
  rw [analyse, usable, Traced.ok_bind]
  simp only [admitted, Bool.false_eq_true, if_false, failed]
  rfl

variable (numbered : graph.number start = .ok numbering)
include numbered

/-- A run that gets past the numbering, without its checks. -/
theorem analyse_of_numbered :
    graph.analyse options = (do
      Traced.note (.numbered numbering.size graph.nodeCount start)
      let semi ← semidominators graph numbering
      let relatives ← relativeDominators numbering semi
      let idom ← immediateDominators numbering semi relatives
      Traced.note (.completed numbering.size)
      return ⟨numbering, semi, idom⟩ : Traced Analysis) := by
  have admittedToo : options.withoutChecks.refuses graph.nodeCount = false := admitted
  rw [analyse_withoutChecks, analyse, usable, Traced.ok_bind]
  simp only [admittedToo, Bool.false_eq_true, if_false, numbered, Traced.ok_bind]
  rfl

variable (depthFirst : graph.DepthFirst start numbering)
include depthFirst

theorem replays_of_searched (searched : (semidominators graph numbering).outcome = .ok semi)
    (semiNoted : (semidominators graph numbering).records.toList =
      numbering.belowRoot.reverse.map fun node =>
        .semidominator node ((semi.find? node).getD node)) :
    graph.Replays (graph.analyse options).outcome (graph.analyse options).records.toList := by
  have lawful := depthFirst.lawful
  have designated := (usableEntry_eq_ok_iff.mp usable).1
  have course := analyse_of_numbered usable admitted numbered
  have tabulates := tabulates_of_semidominators lawful depthFirst.nodeCount_eq searched
  have reads := tabulates.readsAs lawful
  rcases relativeDominators_spec lawful reads with
    ⟨relatives, related, relativeTable, -⟩ | ⟨node, related, -⟩
  · rcases immediateDominators_spec lawful (relativeTable.readsAs lawful reads) with
      ⟨idom, settled, -⟩ | ⟨node, source, -, positive, -, -, unresolved, -⟩
    · have idomNoted := immediateDominators_notes_table lawful settled
      have ended : (graph.analyse options).outcome = .ok ⟨numbering, semi, idom⟩ := by
        simp [course, Traced.outcome_bind, Except.bind, searched, related, settled]
      have log : (graph.analyse options).records.toList =
          Record.numbered numbering.size graph.nodeCount start ::
            (numbering.belowRoot.reverse.map fun node =>
              Record.semidominator node ((semi.find? node).getD node)) ++
            (numbering.belowRoot.map fun node =>
              Record.immediateDominator node (ImmediateDominator.value idom node)) ++
            [Record.completed numbering.size] := by
        simp [course, Traced.records_bind, searched, related, settled, semiNoted, idomNoted]
      have derived := derived_of_stages depthFirst searched related settled
      rw [ended, log]
      exact .finished designated lawful.order_eq_cons lawful.nodup_order
        fun node => derived.answers_of_mem_belowRoot
    · exact absurd (relativeTable.resolved lawful positive) unresolved
  · have ended : (graph.analyse options).outcome =
        .error (.inconsistent (.strayedSemidominator ((semi.find? node).getD node) node)) := by
      simp [course, Traced.outcome_bind, Except.bind, searched, related]
    have log : (graph.analyse options).records.toList =
        .numbered numbering.size graph.nodeCount start ::
          numbering.belowRoot.reverse.map fun node =>
            .semidominator node ((semi.find? node).getD node) := by
      simp [course, Traced.records_bind, searched, related, semiNoted]
    rw [ended, log]
    refine .inconsistent designated numbered lawful.order_eq_cons lawful.nodup_order ?_
    intro other member
    obtain ⟨positive, apart⟩ := lawful.mem_belowRoot_iff.mp member
    exact tabulates.isSemidominator_getD positive apart

theorem replays_of_numbered :
    graph.Replays (graph.analyse options).outcome (graph.analyse options).records.toList := by
  have lawful := depthFirst.lawful
  rcases semidominators_notes_table lawful depthFirst.nodeCount_eq with
    ⟨semi, searched, noted⟩ |
    ⟨node, earlier, later, semidominator, failed, split, isSemidominator, noted⟩
  · exact replays_of_searched usable admitted numbered depthFirst searched noted
  · have designated := (usableEntry_eq_ok_iff.mp usable).1
    have course := analyse_of_numbered usable admitted numbered
    have ended : (graph.analyse options).outcome = .error (.noCandidate node) := by
      simp [course, Traced.outcome_bind, Except.bind, failed]
    have log : (graph.analyse options).records.toList =
        .numbered numbering.size graph.nodeCount start ::
          later.reverse.map fun other => .semidominator other (semidominator other) := by
      simp [course, Traced.records_bind, failed, noted]
    have whole : numbering.order.toList = (start :: earlier) ++ node :: later := by
      rw [lawful.order_eq_cons, split, List.cons_append]
    rw [ended, log]
    exact .noCandidate designated numbered whole lawful.nodup_order
      (fun other => lawful.mem_after_iff whole) isSemidominator

end

/-- The log of a run at its most verbose tells how the run came to its outcome, whatever the
graph says about itself. -/
theorem log_replays_run (graph : FlowGraph) (options : Options) :
    graph.Replays (graph.analyse options).outcome ((graph.analyse options).log .trace) := by
  rw [Traced.log_trace]
  cases usable : graph.usableEntry with
  | error fault =>
      obtain ⟨reason, rfl, -⟩ := usableEntry_eq_error_iff.mp usable
      rw [analyse, usable]
      exact .noEntry reason
  | ok start =>
      cases admitted : options.refuses graph.nodeCount with
      | true =>
          rw [analyse_of_refused usable admitted]
          exact .tooLarge graph.nodeCount options.nodeLimit
      | false =>
          rcases number_spec (contains_iff.mpr (usableEntry_eq_ok_iff.mp usable).2) with
            ⟨numbering, numbered, depthFirst⟩ | ⟨target, -, failed⟩
          · exact replays_of_numbered usable admitted numbered depthFirst
          · rw [analyse_of_unnumbered usable admitted failed]
            exact .unknownNode target graph.nodeCount

/-- Without predecessors `n1` has no candidate, but `n2` has been settled before that is noticed. -/
example :
    ((ofAdjacency 3 (some ⟨0⟩) #[[⟨1⟩], [⟨2⟩], []] #[[], [], [⟨1⟩]]).analyse .standard).log .trace =
      [.numbered 3 3 ⟨0⟩, .semidominator ⟨2⟩ ⟨1⟩] := by cbv

end FlowDominance
