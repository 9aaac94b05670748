import FlowDominance.Trace
import Mathlib.Logic.Basic

/-!
# Invariants of the loops over nodes

The stages of an analysis go through a list of nodes and stop at the first one they
cannot settle.  An invariant that speaks of the nodes done so far is kept up to there, or
to the end of the list.
-/

namespace FlowDominance

variable {α σ : Type}

section

variable (step : σ → α → Except Fault σ) (holds : List α → σ → Prop) (elements : List α)
  (kept : ∀ done element rest state next, elements = done ++ element :: rest →
    holds done state → step state element = .ok next → holds (done ++ [element]) next)
include kept

private theorem foldlM_from (done rest : List α) (state : σ) (split : elements = done ++ rest)
    (invariant : holds done state) :
    (∃ final, rest.foldlM step state = .ok final ∧ holds elements final) ∨
    ∃ before element after reached fault, elements = before ++ element :: after ∧
      holds before reached ∧ step reached element = .error fault ∧
        rest.foldlM step state = .error fault := by
  induction rest generalizing done state with
  | nil =>
      rw [split, List.append_nil]
      exact .inl ⟨state, rfl, invariant⟩
  | cons element rest inductionHypothesis =>
      rw [List.foldlM_cons]
      cases taken : step state element with
      | error fault => exact .inr ⟨done, element, rest, state, fault, split, invariant, taken, rfl⟩
      | ok next =>
          have further := kept done element rest state next split invariant taken
          exact inductionHypothesis (done ++ [element]) next (by rw [split]; simp) further

/-- A fold ends with its invariant, or at the first element whose step fails. -/
theorem foldlM_spec (state : σ) (initially : holds [] state) :
    (∃ final, elements.foldlM step state = .ok final ∧ holds elements final) ∨
    ∃ before element after reached fault, elements = before ++ element :: after ∧
      holds before reached ∧ step reached element = .error fault ∧
        elements.foldlM step state = .error fault :=
  foldlM_from step holds elements kept [] elements state rfl initially

omit kept in
theorem foldlM_succeeds
    (taken : ∀ done element rest state, elements = done ++ element :: rest → holds done state →
      ∃ next, step state element = .ok next ∧ holds (done ++ [element]) next)
    (state : σ) (initially : holds [] state) :
    ∃ final, elements.foldlM step state = .ok final ∧ holds elements final := by
  have kept (done : List α) (element : α) (rest : List α) (state next : σ)
      (split : elements = done ++ element :: rest) (invariant : holds done state)
      (success : step state element = .ok next) : holds (done ++ [element]) next := by
    obtain ⟨reached, reaches, further⟩ := taken done element rest state split invariant
    rw [reaches] at success
    cases success
    exact further
  rcases foldlM_spec step holds elements kept state initially with
    ended | ⟨done, element, rest, reached, fault, split, invariant, failure, -⟩
  · exact ended
  · obtain ⟨next, success, -⟩ := taken done element rest reached split invariant
    rw [success] at failure
    cases failure

end

/-- A loop of checks passes, or ends at the first element that fails its check. -/
theorem forM_spec {check : α → Except Fault Unit} {good : α → Prop} {bad : α → Fault → Prop}
    {elements : List α}
    (decides : ∀ element ∈ elements, (check element = .ok () ∧ good element) ∨
      ∃ fault, check element = .error fault ∧ bad element fault) :
    (elements.forM check = .ok () ∧ ∀ element ∈ elements, good element) ∨
    ∃ before element after fault, elements = before ++ element :: after ∧
      (∀ other ∈ before, good other) ∧ bad element fault ∧
        elements.forM check = .error fault := by
  induction elements with
  | nil => exact .inl ⟨rfl, fun _ member => absurd member List.not_mem_nil⟩
  | cons element rest inductionHypothesis =>
      rw [List.forM]
      rcases decides element List.mem_cons_self with ⟨passed, isGood⟩ | ⟨fault, failed, isBad⟩
      · rw [passed]
        rcases inductionHypothesis fun other member =>
            decides other (List.mem_cons_of_mem _ member) with
          ⟨ended, all⟩ | ⟨before, failing, after, fault, split, all, isBad, ended⟩
        · exact .inl ⟨ended, List.forall_mem_cons.mpr ⟨isGood, all⟩⟩
        · exact .inr ⟨element :: before, failing, after, fault, by rw [split]; rfl,
            List.forall_mem_cons.mpr ⟨isGood, all⟩, isBad, ended⟩
      · rw [failed]
        exact .inr ⟨[], element, rest, fault, rfl, nofun, isBad, rfl⟩

theorem forM_eq_ok_iff {check : α → Except Fault Unit} {elements : List α} :
    elements.forM check = .ok () ↔ ∀ element ∈ elements, check element = .ok () := by
  have decides (element : α) (_ : element ∈ elements) :
      (check element = .ok () ∧ check element = .ok ()) ∨
      ∃ fault, check element = .error fault ∧ check element ≠ .ok () := by
    cases check element with
    | ok _ => exact .inl ⟨rfl, rfl⟩
    | error fault => exact .inr ⟨fault, rfl, nofun⟩
  rcases forM_spec decides with
    ⟨passed, all⟩ | ⟨before, element, after, fault, split, -, failed, ended⟩
  · exact ⟨fun _ => all, fun _ => passed⟩
  · rw [ended]
    exact ⟨nofun, fun all => absurd (all element (by simp [split])) failed⟩

theorem mapM_eq_ok {read : α → Except Fault σ} {value : α → σ} {elements : List α}
    (reads : ∀ element ∈ elements, read element = .ok (value element)) :
    elements.mapM read = .ok (elements.map value) := by
  induction elements with
  | nil => rfl
  | cons element rest inductionHypothesis =>
      rw [List.mapM_cons, reads element List.mem_cons_self,
        inductionHypothesis fun other member => reads other (List.mem_cons_of_mem _ member)]
      rfl

namespace Traced

variable (step : σ → α → Except Fault (σ × Record)) (holds : List α → σ → Array Record → Prop)
  (elements : List α)
  (kept : ∀ done element rest state records next record, elements = done ++ element :: rest →
    holds done state records → step state element = .ok (next, record) →
      holds (done ++ [element]) next (records.push record))
include kept

private theorem foldNoting_from (done rest : List α) (state : σ) (records : Array Record)
    (split : elements = done ++ rest) (invariant : holds done state records) :
    (∃ final noted, foldNoting step rest state records = ⟨noted, .ok final⟩ ∧
      holds elements final noted) ∨
    ∃ before element after reached noted fault, elements = before ++ element :: after ∧
      holds before reached noted ∧ step reached element = .error fault ∧
        foldNoting step rest state records = ⟨noted, .error fault⟩ := by
  induction rest generalizing done state records with
  | nil =>
      rw [split, List.append_nil]
      exact .inl ⟨state, records, rfl, invariant⟩
  | cons element rest inductionHypothesis =>
      rw [foldNoting]
      cases taken : step state element with
      | error fault =>
          exact .inr
            ⟨done, element, rest, state, records, fault, split, invariant, taken, rfl⟩
      | ok progress =>
          obtain ⟨next, record⟩ := progress
          have further :=
            kept done element rest state records next record split invariant taken
          exact inductionHypothesis (done ++ [element]) next (records.push record)
            (by rw [split]; simp) further

/-- A noting fold ends with its invariant, or at the first element whose step fails.  The
invariant also speaks of the records noted so far. -/
theorem foldNoting_spec (state : σ) (initially : holds [] state #[]) :
    (∃ final noted, foldNoting step elements state #[] = ⟨noted, .ok final⟩ ∧
      holds elements final noted) ∨
    ∃ before element after reached noted fault, elements = before ++ element :: after ∧
      holds before reached noted ∧ step reached element = .error fault ∧
        foldNoting step elements state #[] = ⟨noted, .error fault⟩ :=
  foldNoting_from step holds elements kept [] elements state #[] rfl initially

omit kept in
theorem foldNoting_succeeds
    (taken : ∀ done element rest state records, elements = done ++ element :: rest →
      holds done state records →
        ∃ next record, step state element = .ok (next, record) ∧
          holds (done ++ [element]) next (records.push record))
    (state : σ) (initially : holds [] state #[]) :
    ∃ final noted, foldNoting step elements state #[] = ⟨noted, .ok final⟩ ∧
      holds elements final noted := by
  have kept (done : List α) (element : α) (rest : List α) (state : σ) (records : Array Record)
      (next : σ) (record : Record) (split : elements = done ++ element :: rest)
      (invariant : holds done state records) (success : step state element = .ok (next, record)) :
      holds (done ++ [element]) next (records.push record) := by
    obtain ⟨reached, noted, reaches, further⟩ :=
      taken done element rest state records split invariant
    rw [reaches] at success
    cases success
    exact further
  rcases foldNoting_spec step holds elements kept state initially with
    ended | ⟨done, element, rest, reached, noted, fault, split, invariant, failure, -⟩
  · exact ended
  · obtain ⟨next, record, success, -⟩ := taken done element rest reached noted split invariant
    rw [success] at failure
    cases failure

end Traced

/-! ### Two loops over one list -/

namespace Traced

variable {β τ : Type}

/-- Two runs that note the same, and end with the same fault or with related results. -/
inductive Alike (related : σ → τ → Prop) : Traced σ → Traced τ → Prop where
  | failed (records : Array Record) (fault : Fault) :
      Alike related ⟨records, .error fault⟩ ⟨records, .error fault⟩
  | finished {first : σ} {second : τ} (records : Array Record) : related first second →
      Alike related ⟨records, .ok first⟩ ⟨records, .ok second⟩

theorem Alike.bind_eq {related : σ → τ → Prop} {first : Traced σ} {second : Traced τ}
    (alike : Alike related first second) {next : σ → Traced β} {other : τ → Traced β}
    (same : ∀ one another, related one another → next one = other another) :
    first >>= next = second >>= other := by
  cases alike with
  | failed records fault => rfl
  | finished records holds =>
      change andThen _ next = andThen _ other
      simp only [andThen, same _ _ holds]

variable (step : σ → α → Except Fault (σ × Record)) (other : τ → α → Except Fault (τ × Record))
  (holds : List α → σ → τ → Prop) (elements : List α)
  (alike : ∀ done element rest first second, elements = done ++ element :: rest →
    holds done first second →
      (∃ fault, step first element = .error fault ∧ other second element = .error fault) ∨
      ∃ firstNext secondNext record, step first element = .ok (firstNext, record) ∧
        other second element = .ok (secondNext, record) ∧
          holds (done ++ [element]) firstNext secondNext)
include alike

private theorem alike_from (done rest : List α) (first : σ) (second : τ)
    (records : Array Record) (split : elements = done ++ rest) (related : holds done first second) :
    Alike (holds elements) (foldNoting step rest first records)
      (foldNoting other rest second records) := by
  induction rest generalizing done first second records with
  | nil =>
      rw [split, List.append_nil]
      exact .finished records related
  | cons element rest inductionHypothesis =>
      rw [foldNoting, foldNoting]
      rcases alike done element rest first second split related with
        ⟨fault, failure, otherFailure⟩ | ⟨firstNext, secondNext, record, taken, otherTaken, further⟩
      · rw [failure, otherFailure]
        exact .failed records fault
      · rw [taken, otherTaken]
        exact inductionHypothesis (done ++ [element]) firstNext secondNext (records.push record)
          (by rw [split]; simp) further

/-- Two noting folds run alike if each step does, from states related by what holds of the
elements done so far. -/
theorem foldNoting_alike (first : σ) (second : τ) (initially : holds [] first second) :
    Alike (holds elements) (foldNoting step elements first #[])
      (foldNoting other elements second #[]) :=
  alike_from step other holds elements alike [] elements first second #[] rfl initially

end Traced

end FlowDominance
