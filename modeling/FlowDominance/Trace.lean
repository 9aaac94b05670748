import FlowDominance.Fault

/-!
# The trace of a run

While it runs, an analysis notes what it does.  A `Traced` value is the whole
account of a run: the records noted, in order, and how the run ended.  A run that
fails keeps the records it noted before the failure.

The lemmas describe sequencing separately for the two components: the outcomes
compose as they would without a trace, and the records of the second part follow
those of the first if the first part succeeded.
-/

namespace FlowDominance

/-- How important a record is, most important first. -/
inductive Level where
  | warn
  | debug
  | trace
  deriving DecidableEq

namespace Level

def name : Level → String
  | warn => "warn"
  | debug => "debug"
  | trace => "trace"

/-- How much a log kept at this level shows. -/
def verbosity : Level → Nat
  | warn => 0
  | debug => 1
  | trace => 2

end Level

/-- One note about the progress of an analysis. -/
inductive Record where
  | refused (nodeCount limit : Nat)
  | numbered (visited nodeCount : Nat) (entry : Node)
  | semidominator (node semidominator : Node)
  | immediateDominator (node dominator : Node)
  | completed (visited : Nat)
  | batch (graphCount : Nat)
  deriving DecidableEq

namespace Record

def level : Record → Level
  | refused _ _ => .warn
  | numbered _ _ _ => .debug
  | semidominator _ _ => .trace
  | immediateDominator _ _ => .trace
  | completed _ => .debug
  | batch _ => .debug

def text : Record → String
  | refused nodeCount limit =>
      s!"rejecting graph with {nodeCount} nodes, limit is {limit}"
  | numbered visited nodeCount entry =>
      s!"numbered {visited} of {nodeCount} nodes from entry {entry} ({nodeCount - visited} unreachable)"
  | semidominator node found => s!"sdom({node}) = {found}"
  | immediateDominator node found => s!"idom({node}) = {found}"
  | completed visited => s!"computed immediate dominators for {visited} reachable nodes"
  | batch graphCount => s!"analysing {graphCount} graphs"

def shownAt (record : Record) (level : Level) : Bool :=
  record.level.verbosity ≤ level.verbosity

end Record

/-- The account of a run: what it noted, and the result or fault with which it ended. -/
structure Traced (α : Type) where
  records : Array Record
  outcome : Except Fault α

namespace Traced

variable {α β σ : Type}

def ofExcept (outcome : Except Fault α) : Traced α :=
  ⟨#[], outcome⟩

def note (record : Record) : Traced Unit :=
  ⟨#[record], .ok ()⟩

/-- The run that goes on with `next` if the first part succeeds. -/
def andThen (first : Traced α) (next : α → Traced β) : Traced β :=
  match first with
  | ⟨records, .error fault⟩ => ⟨records, .error fault⟩
  | ⟨records, .ok result⟩ =>
      let rest := next result
      ⟨records ++ rest.records, rest.outcome⟩

instance : Monad Traced where
  pure result := ofExcept (.ok result)
  bind := andThen

instance : MonadLift (Except Fault) Traced where
  monadLift := ofExcept

/-- Runs `step` on the elements of a list from left to right, passing on a state and
noting one record after each step that succeeds.  The first step that fails ends
the run. -/
def foldNoting (step : σ → α → Except Fault (σ × Record)) :
    List α → σ → Array Record → Traced σ
  | [], state, records => ⟨records, .ok state⟩
  | element :: rest, state, records =>
      match step state element with
      | .error fault => ⟨records, .error fault⟩
      | .ok (state, record) => foldNoting step rest state (records.push record)

@[simp] theorem outcome_pure (result : α) : (pure result : Traced α).outcome = .ok result :=
  rfl

@[simp] theorem records_pure (result : α) : (pure result : Traced α).records = #[] :=
  rfl

@[simp] theorem outcome_ofExcept (outcome : Except Fault α) :
    (ofExcept outcome).outcome = outcome :=
  rfl

@[simp] theorem records_ofExcept (outcome : Except Fault α) :
    (ofExcept outcome).records = #[] :=
  rfl

@[simp] theorem outcome_note (record : Record) : (note record).outcome = .ok () :=
  rfl

@[simp] theorem records_note (record : Record) : (note record).records = #[record] :=
  rfl

theorem outcome_bind (first : Traced α) (next : α → Traced β) :
    (first >>= next).outcome = first.outcome.bind fun result => (next result).outcome := by
  rcases first with ⟨records, fault | result⟩ <;> rfl

theorem records_bind (first : Traced α) (next : α → Traced β) :
    (first >>= next).records =
      match first.outcome with
      | .error _ => first.records
      | .ok result => first.records ++ (next result).records := by
  rcases first with ⟨records, fault | result⟩ <;> rfl

/-- What follows a run matters only for the result with which the run ends. -/
theorem bind_congr {first : Traced α} {next other : α → Traced β}
    (same : ∀ result, first.outcome = .ok result → next result = other result) :
    first >>= next = first >>= other := by
  cases first with
  | mk records outcome =>
      cases outcome with
      | error fault => rfl
      | ok result =>
          change andThen _ next = andThen _ other
          simp only [andThen, same result rfl]

theorem error_bind (fault : Fault) (next : α → Traced β) :
    ofExcept (.error fault) >>= next = ofExcept (.error fault) :=
  rfl

/-- A check that passes leaves no trace, whether or not it is asked for. -/
theorem ite_check_bind {check : Except Fault Unit} (passes : check = .ok ()) (asked : Bool)
    (next : Unit → Traced β) :
    (if asked = true then liftM check >>= next else next ()) = next () := by
  cases asked with
  | false => rfl
  | true =>
      rw [if_pos rfl, passes]
      change andThen (ofExcept (.ok ())) next = next ()
      simp [andThen, ofExcept]

/-- The outcome of a noting fold is that of the same fold without a trace. -/
theorem outcome_foldNoting (step : σ → α → Except Fault (σ × Record)) (elements : List α)
    (state : σ) (records : Array Record) :
    (foldNoting step elements state records).outcome =
      elements.foldlM (fun state element => (step state element).map Prod.fst) state := by
  induction elements generalizing state records with
  | nil => rfl
  | cons element rest inductionHypothesis =>
      simp only [foldNoting, List.foldlM_cons]
      cases step state element with
      | error fault => rfl
      | ok progress => exact inductionHypothesis progress.1 (records.push progress.2)

end Traced

end FlowDominance
