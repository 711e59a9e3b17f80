import Mathlib.Data.List.DropRight
import Mendpoint.Library.Succession
import Mendpoint.Outage.Adoptive
import Mendpoint.Outage.History

/-!
# The audit trail of an operation

The history of an operation verifies, and its events tell the row: the last
one its status, and the events of claims its generation and its attempts.
-/

namespace Mendpoint.Outage

open Mendpoint.Library
open Mendpoint.Library.HashChain
open Mendpoint.Library.IsoTime
open Mendpoint.Library.Run

/-! ## Reading the history -/

/-- The events of an operation. -/
def eventsOf (store : Store) (key : Key) : List HistoryRow :=
  store.history.filter fun row => decide (row.key = key)

section Operations

variable (sha256 : String → String)

/-- The events, each of which is checked behind the one before it. -/
def verifyFrom (scope : Scope) :
    Option String → List HistoryRow → Except String (List HistoryRow)
  | _, [] => .ok []
  | previousHash, row :: rest => do
      check (row.previousHash = previousHash)
        "dependency_outage_history_chain_invalid"
      check (row.eventHash = sha256 (eventContent scope row.eventKind
          row.observedAt row.details previousHash).canonical)
        "dependency_outage_history_chain_invalid"
      let others ← verifyFrom scope (some row.eventHash) rest
      return row :: others

def history (scope : Scope) (store : Store) :
    Except String (List HistoryRow) := do
  let found ← readOperation scope store
  match found with
  | none => return []
  | some _ => verifyFrom sha256 scope none (eventsOf store scope.key)

end Operations

/-! ## What the events tell -/

/-- The events after the last reopening. -/
def sinceReopening (events : List HistoryRow) : List HistoryRow :=
  events.rtakeWhile fun event => decide (event.eventKind ≠ .reopened)

/-- The events of an operation tell its row. -/
structure Folds (row : OutageRow) (events : List HistoryRow) : Prop where
  status : (events.getLast?.bind fun event =>
    impliedStatus event.eventKind event.details) = some row.status
  generation : row.claimGeneration =
    events.countP fun event => event.eventKind.claims
  attempts : row.attemptsConsumed = ((sinceReopening events).countP
    fun event => attempts event.eventKind event.details : Nat)

theorem folds_append {before : Option OutageRow} {row : OutageRow}
    {events : List HistoryRow} {event : HistoryRow}
    (folded : ∀ current, before = some current → Folds current events)
    (first : before = none → events = [])
    (explains : Explains before row event.eventKind event.details) :
    Folds row (events ++ [event]) where
  status := by
    rw [List.getLast?_concat]
    exact explains.status
  generation := by
    rw [List.countP_append, List.countP_singleton, explains.generation]
    cases found : before with
    | none =>
      rw [first found]
      rfl
    | some current =>
      rw [← (folded current found).generation]
      rfl
  attempts := by
    rw [explains.attempts, sinceReopening]
    by_cases reopened : event.eventKind = .reopened
    · rw [if_pos reopened, List.rtakeWhile_concat_neg]
      · rfl
      · simp [reopened]
    · rw [if_neg reopened, List.rtakeWhile_concat_pos, List.countP_append,
        List.countP_singleton, Nat.cast_add, Nat.cast_ite]
      · congr 1
        cases found : before with
        | none =>
          rw [first found]
          rfl
        | some current => exact (folded current found).attempts
      · simp [reopened]

/-! ## Trails -/

section Operations

variable {sha256 : String → String}

/-- An event is hashed for its operation and the event before it. -/
def Verified (sha256 : String → String) (scope : Scope)
    (previousHash : Option String) (_ : Nat) (row : HistoryRow) : Prop :=
  row.previousHash = previousHash ∧
    row.eventHash = sha256 (eventContent scope row.eventKind row.observedAt
      row.details previousHash).canonical

theorem verifyFrom_of_linked {scope : Scope} {front events : List HistoryRow}
    (linked : Linked (Verified sha256 scope) HistoryRow.eventHash
      (front ++ events)) :
    verifyFrom sha256 scope (HashChain.lastHash HistoryRow.eventHash front)
      events = .ok events := by
  induction events generalizing front with
  | nil => rfl
  | cons row rest inductionHypothesis =>
    rcases linked front row rest rfl with ⟨previous, hashed⟩
    rw [verifyFrom, Fallible.bind_eq_ok]
    refine ⟨(), check_eq_ok.mpr previous, ?_⟩
    rw [Fallible.bind_eq_ok]
    refine ⟨(), check_eq_ok.mpr hashed, ?_⟩
    rw [Fallible.bind_eq_ok]
    refine ⟨rest, ?_, rfl⟩
    rw [List.append_cons] at linked
    have later := inductionHypothesis linked
    rw [lastHash_append_singleton] at later
    exact later

/-- The trail of a row under its key. -/
structure Trail (sha256 : String → String) (key : Key) (row : OutageRow)
    (events : List HistoryRow) : Prop where
  atKey : row.scope.key = key
  valid : validateScope row.scope = .ok ()
  linked : Linked (Verified sha256 row.scope) HistoryRow.eventHash events
  folds : Folds row events

/-- Every row has its trail, and there are no other events. -/
structure Trailed (sha256 : String → String) (store : Store) : Prop where
  rows : ∀ key row, store.operations.get? key = some row →
    Trail sha256 key row (eventsOf store key)
  absent : ∀ key, store.operations.get? key = none →
    eventsOf store key = []

theorem trailed_empty : Trailed sha256 Store.empty where
  rows _ _ found := nomatch found
  absent _ _ := rfl

variable {scope : Scope} {store after : Store} {row : OutageRow}

theorem history_of_append {kind : EventKind} {observedAt : Instant}
    {details : Written}
    (appended : append sha256 scope kind observedAt details (store.write
      scope row) = .ok after) :
    after.history = store.history ++
      [event sha256 store.history scope kind observedAt details] := by
  rw [append] at appended
  split at appended
  · cases appended
  · cases appended
    rfl

@[simp]
theorem key_event (history : List HistoryRow) (scope : Scope)
    (kind : EventKind) (observedAt : Instant) (details : Written) :
    (event sha256 history scope kind observedAt details).key = scope.key :=
  rfl

theorem eventsOf_append (store : Store) {event : HistoryRow}
    (appended : after.history = store.history ++ [event]) (key : Key) :
    eventsOf after key =
      eventsOf store key ++ if event.key = key then [event] else [] := by
  rw [eventsOf, appended, List.filter_append, eventsOf]
  split
  · next same =>
      rw [List.filter_cons_of_pos, List.filter_nil]
      exact decide_eq_true same
  · next other =>
      rw [List.filter_cons_of_neg, List.filter_nil]
      rw [decide_eq_true_eq]
      exact other

theorem Trailed.trail_of_writes (trailed : Trailed sha256 store)
    (writes : Writes sha256 store after scope row) :
    Trail sha256 scope.key row (eventsOf after scope.key) := by
  rcases writes.appended with
    ⟨kind, observedAt, details, explains, appended⟩
  have atKey : row.scope.key = scope.key := by
    rw [writes.sameScope]
    cases found : store.row scope with
    | none => rfl
    | some current => exact (trailed.rows _ current found).atKey
  have isScope : row.scope = scope := by
    have digest := writes.digest
    rcases row with ⟨⟨tenantId, kind', providerId, operationId, digest'⟩⟩
    rcases scope with ⟨tenantId', kind'', providerId', operationId', digest''⟩
    cases atKey
    cases digest
    rfl
  rw [eventsOf_append store (history_of_append appended), key_event,
    if_pos rfl]
  refine ⟨atKey, isScope.symm ▸ writes.valid, ?_, ?_⟩
  · rw [linked_append_singleton, isScope]
    refine ⟨?_, rfl, rfl⟩
    cases found : store.row scope with
    | none =>
      rw [trailed.absent _ found]
      exact linked_nil
    | some current =>
      have linked := (trailed.rows _ current found).linked
      have sameScope := writes.sameScope
      rw [found, isScope] at sameScope
      rw [← (show scope = current.scope from sameScope)] at linked
      exact linked
  · apply folds_append _ _ explains
    · intro current found
      exact (trailed.rows _ current found).folds
    · intro absent
      exact trailed.absent _ absent

theorem Trailed.of_writes (trailed : Trailed sha256 store)
    (writes : Writes sha256 store after scope row) : Trailed sha256 after := by
  have others : ∀ key, scope.key ≠ key →
      after.operations.get? key = store.operations.get? key ∧
        eventsOf after key = eventsOf store key := by
    intro key other
    rcases writes.appended with ⟨kind, observedAt, details, _, appended⟩
    constructor
    · rw [writes.operations]
      exact OrderedMap.get?_set_of_ne _ _ other
    · rw [eventsOf_append store (history_of_append appended), key_event,
        if_neg other, List.append_nil]
  constructor
  · intro key written found
    by_cases atKey : scope.key = key
    · subst atKey
      rw [writes.operations, OrderedMap.get?_set_self] at found
      cases found
      exact trailed.trail_of_writes writes
    · rcases others key atKey with ⟨sameRow, sameEvents⟩
      rw [sameEvents]
      exact trailed.rows key written (sameRow ▸ found)
  · intro key absent
    by_cases atKey : scope.key = key
    · subst atKey
      rw [writes.operations, OrderedMap.get?_set_self] at absent
      cases absent
    · rcases others key atKey with ⟨sameRow, sameEvents⟩
      rw [sameEvents]
      exact trailed.absent key (sameRow ▸ absent)

/-! ## Acts -/

theorem settleFencedCompletion_cases {completionDigest : String}
    {observedAt : Instant} {record : OutageRow}
    (settled : settleFencedCompletion sha256 scope completionDigest
      observedAt store = .ok (after, record)) :
    after = store ∨ ∃ current, store.row scope = some current ∧
      current.status ≠ .completed ∧ Writes sha256 store after scope
        (current.settle completionDigest observedAt) := by
  simp only [settleFencedCompletion, Fallible.bind_eq_ok, check_eq_ok]
    at settled
  rcases settled with ⟨_, _, _, valid, branch⟩
  cases found : store.row scope with
  | none =>
    rw [found] at branch
    cases branch
  | some current =>
    rw [found] at branch
    simp only [Fallible.bind_eq_ok, check_eq_ok] at branch
    rcases branch with ⟨_, digest, branch⟩
    split at branch
    · rcases Fallible.bind_eq_ok.mp branch with ⟨_, _, returned⟩
      cases returned
      exact Or.inl rfl
    · next notCompleted =>
        rcases Fallible.bind_eq_ok.mp branch with
          ⟨_, appended, returned⟩
        cases returned
        have explains := @explains_of_status current
          (current.settle completionDigest observedAt) .completed
        exact Or.inr ⟨current, rfl, notCompleted,
          .of_append valid digest found rfl
            (explains rfl (by decide) rfl rfl rfl) appended⟩

theorem actStep_cases (store : Store) (act : Act) :
    actStep sha256 store act = store ∨ ∃ scope row,
      Writes sha256 store (actStep sha256 store act) scope row := by
  cases act with
  | call call =>
    rcases @step_cases sha256 store call with
      same | ⟨scope, row, _, writes⟩
    · exact Or.inl same
    · exact Or.inr ⟨scope, row, writes⟩
  | settle scope completionDigest observedAt =>
    rw [actStep]
    cases result : settleFencedCompletion sha256 scope completionDigest
        observedAt store with
    | error code => exact Or.inl rfl
    | ok pair =>
      rcases settleFencedCompletion_cases result with
        same | ⟨current, _, _, writes⟩
      · exact Or.inl same
      · exact Or.inr ⟨_, _, writes⟩

theorem Trailed.actStep {store : Store} (trailed : Trailed sha256 store)
    (act : Act) : Trailed sha256 (actStep sha256 store act) := by
  rcases @actStep_cases sha256 store act with same | ⟨scope, row, writes⟩
  · rw [same]
    exact trailed
  · exact trailed.of_writes writes

theorem Trail.history {store : Store} {key : Key} {row : OutageRow}
    (found : store.operations.get? key = some row)
    (trail : Trail sha256 key row (eventsOf store key)) :
    history sha256 row.scope store = .ok (eventsOf store key) := by
  have isRow : store.row row.scope = some row := by
    rw [Store.row, trail.atKey]
    exact found
  rw [Outage.history, Fallible.bind_eq_ok]
  refine ⟨some row, ?_, ?_⟩
  · rw [readOperation, Fallible.bind_eq_ok]
    refine ⟨(), trail.valid, ?_⟩
    rw [isRow]
    exact Fallible.bind_eq_ok.mpr ⟨(), check_eq_ok.mpr rfl, rfl⟩
  · rw [trail.atKey]
    exact @verifyFrom_of_linked sha256 row.scope [] _ trail.linked

/-- The history of every row verifies, and tells the row. -/
def Told (sha256 : String → String) (store : Store) : Prop :=
  ∀ key row, store.operations.get? key = some row →
    ∃ events, history sha256 row.scope store = .ok events ∧ Folds row events

end Operations

end Mendpoint.Outage
