import Mendpoint.Outage.Queue

/-!
# What one call does to the rows

For every call of the queue: the row it writes, and what it has checked before
it writes.  All other rows stay as they are.
-/

namespace Mendpoint.Outage

open Mendpoint.Library
open Mendpoint.Library.IsoTime

variable {code : String}

theorem check_eq_ok {holds : Prop} [Decidable holds] {done : Unit} :
    check holds code = .ok done ↔ holds := by
  rw [check]
  split
  · next held => simp only [held]
  · next failed => simp only [reduceCtorEq, failed]

theorem check_of_not {holds : Prop} [Decidable holds] (failed : ¬ holds) :
    check holds code = .error code :=
  if_neg failed

theorem iso_eq_ok {value : String} {instant : Instant} :
    iso value code = .ok instant ↔ Instant.parse? value = some instant := by
  rw [iso]
  cases Instant.parse? value with
  | none => simp only [reduceCtorEq]
  | some found => simp only [Except.ok.injEq, Option.some.injEq]

theorem positiveInteger_eq_ok {value : Int} {done : Unit} :
    positiveInteger value code = .ok done ↔
      isSafeInteger value ∧ 1 ≤ value :=
  check_eq_ok

namespace Store

theorem row_write_self (store : Store) (scope : Scope) (row : OutageRow) :
    (store.write scope row).row scope = some row :=
  OrderedMap.get?_set_self _ _ _

end Store

section Operations

variable {sha256 : String → String}

theorem append_operations {scope : Scope} {kind : EventKind}
    {observedAt : Instant} {details : Written} {store after : Store}
    (appended : append sha256 scope kind observedAt details store =
      .ok after) : after.operations = store.operations := by
  rw [append] at appended
  split at appended
  · cases appended
  · cases appended
    rfl

/-! ## Events -/

/-- The events which record a claim. -/
def EventKind.claims : EventKind → Bool
  | .claimed | .claimRecovered | .reconciliationClaimed => true
  | _ => false

/-- The status which the text of an enqueued event stands for. -/
def statusOfText (text : String) : Option Status :=
  [Status.queued, .claimed, .blocked, .failed, .completed].find? fun status =>
    decide (status.text = text)

/-- The status of a row behind an event. -/
def impliedStatus (kind : EventKind) (details : Written) : Option Status :=
  match kind with
  | .enqueued =>
    match details.field "status" with
    | some (.str text) => statusOfText text
    | _ => none
  | .claimed | .claimRecovered | .reconciliationClaimed => some .claimed
  | .retryScheduled | .authorityReactivated | .reopened => some .queued
  | .authorityBlocked | .reconciliationRequired => some .blocked
  | .failed => some .failed
  | .completed => some .completed

/-- An event records a claim which takes an attempt. -/
def attempts (kind : EventKind) (details : Written) : Bool :=
  kind.claims &&
    match details.field "reconciliationOnly" with
    | some (.bool reconciliationOnly) => !reconciliationOnly
    | _ => false

/-- An event tells what has become of the row before it. -/
structure Explains (before : Option OutageRow) (row : OutageRow)
    (kind : EventKind) (details : Written) : Prop where
  status : impliedStatus kind details = some row.status
  generation : row.claimGeneration =
    (before.map OutageRow.claimGeneration).getD 0 +
      if kind.claims then 1 else 0
  attempts : row.attemptsConsumed =
    if kind = .reopened then 0
    else (before.map OutageRow.attemptsConsumed).getD 0 +
      if attempts kind details then 1 else 0

theorem statusOfText_text (status : Status) :
    statusOfText status.text = some status := by
  cases status
  all_goals rfl

theorem explains_of_status {current row : OutageRow} {kind : EventKind}
    {details : Written} (quiet : kind.claims = false)
    (notReopened : kind ≠ .reopened)
    (status : impliedStatus kind details = some row.status)
    (generation : row.claimGeneration = current.claimGeneration)
    (same : row.attemptsConsumed = current.attemptsConsumed) :
    Explains (some current) row kind details where
  status := status
  generation := by
    rw [quiet, generation]
    rfl
  attempts := by
    rw [if_neg notReopened, Outage.attempts, quiet, same]
    exact (Int.add_zero _).symm

/--
A call has written one row and the event which explains it, where its scope is
valid.
-/
structure Writes (sha256 : String → String) (store after : Store)
    (scope : Scope) (row : OutageRow) : Prop where
  valid : validateScope scope = .ok ()
  digest : row.scope.operationDigest = scope.operationDigest
  sameScope : row.scope =
    ((store.row scope).map OutageRow.scope).getD scope
  appended : ∃ kind observedAt details,
    Explains (store.row scope) row kind details.sorted ∧
      append sha256 scope kind observedAt details (store.write scope row) =
        .ok after

namespace Writes

variable {scope : Scope} {store after : Store} {row : OutageRow}

theorem of_append {kind : EventKind} {observedAt : Instant}
    {details : Written} {before : Option OutageRow}
    (valid : validateScope scope = .ok ())
    (digest : row.scope.operationDigest = scope.operationDigest)
    (found : store.row scope = before)
    (sameScope : row.scope = (before.map OutageRow.scope).getD scope)
    (explains : Explains before row kind details.sorted)
    (appended : append sha256 scope kind observedAt details
      (store.write scope row) = .ok after) :
    Writes sha256 store after scope row where
  valid := valid
  digest := digest
  sameScope := found ▸ sameScope
  appended := ⟨kind, observedAt, details, found ▸ explains, appended⟩

theorem operations (writes : Writes sha256 store after scope row) :
    after.operations = store.operations.set scope.key row := by
  rcases writes.appended with ⟨kind, observedAt, details, _, appended⟩
  exact append_operations appended

end Writes

/-! ## Enqueueing -/

/-- The row of a new operation. -/
structure NewRow (input : EnqueueInput) (row : OutageRow) : Prop where
  scope : row.scope = input.scope
  status : row.status = .queued ∨ row.status = .blocked ∨
    row.status = .failed
  budget : 1 ≤ row.retryBudget
  attempts : row.attemptsConsumed = 0
  generation : row.claimGeneration = 0
  unclaimed : row.claimExpiresAt = none
  authority : row.authorityVersion = input.authorityVersion
  identity : ∀ version ∈ row.authorityVersion, isIdentity version = true
  nextAttemptAt : Instant.parse? input.nextAttemptAt = some row.nextAttemptAt
  expiresAt : Instant.parse? input.expiresAt = some row.expiresAt

theorem explains_enqueued (row : OutageRow) (retryBudget expiresAt : Written)
    (generation : row.claimGeneration = 0)
    (same : row.attemptsConsumed = 0) :
    Explains none row .enqueued (Written.obj [
      ("status", .str row.status.text), ("retryBudget", retryBudget),
      ("expiresAt", expiresAt)]).sorted where
  status := by
    have keys : ["status", "retryBudget", "expiresAt"].Nodup := by decide
    have told := @Written.field_sorted [
        ("status", .str row.status.text), ("retryBudget", retryBudget),
        ("expiresAt", expiresAt)] keys "status" (.str row.status.text)
      List.mem_cons_self
    rw [impliedStatus, told, Written.sorted]
    exact statusOfText_text row.status
  generation := generation
  attempts := same

variable {observedAt : String} {store after : Store} {record : OutageRow}

theorem enqueue_cases {input : EnqueueInput}
    (enqueued : enqueue sha256 input observedAt store = .ok (after, record)) :
    after = store ∨ store.row input.scope = none ∧ NewRow input record ∧
      Writes sha256 store after input.scope record := by
  simp only [enqueue, Fallible.bind_eq_ok, check_eq_ok, iso_eq_ok,
    positiveInteger_eq_ok] at enqueued
  rcases enqueued with ⟨_, valid, _, ⟨_, positive⟩, observed, _,
    nextAttemptAt, foundNext, expiresAt, foundExpires, _, identity,
    openedAt, _, branch⟩
  cases found : store.row input.scope with
  | some existing =>
    rw [found] at branch
    simp only at branch
    split at branch
    · cases branch
    · cases branch
      exact Or.inl rfl
  | none =>
    right
    rw [found] at branch
    simp only [Fallible.bind_eq_ok, check_eq_ok] at branch
    rcases branch with ⟨_, _, appendedTo, appended, returned⟩
    cases returned
    refine ⟨rfl, ?_, .of_append valid rfl found rfl
      (explains_enqueued _ _ _ rfl rfl) appended⟩
    constructor
    · rfl
    · cases input.status with
      | none => exact Or.inl rfl
      | some status =>
        cases status with
        | queued => exact Or.inl rfl
        | blocked => exact Or.inr (Or.inl rfl)
        | failed => exact Or.inr (Or.inr rfl)
    · exact positive
    · rfl
    · rfl
    · rfl
    · rfl
    · exact identity
    · exact foundNext
    · exact foundExpires

/-! ## Claiming -/

/-- What a claim has checked before it leases a row. -/
structure Leased (input : ClaimInput) (current record : OutageRow)
    (now : Instant) : Prop where
  parsed : Instant.parse? input.now = some now
  notExpired : ¬ (current.status = .queued ∧ current.expiresAt.textLe now = true)
  eligible : current.retryEligible now = true ∨
    current.reconciling = true ∨ current.expiredRecovery now = true
  leased : ∃ claimExpiresAt,
    Instant.ofMs? (now.ms + input.leaseMs) = some claimExpiresAt ∧
    record = current.lease input.workerId now claimExpiresAt

theorem explains_leased (current : OutageRow) (workerId : String)
    (now claimExpiresAt : Instant)
    (worker generation leaseEnds expired : Written) :
    Explains (some current) (current.lease workerId now claimExpiresAt)
      (if current.reconciling then .reconciliationClaimed
        else if current.recovering now then .claimRecovered
        else .claimed)
      (Written.obj [
        ("workerId", worker), ("claimGeneration", generation),
        ("leaseExpiresAt", leaseEnds),
        ("reconciliationOnly",
          .bool (current.reconciling || current.expiredRecovery now)),
        ("expired", expired)]).sorted := by
  have keys : ["workerId", "claimGeneration", "leaseExpiresAt",
    "reconciliationOnly", "expired"].Nodup := by decide
  have told := @Written.field_sorted [
      ("workerId", worker), ("claimGeneration", generation),
      ("leaseExpiresAt", leaseEnds),
      ("reconciliationOnly",
        .bool (current.reconciling || current.expiredRecovery now)),
      ("expired", expired)] keys "reconciliationOnly"
    (.bool (current.reconciling || current.expiredRecovery now))
    (by simp only [List.mem_cons, true_or, or_true])
  rw [Written.sorted] at told
  generalize kind : (if current.reconciling then
      EventKind.reconciliationClaimed
    else if current.recovering now then .claimRecovered
    else .claimed) = event
  have isClaim : event.claims = true ∧ event ≠ .reopened ∧
      ∀ details, impliedStatus event details = some .claimed := by
    rw [← kind]
    split
    · exact ⟨rfl, by decide, fun _ => rfl⟩
    · split
      · exact ⟨rfl, by decide, fun _ => rfl⟩
      · exact ⟨rfl, by decide, fun _ => rfl⟩
  refine ⟨isClaim.2.2 _, ?_, ?_⟩
  · rw [isClaim.1]
    rfl
  · rw [if_neg isClaim.2.1, attempts, isClaim.1, told, Bool.true_and]
    show current.attemptsConsumed +
        (if (!current.reconciling && !current.expiredRecovery now) = true
          then 1 else 0) = _
    rw [← Bool.not_or]
    rfl

theorem claim_cases {input : ClaimInput} {answer : Option OutageRow}
    (claimed : claim sha256 input store = .ok (after, answer)) :
    after = store ∧ answer = none ∨
    ∃ current now, store.row input.scope = some current ∧
      (answer = none ∧ current.status = .queued ∧
        Writes sha256 store after input.scope (current.expire now) ∨
      ∃ record, answer = some record ∧ Leased input current record now ∧
        Writes sha256 store after input.scope record) := by
  simp only [claim, Fallible.bind_eq_ok, check_eq_ok, iso_eq_ok,
    positiveInteger_eq_ok] at claimed
  rcases claimed with ⟨_, valid, _, _, now, parsed, _, _, branch⟩
  cases found : store.row input.scope with
  | none =>
    rw [found] at branch
    cases branch
    exact Or.inl ⟨rfl, rfl⟩
  | some current =>
    rw [found] at branch
    simp only [Fallible.bind_eq_ok, check_eq_ok] at branch
    rcases branch with ⟨_, digest, _, _, branch⟩
    rw [claimRow] at branch
    split at branch
    · next expired =>
        rcases Fallible.bind_eq_ok.mp branch with
          ⟨_, appended, returned⟩
        cases returned
        have explains := @explains_of_status current (current.expire now)
          .failed
        exact Or.inr ⟨current, now, rfl, Or.inl ⟨rfl, expired.1,
          .of_append valid digest found rfl
            (explains rfl nofun rfl rfl rfl) appended⟩⟩
    · next notExpired =>
        split at branch
        · cases branch
          exact Or.inl ⟨rfl, rfl⟩
        · next some' =>
            right
            split at branch
            · cases branch
            · next claimExpiresAt inRange =>
                rcases Fallible.bind_eq_ok.mp branch with
                  ⟨_, appended, returned⟩
                cases returned
                refine ⟨current, now, rfl, Or.inr ⟨_, rfl, ?_,
                  .of_append valid digest found rfl
                    (explains_leased _ _ _ _ _ _ _ _) appended⟩⟩
                constructor
                · exact parsed
                · exact notExpired
                · by_contra none'
                  rw [not_or, not_or] at none'
                  apply some'
                  simp only [Bool.eq_false_iff]
                  exact none'
                · exact ⟨claimExpiresAt, inRange, rfl⟩

/-! ## Settling -/

/-- A row which is leased by the claim of a call at its time. -/
structure Held (store : Store) (held : Claim) (observedAt : String)
    (current : OutageRow) (observed : Instant) : Prop where
  found : store.row held.scope = some current
  parsed : Instant.parse? observedAt = some observed
  active : current.activeFor held observed = true

theorem complete_cases {held : Claim} {completionDigest : String}
    {answer : Bool × OutageRow}
    (completed : complete sha256 held completionDigest observedAt store =
      .ok (after, answer)) :
    after = store ∨ ∃ current observed,
      Held store held observedAt current observed ∧
      Writes sha256 store after held.scope
        (current.settle completionDigest observed) := by
  simp only [complete, Fallible.bind_eq_ok, check_eq_ok, iso_eq_ok]
    at completed
  rcases completed with ⟨_, valid, _, _, observed, parsed, branch⟩
  cases found : store.row held.scope with
  | none =>
    rw [found] at branch
    cases branch
  | some current =>
    rw [found] at branch
    simp only [Fallible.bind_eq_ok, check_eq_ok] at branch
    rcases branch with ⟨_, digest, branch⟩
    split at branch
    · rcases Fallible.bind_eq_ok.mp branch with ⟨_, _, returned⟩
      cases returned
      exact Or.inl rfl
    · split at branch
      · cases branch
        exact Or.inl rfl
      · next active =>
          rcases Fallible.bind_eq_ok.mp branch with
            ⟨_, appended, returned⟩
          cases returned
          have explains := @explains_of_status current
            (current.settle completionDigest observed) .completed
          refine Or.inr ⟨current, observed, ⟨found, parsed, ?_⟩,
            .of_append valid digest found rfl
              (explains rfl nofun rfl rfl rfl) appended⟩
          exact Bool.not_eq_false _ ▸ active

/-- What a failure has checked before it is recorded. -/
structure Failure (decision : FailureDecision) (current record : OutageRow)
    (observed : Instant) : Prop where
  checked : ∃ openedAt nextAttemptAt,
    validateFailureDecision decision = .ok (openedAt, nextAttemptAt) ∧
    record = current.afterFailure decision openedAt nextAttemptAt observed

theorem explains_failure (current : OutageRow) (decision : FailureDecision)
    (openedAt nextAttemptAt : Option Instant) (observedAt : Instant)
    (details : Written) :
    Explains (some current)
      (current.afterFailure decision openedAt nextAttemptAt observedAt)
      (failureEvent current decision) details := by
  have quiet : (failureEvent current decision).claims = false ∧
      failureEvent current decision ≠ .reopened ∧
      impliedStatus (failureEvent current decision) details =
        some (failedStatus current decision) := by
    rw [failureEvent]
    by_cases failed : decision.action = .fail ∨
        budgetExhausted current decision = true
    · have status : failedStatus current decision = .failed := if_pos failed
      rw [status, if_pos rfl]
      exact ⟨rfl, nofun, rfl⟩
    · by_cases blocks : decision.action = .awaitAuthority ∨
          decision.action = .reconcile
      · have status : failedStatus current decision = .blocked :=
          (if_neg failed).trans (if_pos blocks)
        rw [status, if_neg nofun]
        split
        · exact ⟨rfl, nofun, rfl⟩
        · exact ⟨rfl, nofun, rfl⟩
      · have status : failedStatus current decision = .queued :=
          (if_neg failed).trans (if_neg blocks)
        rw [status, if_neg nofun,
          if_neg fun reconciles => blocks (.inr reconciles), if_neg nofun]
        exact ⟨rfl, nofun, rfl⟩
  exact explains_of_status quiet.1 quiet.2.1 quiet.2.2 rfl rfl

theorem fail_cases {held : Claim} {decision : FailureDecision}
    (failed : fail sha256 held decision observedAt store = .ok (after,
      record)) :
    ∃ current observed, Held store held observedAt current observed ∧
      Failure decision current record observed ∧
      Writes sha256 store after held.scope record := by
  simp only [fail, Fallible.bind_eq_ok, iso_eq_ok] at failed
  rcases failed with ⟨_, valid, observed, parsed, ⟨openedAt, nextAttemptAt⟩,
    decided, branch⟩
  cases found : store.row held.scope with
  | none =>
    rw [found] at branch
    cases branch
  | some current =>
    rw [found] at branch
    simp only [Fallible.bind_eq_ok, check_eq_ok] at branch
    rcases branch with ⟨_, digest, _, active, _, _, _, _, _, _, _,
      appended, returned⟩
    cases returned
    exact ⟨current, observed, ⟨found, parsed, active⟩,
      ⟨openedAt, nextAttemptAt, decided, rfl⟩,
      .of_append valid digest found rfl
        (explains_failure current decision _ _ _ _) appended⟩

/-! ## Requeueing -/

/-- What a reactivation has checked before it queues a row. -/
structure Reactivated (input : ReactivateInput) (current : OutageRow)
    (now : Instant) : Prop where
  parsed : Instant.parse? input.now = some now
  identity : isIdentity input.nextAuthorityVersion = true
  waiting : current.status = .blocked ∨ current.status = .queued
  authority : current.authorityVersion = some input.previousAuthorityVersion
  reason : current.status = .blocked →
    current.lastFailureReason = some "authority_change_required"

theorem reactivateAuthority_cases {scope : Scope} {input : ReactivateInput}
    (reactivated : reactivateAuthority sha256 scope input store = .ok
      (after, record)) :
    ∃ current now, store.row scope = some current ∧
      Reactivated input current now ∧
      Writes sha256 store after scope
        (current.reactivate input.nextAuthorityVersion now) := by
  simp only [reactivateAuthority, Fallible.bind_eq_ok, check_eq_ok,
    iso_eq_ok] at reactivated
  rcases reactivated with ⟨_, valid, _, identity, _, _, now, parsed, branch⟩
  cases found : store.row scope with
  | none =>
    rw [found] at branch
    cases branch
  | some current =>
    rw [found] at branch
    simp only [Fallible.bind_eq_ok, check_eq_ok] at branch
    rcases branch with ⟨_, digest, _, ⟨waiting, authority⟩, _, _, _,
      reason, _, appended, returned⟩
    cases returned
    have explains := @explains_of_status current
      (current.reactivate input.nextAuthorityVersion now)
      .authorityReactivated
    refine ⟨current, now, rfl, ?_, .of_append valid digest found rfl
      (explains rfl nofun rfl rfl rfl) appended⟩
    constructor
    · exact parsed
    · exact identity.2
    · exact waiting
    · exact authority
    · exact reason

theorem reopen_cases {scope : Scope} {input : ReopenInput} {answer : Reopen}
    (reopened : reopen sha256 scope input store = .ok (after, answer)) :
    after = store ∨ ∃ current observed nextAttemptAt expiresAt,
      store.row scope = some current ∧ current.status = .failed ∧
      Instant.parse? (input.nextAttemptAt.getD input.now) =
        some nextAttemptAt ∧
      Instant.parse? input.expiresAt = some expiresAt ∧
      Writes sha256 store after scope
        (current.reopen observed nextAttemptAt expiresAt) := by
  simp only [reopen, Fallible.bind_eq_ok, check_eq_ok, iso_eq_ok]
    at reopened
  rcases reopened with ⟨_, valid, observed, _, expiresAt, parsedExpires,
    nextAttemptAt, parsedNext, _, _, branch⟩
  cases found : store.row scope with
  | none =>
    rw [found] at branch
    cases branch
    exact Or.inl rfl
  | some current =>
    rw [found] at branch
    simp only [Fallible.bind_eq_ok, check_eq_ok] at branch
    rcases branch with ⟨_, digest, branch⟩
    rw [reopenRow] at branch
    split at branch
    · cases branch
      exact Or.inl rfl
    · next failed =>
        split at branch
        · cases branch
          exact Or.inl rfl
        · split at branch
          · cases branch
            exact Or.inl rfl
          · rcases Fallible.bind_eq_ok.mp branch with
              ⟨_, appended, returned⟩
            cases returned
            exact Or.inr ⟨current, observed, nextAttemptAt, expiresAt, rfl,
              not_not.mp failed, parsedNext, parsedExpires,
              .of_append valid digest found rfl ⟨rfl, rfl, rfl⟩ appended⟩

/-! ## One step -/

/-- The row which a call writes, from the row it has found. -/
inductive Change (store : Store) : Call → Scope → OutageRow → Prop where
  | enqueued {input : EnqueueInput} {observedAt : String} {row : OutageRow}
      (absent : store.row input.scope = none) (new : NewRow input row) :
      Change store (.enqueue input observedAt) input.scope row
  | expired {input : ClaimInput} {current : OutageRow} {now : Instant}
      (found : store.row input.scope = some current)
      (queued : current.status = .queued) :
      Change store (.claim input) input.scope (current.expire now)
  | leased {input : ClaimInput} {current record : OutageRow} {now : Instant}
      (found : store.row input.scope = some current)
      (leased : Leased input current record now) :
      Change store (.claim input) input.scope record
  | completed {held : Claim} {completionDigest observedAt : String}
      {current : OutageRow} {observed : Instant}
      (held' : Held store held observedAt current observed) :
      Change store (.complete held completionDigest observedAt) held.scope
        (current.settle completionDigest observed)
  | failed {held : Claim} {decision : FailureDecision} {observedAt : String}
      {current record : OutageRow} {observed : Instant}
      (held' : Held store held observedAt current observed)
      (failure : Failure decision current record observed) :
      Change store (.fail held decision observedAt) held.scope record
  | reactivated {scope : Scope} {input : ReactivateInput}
      {current : OutageRow} {now : Instant}
      (found : store.row scope = some current)
      (reactivated : Reactivated input current now) :
      Change store (.reactivateAuthority scope input) scope
        (current.reactivate input.nextAuthorityVersion now)
  | reopened {scope : Scope} {input : ReopenInput} {current : OutageRow}
      {observed nextAttemptAt expiresAt : Instant}
      (found : store.row scope = some current)
      (failed : current.status = .failed)
      (parsedNext : Instant.parse? (input.nextAttemptAt.getD input.now) =
        some nextAttemptAt)
      (parsedExpires : Instant.parse? input.expiresAt = some expiresAt) :
      Change store (.reopen scope input) scope
        (current.reopen observed nextAttemptAt expiresAt)

theorem step_cases (store : Store) (call : Call) :
    step sha256 store call = store ∨ ∃ scope row,
      Change store call scope row ∧
      Writes sha256 store (step sha256 store call) scope row := by
  cases call with
  | enqueue input observedAt =>
    rw [step]
    cases result : enqueue sha256 input observedAt store with
    | error code => exact Or.inl rfl
    | ok pair =>
      rcases enqueue_cases result with same | ⟨absent, new, writes⟩
      · exact Or.inl same
      · exact Or.inr ⟨_, _, .enqueued absent new, writes⟩
  | claim input =>
    rw [step]
    cases result : claim sha256 input store with
    | error code => exact Or.inl rfl
    | ok pair =>
      rcases claim_cases result with ⟨same, _⟩ |
        ⟨current, now, found, ⟨_, queued, writes⟩ |
          ⟨record, _, leased, writes⟩⟩
      · exact Or.inl same
      · exact Or.inr ⟨_, _, .expired found queued, writes⟩
      · exact Or.inr ⟨_, _, .leased found leased, writes⟩
  | complete held completionDigest observedAt =>
    rw [step]
    cases result : complete sha256 held completionDigest observedAt
        store with
    | error code => exact Or.inl rfl
    | ok pair =>
      rcases complete_cases result with
        same | ⟨current, observed, held', writes⟩
      · exact Or.inl same
      · exact Or.inr ⟨_, _, .completed held', writes⟩
  | fail held decision observedAt =>
    rw [step]
    cases result : fail sha256 held decision observedAt store with
    | error code => exact Or.inl rfl
    | ok pair =>
      rcases fail_cases result with
        ⟨current, observed, held', failure, writes⟩
      exact Or.inr ⟨_, _, .failed held' failure, writes⟩
  | reactivateAuthority scope input =>
    rw [step]
    cases result : reactivateAuthority sha256 scope input store with
    | error code => exact Or.inl rfl
    | ok pair =>
      rcases reactivateAuthority_cases result with
        ⟨current, now, found, checked, writes⟩
      exact Or.inr ⟨_, _, .reactivated found checked, writes⟩
  | reopen scope input =>
    rw [step]
    cases result : reopen sha256 scope input store with
    | error code => exact Or.inl rfl
    | ok pair =>
      rcases reopen_cases result with
        same | ⟨current, observed, nextAttemptAt, expiresAt, found,
          failed, parsedNext, parsedExpires, writes⟩
      · exact Or.inl same
      · exact Or.inr ⟨_, _,
          .reopened found failed parsedNext parsedExpires, writes⟩

end Operations

end Mendpoint.Outage
