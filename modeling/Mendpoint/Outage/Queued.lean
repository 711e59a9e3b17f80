import Mendpoint.Outage.Fencing

/-!
# Queued rows can be claimed

A queued row keeps an attempt, and a claim within its window is granted, where
no blocked row without attempts is queued again and the texts of a window are
in the order of time.
-/

namespace Mendpoint.Outage

open Mendpoint.Library
open Mendpoint.Library.IsoTime

/-! ## Windows -/

/-- The times of a window are within it as texts. -/
def InTextOrder (nextAttemptAt expiresAt : Instant) : Prop :=
  ∀ now : Instant, nextAttemptAt.ms ≤ now.ms → now.ms < expiresAt.ms →
    nextAttemptAt.textLe now = true ∧ expiresAt.textLe now = false

theorem inTextOrder_of_plain {nextAttemptAt expiresAt : Instant}
    (plain : PlainYear nextAttemptAt.ms)
    (plainExpires : PlainYear expiresAt.ms) :
    InTextOrder nextAttemptAt expiresAt := by
  intro now opened closes
  have plainNow : PlainYear now.ms := by
    have after := (le_iff_fields nextAttemptAt.ms now.ms).mp opened
    have before := (le_iff_fields now.ms expiresAt.ms).mp
      (Int.le_of_lt closes)
    rw [PlainYear] at plain plainExpires
    rw [PlainYear]
    omega
  constructor
  · exact (Instant.textLe_iff plain plainNow).mpr opened
  · rw [Bool.eq_false_iff]
    intro past
    exact Int.not_le.mpr closes
      ((Instant.textLe_iff plainExpires plainNow).mp past)

/-- The window in which a call may queue a row. -/
def window (store : Store) : Call → Option (Instant × Instant)
  | .enqueue input _ => do
      let nextAttemptAt ← Instant.parse? input.nextAttemptAt
      let expiresAt ← Instant.parse? input.expiresAt
      return (nextAttemptAt, expiresAt)
  | .fail held decision _ => do
      let row ← store.row held.scope
      let text ← decision.nextAttemptAt
      let nextAttemptAt ← Instant.parse? text
      return (nextAttemptAt, row.expiresAt)
  | .reactivateAuthority scope input => do
      let row ← store.row scope
      let now ← Instant.parse? input.now
      return (now, row.expiresAt)
  | .reopen _ input => do
      let nextAttemptAt ←
        Instant.parse? (input.nextAttemptAt.getD input.now)
      let expiresAt ← Instant.parse? input.expiresAt
      return (nextAttemptAt, expiresAt)
  | _ => none

/-- A row which a change of authority would unblock. -/
def OutageRow.AwaitsAuthority (row : OutageRow) (input : ReactivateInput) :
    Prop :=
  row.status = .blocked ∧
    row.lastFailureReason = some "authority_change_required" ∧
    row.authorityVersion = some input.previousAuthorityVersion

instance (row : OutageRow) (input : ReactivateInput) :
    Decidable (row.AwaitsAuthority input) :=
  inferInstanceAs (Decidable (_ ∧ _))

/-- A change of authority finds a blocked row with an attempt left. -/
def KeepsAttempt (store : Store) : Call → Prop
  | .reactivateAuthority scope input => ∀ row ∈ store.row scope,
      row.AwaitsAuthority input → row.attemptsConsumed < row.retryBudget
  | _ => True

/-- What a call has to keep for the rows which it queues. -/
structure KeepsClaimable (store : Store) (call : Call) : Prop where
  window : ∀ window' ∈ window store call, InTextOrder window'.1 window'.2
  attempt : KeepsAttempt store call

/-! ## Rows -/

/-- A row which can be claimed within its window whenever it is queued. -/
structure OutageRow.Claimable (row : OutageRow) : Prop where
  valid : validateScope row.scope = .ok ()
  budget : 1 ≤ row.retryBudget
  identity : ∀ version ∈ row.authorityVersion, isIdentity version = true
  attempts : row.status = .queued → row.attemptsConsumed < row.retryBudget
  window : row.status = .queued →
    InTextOrder row.nextAttemptAt row.expiresAt

/-- Rows which stand under their keys and can be claimed. -/
def Store.Claimable (store : Store) : Prop :=
  ∀ key row, store.operations.get? key = some row →
    row.scope.key = key ∧ row.Claimable

theorem queued_of_failure {decision : FailureDecision}
    {current record : OutageRow} {observed : Instant}
    (failure : Failure decision current record observed)
    (queued : record.status = .queued) :
    current.attemptsConsumed < current.retryBudget ∧
      ∃ text ∈ decision.nextAttemptAt,
        Instant.parse? text = some record.nextAttemptAt := by
  rcases failure.checked with ⟨openedAt, nextAttemptAt, decided, rfl⟩
  have retries : (decision.action = .retry ∨ decision.action = .wait) ∧
      budgetExhausted current decision = false := by
    have status : failedStatus current decision = .queued := queued
    rw [failedStatus] at status
    split at status
    · cases status
    · next notFailed =>
        split at status
        · cases status
        · next notBlocked =>
            rw [not_or] at notFailed notBlocked
            refine ⟨?_, Bool.eq_false_iff.mpr notFailed.2⟩
            cases action : decision.action with
            | retry => exact Or.inl rfl
            | wait => exact Or.inr rfl
            | awaitAuthority => exact absurd action notBlocked.1
            | fail => exact absurd action notFailed.1
            | reconcile => exact absurd action notBlocked.2
  rcases retries with ⟨retries, left⟩
  constructor
  · rw [budgetExhausted, decide_eq_true retries, Bool.true_and,
      decide_eq_false_iff_not] at left
    exact Int.not_le.mp left
  · simp only [validateFailureDecision, Fallible.bind_eq_ok, check_eq_ok,
      Fallible.pure_eq_ok, Prod.mk.injEq] at decided
    rcases decided with ⟨_, _, _, _, _, _, next, parsed, _, schedules, _, _, _,
      _, _, same⟩
    rw [← same]
    cases text : decision.nextAttemptAt with
    | none =>
      rw [text, decide_eq_true retries] at schedules
      cases schedules.2
    | some text' =>
      rw [text, isoOption, Fallible.bind_eq_ok] at parsed
      rcases parsed with ⟨instant, found, returned⟩
      cases returned
      exact ⟨text', rfl, iso_eq_ok.mp found⟩

theorem Change.claimable {store : Store} {call : Call} {scope : Scope}
    {row : OutageRow} (change : Change store call scope row)
    (valid : validateScope scope = .ok ()) (claimable : store.Claimable)
    (keeps : KeepsClaimable store call) :
    row.scope.key = scope.key ∧ row.Claimable := by
  have notQueued : ∀ {status : Status} {fact : Prop}, status ≠ .queued →
      status = .queued → fact := fun other same => absurd same other
  cases change with
  | enqueued absent new =>
    rw [new.scope]
    refine ⟨rfl, ?_⟩
    constructor
    · rw [new.scope]
      exact valid
    · exact new.budget
    · exact new.identity
    · intro _
      rw [new.attempts]
      exact new.budget
    · intro _
      apply keeps.window (_, _)
      rw [window, new.nextAttemptAt, new.expiresAt]
      rfl
  | expired found queued =>
    rcases claimable _ _ found with ⟨atKey, before⟩
    refine ⟨atKey, before.valid, before.budget, before.identity, ?_, ?_⟩
    · exact notQueued (fun same => nomatch same)
    · exact notQueued (fun same => nomatch same)
  | leased found leased =>
    rcases claimable _ _ found with ⟨atKey, before⟩
    rcases leased.leased with ⟨claimExpiresAt, _, rfl⟩
    refine ⟨atKey, before.valid, before.budget, before.identity, ?_, ?_⟩
    · exact notQueued (fun same => nomatch same)
    · exact notQueued (fun same => nomatch same)
  | completed held' =>
    rcases claimable _ _ held'.found with ⟨atKey, before⟩
    refine ⟨atKey, before.valid, before.budget, before.identity, ?_, ?_⟩
    · exact notQueued (fun same => nomatch same)
    · exact notQueued (fun same => nomatch same)
  | failed held' failure =>
    rcases claimable _ _ held'.found with ⟨atKey, before⟩
    have requeued := queued_of_failure failure
    rcases failure.checked with ⟨openedAt, nextAttemptAt, _, rfl⟩
    refine ⟨atKey, before.valid, before.budget, before.identity, ?_, ?_⟩
    · exact fun queued => (requeued queued).1
    · intro queued
      rcases (requeued queued).2 with ⟨text, given, parsed⟩
      apply keeps.window (_, _)
      rw [window, held'.found, Option.mem_def.mp given]
      simp only [Option.bind_eq_bind, Option.bind_some, parsed]
      rfl
  | reactivated found reactivated =>
    rcases claimable _ _ found with ⟨atKey, before⟩
    refine ⟨atKey, before.valid, before.budget, ?_, ?_, ?_⟩
    · intro version same
      cases same
      exact reactivated.identity
    · intro _
      rcases reactivated.waiting with blocked | queued
      · have left := keeps.attempt _ found ⟨blocked,
          reactivated.reason blocked, reactivated.authority⟩
        exact left
      · exact before.attempts queued
    · intro _
      apply keeps.window (_, _)
      rw [window, found, reactivated.parsed]
      rfl
  | reopened found failed parsedNext parsedExpires =>
    rcases claimable _ _ found with ⟨atKey, before⟩
    refine ⟨atKey, before.valid, before.budget, before.identity, ?_, ?_⟩
    · exact fun _ => before.budget
    · intro _
      apply keeps.window (_, _)
      rw [window, parsedNext, parsedExpires]
      rfl

section Operations

variable {sha256 : String → String}

theorem Store.Claimable.step {store : Store} (claimable : store.Claimable)
    {call : Call} (keeps : KeepsClaimable store call) :
    (step sha256 store call).Claimable := by
  intro key row found
  rcases @step_cases sha256 store call with
    same | ⟨scope, written, change, writes⟩
  · rw [same] at found
    exact claimable key row found
  · rw [writes.operations] at found
    by_cases atKey : scope.key = key
    · subst atKey
      rw [OrderedMap.get?_set_self] at found
      cases found
      exact change.claimable writes.valid claimable keeps
    · rw [OrderedMap.get?_set_of_ne _ _ atKey] at found
      exact claimable key row found

/-! ## Claims -/

/-- A claim of a row with its authority at a time within its window. -/
structure DueClaim (row : OutageRow) (input : ClaimInput) (now : Instant) :
    Prop where
  scope : input.scope = row.scope
  worker : isIdentity input.workerId = true
  parsed : Instant.parse? input.now = some now
  lease : isSafeInteger input.leaseMs ∧ 1 ≤ input.leaseMs
  leaseEnds : (Instant.ofMs? (now.ms + input.leaseMs)).isSome = true
  authority : row.authorityVersion = some input.authorityVersion
  opened : row.nextAttemptAt.ms ≤ now.ms
  notExpired : now.ms < row.expiresAt.ms

theorem claim_granted {store : Store} {row : OutageRow} {input : ClaimInput}
    {now : Instant} (chained : Chained sha256 store.history)
    (collisionFree : Function.Injective sha256)
    (found : store.row input.scope = some row) (claimable : row.Claimable)
    (queued : row.status = .queued) (due : DueClaim row input now) :
    ∃ after record, claim sha256 input store = .ok (after, some record) := by
  rcases claimable.window queued now due.opened due.notExpired with
    ⟨opened, notExpired⟩
  have valid : validateScope input.scope = .ok () := by
    rw [due.scope]
    exact claimable.valid
  have worker : check (isIdentity input.workerId = true)
      "dependency_outage_worker_invalid" = .ok () := check_eq_ok.mpr due.worker
  have parsed : iso input.now "dependency_outage_timestamp_invalid" =
      .ok now := iso_eq_ok.mpr due.parsed
  have lease : positiveInteger input.leaseMs
      "dependency_outage_lease_invalid" = .ok () :=
    positiveInteger_eq_ok.mpr due.lease
  have digest : check (row.scope.operationDigest =
      input.scope.operationDigest)
      "dependency_outage_operation_digest_conflict" = .ok () := by
    rw [check_eq_ok, due.scope]
  have authority : checkAuthority row now input.authorityVersion =
      .ok () := by
    rw [checkAuthority, if_pos (Or.inl queued)]
    simp only [Fallible.bind_eq_ok, check_eq_ok]
    refine ⟨(), claimable.identity _ due.authority, (), ?_, due.authority⟩
    rw [due.authority]
    exact Option.some_ne_none _
  have eligible : row.retryEligible now = true := by
    rw [OutageRow.retryEligible, queued, opened, notExpired,
      decide_eq_true (claimable.attempts queued)]
    rfl
  rcases Option.isSome_iff_exists.mp due.leaseEnds with
    ⟨claimExpiresAt, leaseEnds⟩
  have kept : Chained sha256 (store.write input.scope
      (row.lease input.workerId now claimExpiresAt)).history := chained
  have granted : ∃ after record,
      claimRow sha256 input now row store = .ok (after, some record) := by
    rw [claimRow, if_neg, if_neg, leaseEnds]
    · simp only [kept.append collisionFree]
      exact ⟨_, _, rfl⟩
    · rintro ⟨ineligible, _⟩
      rw [eligible] at ineligible
      cases ineligible
    · rintro ⟨_, expired⟩
      rw [notExpired] at expired
      cases expired
  rcases granted with ⟨after, record, granted⟩
  refine ⟨after, record, ?_⟩
  rw [claim]
  simp only [valid, worker, parsed, lease, found, digest]
  show (checkAuthority row now input.authorityVersion >>= fun _ =>
    claimRow sha256 input now row store) = _
  rw [authority]
  exact granted

/-- Every queued row has an attempt left, and a due claim of it succeeds. -/
def NoneStranded (sha256 : String → String) (store : Store) : Prop :=
  ∀ key row, store.operations.get? key = some row → row.status = .queued →
    row.attemptsConsumed < row.retryBudget ∧
    ∀ input now, DueClaim row input now → ∃ after record,
      claim sha256 input store = .ok (after, some record)

theorem noneStranded_of_claimable {store : Store}
    (claimable : store.Claimable) (chained : Chained sha256 store.history)
    (collisionFree : Function.Injective sha256) :
    NoneStranded sha256 store := by
  intro key row found queued
  rcases claimable key row found with ⟨atKey, claims⟩
  refine ⟨claims.attempts queued, fun input now due => ?_⟩
  have located : store.row input.scope = some row := by
    rw [Store.row, due.scope, atKey]
    exact found
  exact claim_granted chained collisionFree located claims queued due

theorem claimable_empty : Store.empty.Claimable :=
  fun _ _ found => nomatch found

/--
In every run in which windows are in the order of time and no blocked row
without attempts is queued again, no queued row is stranded.
-/
theorem queued_not_stranded (sha256 : String → String)
    (collisionFree : Function.Injective sha256) (calls : List Call)
    (keeps : Run.Along (step sha256) KeepsClaimable Store.empty calls) :
    NoneStranded sha256 (Run.run (step sha256) Store.empty calls) := by
  have claimable : (Run.run (step sha256) Store.empty calls).Claimable := by
    apply Run.run_along_invariant _ claimable_empty keeps
    exact fun store call claimable keeps => claimable.step keeps
  have initially : Chained sha256 Store.empty.history := .nil
  exact noneStranded_of_claimable claimable (chained_run initially calls)
    collisionFree

end Operations

/-! ### A worker loses its authority -/

theorem keepsClaimable_of_bare (store : Store) (call : Call)
    (keeps : KeepsClaimable store.bare call) : KeepsClaimable store call := by
  cases call <;> exact ⟨keeps.window, keeps.attempt⟩

theorem keepsClaimable_of_plain {store : Store} {call : Call}
    (plain : ∀ window' ∈ window store call,
      PlainYear window'.1.ms ∧ PlainYear window'.2.ms)
    (attempt : KeepsAttempt store call) : KeepsClaimable store call where
  window window' given :=
    inTextOrder_of_plain (plain window' given).1 (plain window' given).2
  attempt := attempt

/-- The provider rejects the credentials. -/
def rejected (attemptsRemaining : Int) : FailureDecision where
  schemaVersion := 1
  action := .awaitAuthority
  failureKind := "authentication"
  retryable := false
  reason := "authority_change_required"
  nextAttemptAt := none
  attemptsRemaining := attemptsRemaining
  circuitState := .opened
  circuit := {
    state := .opened
    openedAt := some "2026-01-01T00:01:30.000Z"
    cooldownMs := 30000
    consecutiveFailures := 1 }
  standing := .degradedBlocked

/-- The first attempt is rejected, and an operator renews the authority. -/
def renewedAuthority (retryBudget : Int) : List Call :=
  [enqueueDelivery retryBudget,
    claimDelivery "first" "2026-01-01T00:01:00.000Z" 60000,
    .fail {
      scope := delivery
      claimOwner := "first"
      claimGeneration := 1 } (rejected (retryBudget - 1))
      "2026-01-01T00:01:30.000Z",
    .reactivateAuthority delivery {
      previousAuthorityVersion := "v1"
      nextAuthorityVersion := "v2"
      now := "2026-01-01T00:10:00.000Z" }]

theorem queued_not_stranded_renewedAuthority :
    NoneStranded id (Run.run (step id) Store.empty (renewedAuthority 3)) := by
  apply queued_not_stranded id Function.injective_id
  apply along_bare keepsClaimable_of_bare .nil Function.injective_id
  refine ⟨?_, ?_, ?_, ?_, trivial⟩
  · apply keepsClaimable_of_plain
    · decide
    · exact True.intro
  · apply keepsClaimable_of_plain
    · decide
    · exact True.intro
  · apply keepsClaimable_of_plain
    · decide
    · exact True.intro
  · apply keepsClaimable_of_plain
    · decide
    · show ∀ row ∈ _, _
      decide

theorem stranded_of_bare {sha256 : String → String}
    (collisionFree : Function.Injective sha256) {calls : List Call} {key : Key}
    (stuck : ∃ row ∈ (Run.run (bareStep sha256) Store.empty.bare
      calls).operations.get? key,
      row.status = .queued ∧ ¬ row.attemptsConsumed < row.retryBudget) :
    ¬ NoneStranded sha256 (Run.run (step sha256) Store.empty calls) := by
  intro noneStranded
  rcases stuck with ⟨row, found, queued, spent⟩
  have initially : Chained sha256 Store.empty.history := .nil
  rw [← run_bare initially collisionFree] at found
  exact spent (noneStranded key row found queued).1

/-- The only attempt of the budget was the rejected one. -/
theorem renewedAuthority_stranded :
    ¬ NoneStranded id
      (Run.run (step id) Store.empty (renewedAuthority 1)) := by
  have stuck : ∃ row ∈ (Run.run (bareStep id) Store.empty.bare
      (renewedAuthority 1)).operations.get? delivery.key,
      row.status = .queued ∧ ¬ row.attemptsConsumed < row.retryBudget := by
    decide
  exact stranded_of_bare Function.injective_id stuck

end Mendpoint.Outage
