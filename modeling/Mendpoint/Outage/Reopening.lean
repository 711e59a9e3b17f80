import Mendpoint.Outage.Fencing
import Mendpoint.Outage.Trail

/-!
# Adoptive deliveries come to their effect

What a run of an adoptive operation does up to its effect is a function of the
row which it finds.  From it follows when the effect is invoked within two
runs.
-/

namespace Mendpoint.Outage

open Mendpoint.Library
open Mendpoint.Library.Attempt
open Mendpoint.Library.IsoTime
open Mendpoint.Library.Run

/-! ## What a run does with a row -/

namespace OutageRow

/-- The row which a run finds, reopened where it has failed for a reason. -/
def admitted (row : OutageRow) (now expires : Instant) : OutageRow :=
  match row.autoReopens with
  | some _ => row.reopen now now expires
  | none => row

/-- A status in which a row waits for a claim or is under one. -/
def unsettled (row : OutageRow) : Prop :=
  row.status = .queued ∨ row.status = .claimed ∨ row.status = .blocked

instance (row : OutageRow) : Decidable row.unsettled :=
  inferInstanceAs (Decidable (_ ∨ _))

/-- Why a row cannot be brought under another authority. -/
def notReactivated (row : OutageRow) (now : Instant) : Option String :=
  if row.status = .claimed then
    some "dependency_outage_authority_mismatch"
  else if row.expiresAt.textLe now = true then
    some "dependency_outage_expired"
  else if row.status = .blocked ∧
      row.lastFailureReason ≠ some "authority_change_required" then
    some "dependency_outage_reconciliation_required"
  else none

/-- The row under the authority of a run. -/
def adopted (row : OutageRow) (authorityVersion : String) (now : Instant) :
    Except String OutageRow :=
  if row.unsettled then
    match row.authorityVersion with
    | none => .error "dependency_outage_authority_missing"
    | some previous =>
      if previous = authorityVersion then .ok row
      else
        match row.notReactivated now with
        | some failure => .error failure
        | none => .ok (row.reactivate authorityVersion now)
  else .ok row

/-- What becomes of a row whose claim is not granted. -/
def refused (row : OutageRow) (now : Instant) : Option OutageRow :=
  if row.status = .queued ∧ row.expiresAt.textLe now = true then
    some (row.expire now)
  else if row.retryEligible now = false ∧ row.reconciling = false ∧
      row.expiredRecovery now = false then
    some row
  else none

/-- The row which a run leaves behind where it does not come to its effect. -/
def outset (row : OutageRow) (authorityVersion : String)
    (now expires : Instant) : Except String (Option OutageRow) := do
  let adopted ← (row.admitted now expires).adopted authorityVersion now
  return adopted.refused now

/-- A row with a budget, whose authority is an identity. -/
structure Sound (row : OutageRow) : Prop where
  budget : 1 ≤ row.retryBudget
  identity : ∀ version ∈ row.authorityVersion, isIdentity version = true

theorem autoReopens_eq_some {row : OutageRow} {reason : ReopenReason}
    (reopens : row.autoReopens = some reason) :
    row.status = .failed ∧ row.lastFailureReason = some reason.text ∧
      reason ≠ .operatorRetry := by
  rw [autoReopens] at reopens
  split at reopens
  · next failed =>
      refine ⟨failed, ?_⟩
      split at reopens
      · next expired =>
          cases reopens
          exact ⟨expired, nofun⟩
      · split at reopens
        · next exhausted =>
            cases reopens
            exact ⟨exhausted, nofun⟩
        · cases reopens
  · cases reopens

theorem Sound.admitted {row : OutageRow} (sound : row.Sound)
    (now expires : Instant) : (row.admitted now expires).Sound := by
  rw [OutageRow.admitted]
  split
  · exact ⟨sound.budget, sound.identity⟩
  · exact sound

end OutageRow

/-! ## Sound rows -/

def Store.Sound (store : Store) : Prop :=
  ∀ key row, store.operations.get? key = some row → row.Sound

theorem sound_empty : Store.empty.Sound := by
  intro key row impossible
  cases impossible

theorem Change.sound {store : Store} {call : Call} {scope : Scope}
    {row : OutageRow} (change : Change store call scope row)
    (sound : store.Sound) : row.Sound := by
  cases change with
  | enqueued _ new => exact ⟨new.budget, new.identity⟩
  | expired found _ =>
    have before := sound _ _ found
    exact ⟨before.budget, before.identity⟩
  | leased found leased =>
    have before := sound _ _ found
    rcases leased.leased with ⟨_, _, rfl⟩
    exact ⟨before.budget, before.identity⟩
  | completed held' =>
    have before := sound _ _ held'.found
    exact ⟨before.budget, before.identity⟩
  | failed held' failure =>
    have before := sound _ _ held'.found
    rcases failure.checked with ⟨_, _, _, rfl⟩
    exact ⟨before.budget, before.identity⟩
  | reactivated found reactivated =>
    have before := sound _ _ found
    refine ⟨before.budget, ?_⟩
    intro version same
    cases same
    exact reactivated.identity
  | reopened found _ _ _ =>
    have before := sound _ _ found
    exact ⟨before.budget, before.identity⟩

section Operations

variable {sha256 : String → String}

theorem Store.Sound.of_writes {store after : Store} {scope : Scope}
    {written : OutageRow} (sound : store.Sound) (isSound : written.Sound)
    (writes : Writes sha256 store after scope written) : after.Sound := by
  intro key row found
  rw [writes.operations] at found
  by_cases atKey : scope.key = key
  · subst atKey
    rw [OrderedMap.get?_set_self] at found
    cases found
    exact isSound
  · rw [OrderedMap.get?_set_of_ne _ _ atKey] at found
    exact sound key row found

theorem Store.Sound.actStep {store : Store} (sound : store.Sound)
    (act : Act) : (actStep sha256 store act).Sound := by
  cases act with
  | call call =>
    rcases @step_cases sha256 store call with
      same | ⟨scope, row, change, writes⟩
    · show (step sha256 store call).Sound
      rw [same]
      exact sound
    · exact sound.of_writes (change.sound sound) writes
  | settle scope completionDigest observedAt =>
    rw [Outage.actStep]
    cases result : settleFencedCompletion sha256 scope completionDigest
        observedAt store with
    | error code => exact sound
    | ok pair =>
      rcases settleFencedCompletion_cases result with
        same | ⟨current, found, _, writes⟩
      · show Store.Sound pair.1
        rw [same]
        exact sound
      · have before := sound _ _ found
        have isSound :
            (current.settle completionDigest observedAt).Sound :=
          ⟨before.budget, before.identity⟩
        exact sound.of_writes isSound writes

theorem Chained.actStep {store : Store}
    (chained : Chained sha256 store.history) (act : Act) :
    Chained sha256 (actStep sha256 store act).history := by
  rcases @actStep_cases sha256 store act with same | ⟨scope, row, writes⟩
  · rw [same]
    exact chained
  · exact writes.chained chained

/-! ## A row which is there -/

/-- A store with a row of an operation, and a chained history. -/
structure Holds (sha256 : String → String) (store : Store) (scope : Scope)
    (row : OutageRow) : Prop where
  found : store.row scope = some row
  digest : row.scope.operationDigest = scope.operationDigest
  chained : Chained sha256 store.history

section Held

variable {store : Store} {scope : Scope} {row : OutageRow}
  (holds : Holds sha256 store scope row)

include holds

theorem Holds.write (collisionFree : Function.Injective sha256)
    {next : OutageRow} (sameScope : next.scope = row.scope)
    (kind : EventKind) (observedAt : Instant) (details : Written) :
    ∃ after, append sha256 scope kind observedAt details
        (store.write scope next) = .ok after ∧
      Holds sha256 after scope next := by
  have kept : Chained sha256 (store.write scope next).history :=
    holds.chained
  refine ⟨_, kept.append collisionFree scope kind observedAt details, ?_⟩
  refine ⟨Store.row_write_self store scope next, ?_, ?_⟩
  · rw [sameScope]
    exact holds.digest
  · exact .snoc kept scope kind observedAt details
      (kept.fresh collisionFree scope kind observedAt details)

theorem Holds.readOperation (valid : validateScope scope = .ok ()) :
    readOperation scope store = .ok (some row) := by
  rw [Outage.readOperation, Fallible.bind_eq_ok]
  refine ⟨(), valid, ?_⟩
  rw [holds.found]
  exact Fallible.bind_eq_ok.mpr ⟨(), check_eq_ok.mpr holds.digest, rfl⟩

theorem Holds.reopen (collisionFree : Function.Injective sha256)
    (valid : validateScope scope = .ok ()) {reason : ReopenReason}
    (reopens : row.autoReopens = some reason) {expiresAt : String}
    {now expires : Instant}
    (parsed : Instant.parse? expiresAt = some expires)
    (later : now.ms < expires.ms) :
    ∃ after, reopen sha256 scope {
        reason := reason
        expiresAt := expiresAt
        nextAttemptAt := some now.text
        now := now.text } store =
          .ok (after, .reopened (row.reopen now now expires)) ∧
      Holds sha256 after scope (row.reopen now now expires) := by
  rcases OutageRow.autoReopens_eq_some reopens with
    ⟨failed, isReason, notOperator⟩
  rcases holds.write collisionFree
    (show (row.reopen now now expires).scope = row.scope from rfl) .reopened
    now (.obj [
      ("previousReason", optionalText row.lastFailureReason),
      ("reopenReason", .str reason.text),
      ("reopenCount", .int (reopenings store.history scope.key + 1))]) with
    ⟨after, appended, kept⟩
  refine ⟨after, ?_, kept⟩
  rw [Outage.reopen, Fallible.bind_eq_ok]
  refine ⟨(), valid, ?_⟩
  rw [Fallible.bind_eq_ok]
  refine ⟨now, iso_eq_ok.mpr now.parse?_text, ?_⟩
  rw [Fallible.bind_eq_ok]
  refine ⟨expires, iso_eq_ok.mpr parsed, ?_⟩
  rw [Fallible.bind_eq_ok]
  refine ⟨now, iso_eq_ok.mpr now.parse?_text, ?_⟩
  rw [Fallible.bind_eq_ok]
  refine ⟨(), check_eq_ok.mpr later, ?_⟩
  rw [holds.found]
  refine Fallible.bind_eq_ok.mpr ⟨(), check_eq_ok.mpr holds.digest, ?_⟩
  have notPermanent : row.lastFailureReason ≠ some "permanent_failure" := by
    rw [isReason]
    cases reason with
    | operationExpired => exact fun same => absurd same (by decide)
    | retryBudgetExhausted => exact fun same => absurd same (by decide)
    | operatorRetry => exact absurd rfl notOperator
  rw [reopenRow, if_neg (not_not.mpr failed), if_neg notPermanent,
    if_neg fun differs => differs.2 isReason]
  exact Fallible.bind_eq_ok.mpr ⟨after, appended, rfl⟩

theorem Holds.enqueue {input : EnqueueInput} {now expires : Instant}
    (isScope : input.scope = scope)
    (valid : validateScope scope = .ok ())
    (budget : isSafeInteger input.retryBudget ∧ 1 ≤ input.retryBudget)
    (next : input.nextAttemptAt = now.text)
    (parsed : Instant.parse? input.expiresAt = some expires)
    (identity : ∀ version ∈ input.authorityVersion,
      isIdentity version = true)
    (circuit : input.circuitState = none ∧ input.circuitOpenedAt = none ∧
      input.circuitCooldownMs = none ∧ input.consecutiveFailures = none) :
    enqueue sha256 input now.text store = .ok (store, row) := by
  subst isScope
  rw [Outage.enqueue, Fallible.bind_eq_ok]
  refine ⟨(), valid, ?_⟩
  rw [Fallible.bind_eq_ok]
  refine ⟨(), positiveInteger_eq_ok.mpr budget, ?_⟩
  rw [Fallible.bind_eq_ok]
  refine ⟨now, iso_eq_ok.mpr now.parse?_text, ?_⟩
  rw [Fallible.bind_eq_ok]
  refine ⟨now, iso_eq_ok.mpr (next ▸ now.parse?_text), ?_⟩
  rw [Fallible.bind_eq_ok]
  refine ⟨expires, iso_eq_ok.mpr parsed, ?_⟩
  rw [Fallible.bind_eq_ok]
  refine ⟨(), check_eq_ok.mpr identity, ?_⟩
  rcases circuit with ⟨state, openedAt, cooldown, failures⟩
  rw [state, openedAt, cooldown, failures, Fallible.bind_eq_ok]
  refine ⟨none, ?_, ?_⟩
  · rw [validateCircuit, Fallible.bind_eq_ok]
    refine ⟨(), check_eq_ok.mpr ?_, rfl⟩
    decide
  · rw [holds.found]
    exact if_neg (not_not.mpr holds.digest)

variable {previous next : String} {now : Instant}

theorem Holds.reactivateAuthority_eq (valid : validateScope scope = .ok ())
    (identity : isIdentity previous = true ∧ isIdentity next = true)
    (differs : previous ≠ next) :
    reactivateAuthority sha256 scope {
        previousAuthorityVersion := previous
        nextAuthorityVersion := next
        now := now.text } store =
      (do
        check ((row.status = .blocked ∨ row.status = .queued) ∧
            row.authorityVersion = some previous)
          "dependency_outage_authority_mismatch"
        check (row.expiresAt.textLe now = false) "dependency_outage_expired"
        check (row.status = .blocked → row.lastFailureReason =
            some "authority_change_required")
          "dependency_outage_reconciliation_required"
        let after ← append sha256 scope .authorityReactivated now
          (.obj [
            ("previousAuthorityVersion", .str previous),
            ("nextAuthorityVersion", .str next)])
          (store.write scope (row.reactivate next now))
        return (after, row.reactivate next now)) := by
  have identities : check (isIdentity previous = true ∧
      isIdentity next = true) "dependency_outage_authority_invalid" =
    .ok () := check_eq_ok.mpr identity
  have changes : check (previous ≠ next)
      "dependency_outage_authority_unchanged" = .ok () :=
    check_eq_ok.mpr differs
  have parsed : iso now.text "dependency_outage_timestamp_invalid" =
    .ok now := iso_eq_ok.mpr now.parse?_text
  have digest : check (row.scope.operationDigest = scope.operationDigest)
      "dependency_outage_operation_missing" = .ok () :=
    check_eq_ok.mpr holds.digest
  rw [reactivateAuthority, valid, Fallible.ok_bind, identities,
    Fallible.ok_bind, changes, Fallible.ok_bind, parsed, Fallible.ok_bind,
    holds.found]
  simp only
  rw [digest, Fallible.ok_bind]

theorem Holds.notReactivated (valid : validateScope scope = .ok ())
    {failure : String} (unsettled : row.unsettled)
    (authority : row.authorityVersion = some previous)
    (identity : isIdentity previous = true ∧ isIdentity next = true)
    (differs : previous ≠ next)
    (fails : row.notReactivated now = some failure) :
    reactivateAuthority sha256 scope {
      previousAuthorityVersion := previous
      nextAuthorityVersion := next
      now := now.text } store = .error failure := by
  rw [holds.reactivateAuthority_eq valid identity differs]
  rw [OutageRow.notReactivated] at fails
  split at fails
  · next claimed =>
      cases fails
      rw [check_of_not, Fallible.error_bind]
      rw [claimed]
      exact fun waiting => waiting.1.elim nofun nofun
  · next notClaimed =>
      have waiting : row.status = .blocked ∨ row.status = .queued := by
        rcases unsettled with queued | claimed | blocked
        · exact .inr queued
        · exact absurd claimed notClaimed
        · exact .inl blocked
      have waits : check ((row.status = .blocked ∨ row.status = .queued) ∧
          row.authorityVersion = some previous)
        "dependency_outage_authority_mismatch" = .ok () :=
          check_eq_ok.mpr ⟨waiting, authority⟩
      rw [waits, Fallible.ok_bind]
      split at fails
      · next expired =>
          cases fails
          rw [check_of_not, Fallible.error_bind]
          rw [expired]
          exact nofun
      · next notExpired =>
          have inWindow : check (row.expiresAt.textLe now = false)
            "dependency_outage_expired" = .ok () :=
              check_eq_ok.mpr (Bool.eq_false_iff.mpr notExpired)
          rw [inWindow, Fallible.ok_bind]
          split at fails
          · next reconciles =>
              cases fails
              rw [check_of_not, Fallible.error_bind]
              exact fun kept => reconciles.2 (kept reconciles.1)
          · cases fails

theorem Holds.reactivate (collisionFree : Function.Injective sha256)
    (valid : validateScope scope = .ok ()) (unsettled : row.unsettled)
    (authority : row.authorityVersion = some previous)
    (identity : isIdentity previous = true ∧ isIdentity next = true)
    (differs : previous ≠ next) (succeeds : row.notReactivated now = none) :
    ∃ after, reactivateAuthority sha256 scope {
        previousAuthorityVersion := previous
        nextAuthorityVersion := next
        now := now.text } store = .ok (after, row.reactivate next now) ∧
      Holds sha256 after scope (row.reactivate next now) := by
  rcases holds.write collisionFree
    (show (row.reactivate next now).scope = row.scope from rfl)
    .authorityReactivated now (.obj [
      ("previousAuthorityVersion", .str previous),
      ("nextAuthorityVersion", .str next)]) with ⟨after, appended, kept⟩
  refine ⟨after, ?_, kept⟩
  rw [holds.reactivateAuthority_eq valid identity differs]
  rw [OutageRow.notReactivated] at succeeds
  split at succeeds
  · cases succeeds
  · next notClaimed =>
      split at succeeds
      · cases succeeds
      · next notExpired =>
          split at succeeds
          · cases succeeds
          · next reason =>
              have waiting : row.status = .blocked ∨
                  row.status = .queued := by
                rcases unsettled with queued | claimed | blocked
                · exact .inr queued
                · exact absurd claimed notClaimed
                · exact .inl blocked
              rw [Fallible.bind_eq_ok]
              refine ⟨(), check_eq_ok.mpr ⟨waiting, authority⟩, ?_⟩
              rw [Fallible.bind_eq_ok]
              refine ⟨(), check_eq_ok.mpr
                (Bool.eq_false_iff.mpr notExpired), ?_⟩
              rw [Fallible.bind_eq_ok]
              refine ⟨(), check_eq_ok.mpr fun blocked =>
                not_not.mp fun other => reason ⟨blocked, other⟩, ?_⟩
              exact Fallible.bind_eq_ok.mpr ⟨after, appended, rfl⟩

theorem Holds.claim_eq (valid : validateScope scope = .ok ())
    {input : ClaimInput} (isScope : input.scope = scope)
    (time : input.now = now.text) (worker : isIdentity input.workerId = true)
    (lease : isSafeInteger input.leaseMs ∧ 1 ≤ input.leaseMs)
    (authority : checkAuthority row now input.authorityVersion = .ok ()) :
    claim sha256 input store = claimRow sha256 input now row store := by
  subst isScope
  have isWorker : check (isIdentity input.workerId = true)
    "dependency_outage_worker_invalid" = .ok () := check_eq_ok.mpr worker
  have parsed : iso input.now "dependency_outage_timestamp_invalid" =
    .ok now := iso_eq_ok.mpr (time ▸ now.parse?_text)
  have positive : positiveInteger input.leaseMs
    "dependency_outage_lease_invalid" = .ok () :=
      positiveInteger_eq_ok.mpr lease
  have digest : check (row.scope.operationDigest =
      input.scope.operationDigest)
    "dependency_outage_operation_digest_conflict" = .ok () :=
      check_eq_ok.mpr holds.digest
  rw [claim, valid, Fallible.ok_bind, isWorker, Fallible.ok_bind, parsed,
    Fallible.ok_bind, positive, Fallible.ok_bind, holds.found]
  simp only
  rw [digest, Fallible.ok_bind, authority, Fallible.ok_bind]

theorem Holds.refused (collisionFree : Function.Injective sha256)
    {input : ClaimInput} (isScope : input.scope = scope) {now : Instant}
    {next : OutageRow} (refused : row.refused now = some next) :
    ∃ after, claimRow sha256 input now row store = .ok (after, none) ∧
      Holds sha256 after scope next := by
  subst isScope
  rw [OutageRow.refused] at refused
  rw [claimRow]
  split at refused
  · next expired =>
      cases refused
      rcases holds.write collisionFree
        (show (row.expire now).scope = row.scope from rfl) .failed now
        (.obj [
          ("failureKind", .str "expired"),
          ("reason", .str "operation_expired"),
          ("expiresAt", .str row.expiresAt.text)]) with
        ⟨after, appended, kept⟩
      refine ⟨after, ?_, kept⟩
      rw [if_pos expired, appended]
      rfl
  · next notExpired =>
      rw [if_neg notExpired]
      split at refused
      · next ineligible =>
          cases refused
          rw [if_pos ineligible]
          exact ⟨store, rfl, holds⟩
      · cases refused

theorem Holds.granted (collisionFree : Function.Injective sha256)
    {input : ClaimInput} (isScope : input.scope = scope) {now : Instant}
    (ends : (Instant.ofMs? (now.ms + input.leaseMs)).isSome = true)
    (granted : row.refused now = none) :
    ∃ after record,
      claimRow sha256 input now row store = .ok (after, some record) := by
  subst isScope
  rw [OutageRow.refused] at granted
  rw [claimRow]
  split at granted
  · cases granted
  · next notExpired =>
      rw [if_neg notExpired]
      split at granted
      · cases granted
      · next eligible =>
          rw [if_neg eligible]
          rcases Option.isSome_iff_exists.mp ends with
            ⟨claimExpiresAt, inRange⟩
          rw [inRange]
          have sameScope : (row.lease input.workerId now
            claimExpiresAt).scope = row.scope := rfl
          rcases holds.write collisionFree sameScope
            (if row.reconciling then .reconciliationClaimed
              else if row.recovering now then .claimRecovered
              else .claimed) now (.obj [
              ("workerId", .str input.workerId),
              ("claimGeneration", .int (row.lease input.workerId now
                claimExpiresAt).claimGeneration),
              ("leaseExpiresAt", .str claimExpiresAt.text),
              ("reconciliationOnly",
                .bool (row.reconciling || row.expiredRecovery now)),
              ("expired", .bool (row.expiresAt.textLe now))]) with
            ⟨after, appended, _⟩
          exact ⟨after, _, Fallible.bind_eq_ok.mpr ⟨after, appended, rfl⟩⟩

end Held

/-! ## The start of a run -/

/-- A call of a run whose fields pass their checks, at a time. -/
structure CallAt (operation : AdoptiveOperation) (now expires : Instant) :
    Prop where
  scope : validateScope operation.scope = .ok ()
  worker : isIdentity operation.workerId = true
  budget : isSafeInteger operation.retryBudget ∧ 1 ≤ operation.retryBudget
  lease : isSafeInteger operation.leaseMs ∧ 1 ≤ operation.leaseMs
  ends : (Instant.ofMs? (now.ms + operation.leaseMs)).isSome = true
  authority : isIdentity operation.authorityVersion = true
  parsed : Instant.parse? operation.expiresAt = some expires
  later : now.ms < expires.ms

theorem yields_transact {α : Type} {call : Store → Except String (Store × α)}
    {store after : Store} {executions : Nat} {value : α}
    (answered : call store = .ok (after, value)) :
    Yields (transact call) ⟨store, executions⟩ value ⟨after, executions⟩ := by
  rw [transact, yields_get_bind]
  refine yields_lift_bind.mpr ⟨(after, value), answered, ?_⟩
  exact yields_bind.mpr ⟨⟨⟩, _, yields_modify.mpr rfl, rfl⟩

theorem fails_lift_bind {α β : Type} {answer : Except String α}
    {next : α → SessionM β} {session : Session} {failure : String}
    (failed : answer = .error failure) :
    Fails (liftM answer >>= next) session failure session := by
  rw [failed, fails_bind]
  exact .inl rfl

theorem fails_transact {α : Type} {call : Store → Except String (Store × α)}
    {session : Session} {failure : String}
    (failed : call session.store = .error failure) :
    Fails (transact call) session failure session := by
  rw [transact, fails_bind]
  exact .inr ⟨session, session, rfl, fails_lift_bind failed⟩

section Start

variable {operation : AdoptiveOperation} {store : Store} {row : OutageRow}
  {now expires : Instant} {executions : Nat}

theorem Holds.enqueueOrReopenAdoptive
    (collisionFree : Function.Injective sha256)
    (callAt : CallAt operation now expires)
    (holds : Holds sha256 store operation.scope row) :
    ∃ after, Yields (enqueueOrReopenAdoptive sha256 operation now)
        ⟨store, executions⟩ () ⟨after, executions⟩ ∧
      Holds sha256 after operation.scope (row.admitted now expires) := by
  have read := holds.readOperation callAt.scope
  rw [Outage.enqueueOrReopenAdoptive, OutageRow.admitted]
  cases reopens : row.autoReopens with
  | none =>
    refine ⟨store, ?_, holds⟩
    rw [yields_get_bind]
    refine yields_lift_bind.mpr ⟨some row, read, ?_⟩
    rw [Option.bind_some, reopens]
    have identity : ∀ version ∈ some operation.authorityVersion,
        isIdentity version = true := by
      intro version same
      cases same
      exact callAt.authority
    have known : Outage.enqueue sha256 (operation.enqueueInput now) now.text
        store = .ok (store, row) :=
      holds.enqueue rfl callAt.scope callAt.budget rfl callAt.parsed
        identity ⟨rfl, rfl, rfl, rfl⟩
    exact yields_bind.mpr ⟨row, _, yields_transact known, rfl⟩
  | some reason =>
    rcases holds.reopen collisionFree callAt.scope reopens callAt.parsed
      callAt.later with ⟨after, reopened, kept⟩
    refine ⟨after, ?_, kept⟩
    rw [yields_get_bind]
    refine yields_lift_bind.mpr ⟨some row, read, ?_⟩
    rw [Option.bind_some, reopens]
    exact yields_bind.mpr ⟨_, _, yields_transact reopened, rfl⟩

theorem checkAuthority_adopted {next : OutageRow} {authorityVersion : String}
    (identity : isIdentity authorityVersion = true)
    (adopted : row.adopted authorityVersion now = .ok next) :
    checkAuthority next now authorityVersion = .ok () := by
  rw [checkAuthority]
  split
  · next waits =>
      have unsettled : next.unsettled := by
        rcases waits with queued | recovering | reconciling
        · exact .inl queued
        · exact .inr (.inl (recovering_claimed recovering).1)
        · rw [OutageRow.reconciling, decide_eq_true_eq] at reconciling
          exact .inr (.inr reconciling.1)
      have authority : next.authorityVersion = some authorityVersion := by
        rw [OutageRow.adopted] at adopted
        split at adopted
        · cases version : row.authorityVersion with
          | none =>
            rw [version] at adopted
            cases adopted
          | some previous =>
            rw [version] at adopted
            simp only at adopted
            split at adopted
            · next same =>
                cases adopted
                rw [version, same]
            · split at adopted
              · cases adopted
              · cases adopted
                rfl
        · next settled =>
            cases adopted
            exact absurd unsettled settled
      rw [Fallible.bind_eq_ok]
      refine ⟨(), check_eq_ok.mpr identity, ?_⟩
      rw [Fallible.bind_eq_ok]
      refine ⟨(), check_eq_ok.mpr ?_, check_eq_ok.mpr authority⟩
      rw [authority]
      exact Option.some_ne_none _
  · rfl

theorem Holds.adoptAuthority (collisionFree : Function.Injective sha256)
    (callAt : CallAt operation now expires) (sound : row.Sound)
    (holds : Holds sha256 store operation.scope row) {next : OutageRow}
    (adopted : row.adopted operation.authorityVersion now = .ok next) :
    ∃ after, Yields (adoptAuthority sha256 operation now row)
        ⟨store, executions⟩ () ⟨after, executions⟩ ∧
      Holds sha256 after operation.scope next := by
  rw [Outage.adoptAuthority]
  rw [OutageRow.adopted] at adopted
  split at adopted
  · next unsettled =>
      rw [if_pos (show row.status = .queued ∨ row.status = .claimed ∨
        row.status = .blocked from unsettled)]
      cases version : row.authorityVersion with
      | none =>
        rw [version] at adopted
        cases adopted
      | some previous =>
        rw [version] at adopted
        simp only at adopted
        split at adopted
        · next same =>
            cases adopted
            refine ⟨store, ?_, holds⟩
            refine yields_lift_bind.mpr ⟨previous, rfl, ?_⟩
            rw [if_neg (not_not.mpr same)]
            rfl
        · next differs =>
            split at adopted
            · cases adopted
            · next succeeds =>
                cases adopted
                have identity := sound.identity previous version
                rcases holds.reactivate collisionFree callAt.scope
                  unsettled version ⟨identity, callAt.authority⟩ differs
                  succeeds with ⟨after, reactivated, kept⟩
                refine ⟨after, ?_, kept⟩
                refine yields_lift_bind.mpr ⟨previous, rfl, ?_⟩
                rw [if_pos differs]
                exact yields_bind.mpr
                  ⟨_, _, yields_transact reactivated, rfl⟩
  · next settled =>
      cases adopted
      refine ⟨store, ?_, holds⟩
      rw [if_neg (show ¬ (row.status = .queued ∨ row.status = .claimed ∨
        row.status = .blocked) from settled)]
      rfl

theorem Holds.adoptAuthority_fails
    (callAt : CallAt operation now expires) (sound : row.Sound)
    (holds : Holds sha256 store operation.scope row) {failure : String}
    (adopted : row.adopted operation.authorityVersion now =
      .error failure) :
    Fails (Outage.adoptAuthority sha256 operation now row)
      ⟨store, executions⟩ failure ⟨store, executions⟩ := by
  rw [Outage.adoptAuthority]
  rw [OutageRow.adopted] at adopted
  split at adopted
  · next unsettled =>
      rw [if_pos (show row.status = .queued ∨ row.status = .claimed ∨
        row.status = .blocked from unsettled)]
      cases version : row.authorityVersion with
      | none =>
        rw [version] at adopted
        cases adopted
        exact fails_lift_bind rfl
      | some previous =>
        rw [version] at adopted
        simp only at adopted
        split at adopted
        · cases adopted
        · next differs =>
            split at adopted
            · next fails =>
                cases adopted
                have identity := sound.identity previous version
                have failed := holds.notReactivated callAt.scope unsettled
                  version ⟨identity, callAt.authority⟩ differs fails
                rw [fails_bind]
                refine .inr ⟨previous, _, yields_lift.mpr ⟨rfl, rfl⟩, ?_⟩
                rw [if_pos differs, fails_bind]
                exact .inl (fails_transact failed)
            · cases adopted
  · cases adopted

theorem Holds.start (collisionFree : Function.Injective sha256)
    (callAt : CallAt operation now expires) (sound : row.Sound)
    (holds : Holds sha256 store operation.scope row)
    {left : Option OutageRow} (outset : row.outset operation.authorityVersion
      now expires = .ok left) :
    ∃ claim after, Yields (startAdoptive sha256 operation now)
        ⟨store, executions⟩ claim ⟨after, executions⟩ ∧
      (left = none → claim ≠ none) ∧
      ∀ next, left = some next →
        claim = none ∧ Holds sha256 after operation.scope next := by
  rw [OutageRow.outset, Fallible.bind_eq_ok] at outset
  rcases outset with ⟨next, adopted, refused⟩
  have isLeft := Fallible.pure_eq_ok.mp refused
  rcases holds.enqueueOrReopenAdoptive collisionFree callAt with
    ⟨first, enqueued, holdsFirst⟩
  rcases holdsFirst.adoptAuthority collisionFree callAt
    (sound.admitted now expires) adopted with
    ⟨second, reactivated, holdsSecond⟩
  have authority := checkAuthority_adopted callAt.authority adopted
  have claims : claim sha256 (operation.claimInput now) second =
      claimRow sha256 (operation.claimInput now) now next second :=
    holdsSecond.claim_eq callAt.scope rfl rfl callAt.worker callAt.lease
      authority
  have continues : ∀ {claim : Option OutageRow} {after : Store},
      Outage.claim sha256 (operation.claimInput now) second =
        .ok (after, claim) →
      Yields (startAdoptive sha256 operation now) ⟨store, executions⟩ claim
        ⟨after, executions⟩ := by
    intro claim after claimed
    rw [startAdoptive]
    refine yields_bind.mpr ⟨(), ⟨first, executions⟩, enqueued, ?_⟩
    rw [yields_get_bind]
    refine yields_lift_bind.mpr
      ⟨_, holdsFirst.readOperation callAt.scope, ?_⟩
    refine yields_lift_bind.mpr
      ⟨row.admitted now expires, demand_eq_ok.mpr rfl, ?_⟩
    refine yields_bind.mpr ⟨(), ⟨second, executions⟩, reactivated, ?_⟩
    exact yields_transact claimed
  cases left with
  | none =>
    rcases @Holds.granted sha256 second operation.scope next holdsSecond
      collisionFree (operation.claimInput now) rfl now callAt.ends isLeft
      with ⟨after, record, granted⟩
    refine ⟨some record, after, continues (claims.trans granted), ?_, ?_⟩
    · exact fun _ => Option.some_ne_none record
    · intro next impossible
      cases impossible
  | some rested =>
    rcases @Holds.refused sha256 second operation.scope next holdsSecond
      collisionFree (operation.claimInput now) rfl now rested isLeft
      with ⟨after, refused, kept⟩
    refine ⟨none, after, continues (claims.trans refused), ?_, ?_⟩
    · intro impossible
      cases impossible
    intro next same
    cases same
    exact ⟨rfl, kept⟩

theorem Holds.start_fails (collisionFree : Function.Injective sha256)
    (callAt : CallAt operation now expires) (sound : row.Sound)
    (holds : Holds sha256 store operation.scope row) {failure : String}
    (outset : row.outset operation.authorityVersion now expires =
      .error failure) :
    ∃ after, Fails (startAdoptive sha256 operation now) ⟨store, executions⟩
      failure ⟨after, executions⟩ := by
  rcases holds.enqueueOrReopenAdoptive collisionFree callAt with
    ⟨first, enqueued, holdsFirst⟩
  have adopted : (row.admitted now expires).adopted
      operation.authorityVersion now = .error failure := by
    rw [OutageRow.outset] at outset
    cases result : (row.admitted now expires).adopted
        operation.authorityVersion now with
    | ok next =>
      rw [result] at outset
      cases outset
    | error other =>
      rw [result] at outset
      cases outset
      rfl
  refine ⟨first, ?_⟩
  rw [startAdoptive, fails_bind]
  refine .inr ⟨(), ⟨first, executions⟩, enqueued, ?_⟩
  rw [fails_bind]
  refine .inr ⟨_, _, rfl, ?_⟩
  rw [fails_bind]
  refine .inr ⟨_, _, yields_lift.mpr
    ⟨holdsFirst.readOperation callAt.scope, rfl⟩, ?_⟩
  rw [fails_bind]
  refine .inr ⟨row.admitted now expires, _,
    yields_lift.mpr ⟨demand_eq_ok.mpr rfl, rfl⟩, ?_⟩
  rw [fails_bind]
  exact .inl (holdsFirst.adoptAuthority_fails callAt
    (sound.admitted now expires) adopted)

end Start

end Operations

end Mendpoint.Outage
