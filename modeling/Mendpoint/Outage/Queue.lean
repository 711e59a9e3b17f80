import Mendpoint.Library.Fallible
import Mendpoint.Library.IsoTime
import Mendpoint.Library.JsonText
import Mendpoint.Library.OrderedMap

/-!
# The dependency outage queue

Operations which wait for a dependency, with leases for the workers which run
them, retry windows, and a hash-chained history.  Every call is a transaction:
where it throws, it changes nothing.  SHA-256 is a parameter.
-/

namespace Mendpoint.Outage

open Mendpoint.Library
open Mendpoint.Library.IsoTime

/-! ## Records -/

inductive DependencyKind where
  | model
  | scm
  | feed
  | registry
  | notification
  deriving DecidableEq

namespace DependencyKind

def text : DependencyKind → String
  | model => "model"
  | scm => "scm"
  | feed => "feed"
  | registry => "registry"
  | notification => "notification"

end DependencyKind

inductive Status where
  | queued
  | claimed
  | blocked
  | failed
  | completed
  deriving DecidableEq

namespace Status

def text : Status → String
  | queued => "queued"
  | claimed => "claimed"
  | blocked => "blocked"
  | failed => "failed"
  | completed => "completed"

end Status

inductive CircuitState where
  | closed
  | opened
  | halfOpen
  deriving DecidableEq

namespace CircuitState

def text : CircuitState → String
  | closed => "closed"
  | opened => "open"
  | halfOpen => "half_open"

end CircuitState

inductive Standing where
  | healthy
  | degradedRetrying
  | degradedBlocked
  | degradedFailed
  | recovering
  deriving DecidableEq

structure Scope where
  tenantId : String
  dependencyKind : DependencyKind
  providerId : String
  operationId : String
  operationDigest : String

/-- The primary key of an operation. -/
abbrev Key : Type := String × DependencyKind × String × String

namespace Scope

def key (scope : Scope) : Key :=
  (scope.tenantId, scope.dependencyKind, scope.providerId, scope.operationId)

end Scope

/-- What a caller says about a circuit; times are texts. -/
structure CircuitSnapshot where
  state : CircuitState
  openedAt : Option String
  cooldownMs : Int
  consecutiveFailures : Int

inductive Action where
  | retry
  | wait
  | awaitAuthority
  | fail
  | reconcile
  deriving DecidableEq

/-- What a policy decides after a failure. -/
structure FailureDecision where
  schemaVersion : Int
  action : Action
  failureKind : String
  retryable : Bool
  reason : String
  nextAttemptAt : Option String
  attemptsRemaining : Int
  circuitState : CircuitState
  circuit : CircuitSnapshot
  standing : Standing

/-- A row of the operations, and the record which is read from it. -/
structure OutageRow where
  scope : Scope
  status : Status
  standing : Standing
  circuitState : CircuitState
  circuitOpenedAt : Option Instant
  circuitCooldownMs : Int
  consecutiveFailures : Int
  retryBudget : Int
  attemptsConsumed : Int
  nextAttemptAt : Instant
  expiresAt : Instant
  authorityVersion : Option String
  claimOwner : Option String
  claimGeneration : Nat
  claimExpiresAt : Option Instant
  completionDigest : Option String
  lastFailureKind : Option String
  lastFailureReason : Option String
  createdAt : Instant
  updatedAt : Instant

/-- What a worker keeps of a claim and hands to `complete` and `fail`. -/
structure Claim where
  scope : Scope
  claimOwner : String
  claimGeneration : Nat

inductive EventKind where
  | enqueued
  | claimed
  | claimRecovered
  | retryScheduled
  | authorityBlocked
  | authorityReactivated
  | reconciliationRequired
  | reconciliationClaimed
  | failed
  | completed
  | reopened
  deriving DecidableEq

namespace EventKind

def text : EventKind → String
  | enqueued => "enqueued"
  | claimed => "claimed"
  | claimRecovered => "claim_recovered"
  | retryScheduled => "retry_scheduled"
  | authorityBlocked => "authority_blocked"
  | authorityReactivated => "authority_reactivated"
  | reconciliationRequired => "reconciliation_required"
  | reconciliationClaimed => "reconciliation_claimed"
  | failed => "failed"
  | completed => "completed"
  | reopened => "reopened"

end EventKind

structure HistoryRow where
  key : Key
  eventKind : EventKind
  observedAt : Instant
  details : Written
  previousHash : Option String
  eventHash : String

structure Store where
  operations : OrderedMap Key OutageRow
  history : List HistoryRow

/-! ## Checks -/

def check (holds : Prop) [Decidable holds] (code : String) :
    Except String Unit :=
  if holds then .ok () else .error code

def isAlphanumeric (char : Char) : Bool :=
  char.isAlpha || char.isDigit

/-- A first letter or digit, and then at most so many allowed characters. -/
def isName (allowed : List Char) (more : Nat) (text : String) : Bool :=
  match text.toList with
  | [] => false
  | first :: rest =>
    isAlphanumeric first &&
      rest.all (fun char => isAlphanumeric char || char ∈ allowed) &&
      decide (rest.length ≤ more)

/-- `IDENTITY` -/
def isIdentity (text : String) : Bool :=
  isName ['.', '_', ':', '-'] 199 text

/-- `OPERATION_ID` -/
def isOperationId (text : String) : Bool :=
  isName ['.', '_', ':', '/', '-'] 499 text

/-- `SHA256` -/
def isSha256 (text : String) : Bool :=
  decide (text.toList.length = 64) &&
    text.toList.all fun char => char.isDigit || ('a' ≤ char && char ≤ 'f')

def iso (value code : String) : Except String Instant :=
  match Instant.parse? value with
  | some instant => .ok instant
  | none => .error code

def isoOption (value : Option String) (code : String) :
    Except String (Option Instant) :=
  match value with
  | none => .ok none
  | some text => do
      let instant ← iso text code
      return some instant

def isSafeInteger (value : Int) : Prop :=
  value.natAbs ≤ 9007199254740991

instance (value : Int) : Decidable (isSafeInteger value) :=
  inferInstanceAs (Decidable (_ ≤ _))

def positiveInteger (value : Int) (code : String) : Except String Unit :=
  check (isSafeInteger value ∧ 1 ≤ value) code

def validateScope (scope : Scope) : Except String Unit := do
  check (isIdentity scope.tenantId = true) "dependency_outage_tenant_invalid"
  check (isIdentity scope.providerId = true)
    "dependency_outage_provider_invalid"
  check (isOperationId scope.operationId = true)
    "dependency_outage_operation_id_invalid"
  check (isSha256 scope.operationDigest = true)
    "dependency_outage_digest_invalid"

/-- Returns the instant at which the circuit was opened. -/
def validateCircuit (circuit : CircuitSnapshot) :
    Except String (Option Instant) := do
  check (isSafeInteger circuit.cooldownMs ∧ 1 ≤ circuit.cooldownMs ∧
      circuit.cooldownMs ≤ 24 * 60 * 60 * 1000 ∧
      isSafeInteger circuit.consecutiveFailures ∧
      0 ≤ circuit.consecutiveFailures ∧
      ¬ (circuit.state = .opened ∧ circuit.openedAt = none))
    "dependency_outage_circuit_invalid"
  isoOption circuit.openedAt "dependency_outage_circuit_invalid"

def failureKinds : List String :=
  ["timeout", "throttled", "transient", "invalid_response", "authentication",
    "permission", "permanent", "expired", "completed"]

def decisionFailureKinds : Action → List String
  | .retry => ["timeout", "throttled", "transient", "invalid_response"]
  | .wait => ["timeout", "throttled", "transient", "invalid_response"]
  | .awaitAuthority => ["authentication", "permission"]
  | .fail => ["timeout", "throttled", "transient", "invalid_response",
      "permanent", "expired"]
  | .reconcile => ["completed"]

def decisionReasons : Action → List String
  | .retry => ["half_open_probe", "provider_throttled",
      "provider_response_invalid", "provider_timeout", "transient_failure"]
  | .wait => ["circuit_open", "circuit_opened", "provider_throttled"]
  | .awaitAuthority => ["authority_change_required"]
  | .fail => ["operation_expired", "permanent_failure",
      "retry_budget_exhausted"]
  | .reconcile => ["completed_effect_requires_reconciliation"]

def standingValid : Action → Standing → Bool
  | .retry, standing =>
    decide (standing = .degradedRetrying ∨ standing = .recovering)
  | .wait, standing => decide (standing = .degradedRetrying)
  | .awaitAuthority, standing => decide (standing = .degradedBlocked)
  | .fail, standing => decide (standing = .degradedFailed)
  | .reconcile, standing => decide (standing = .recovering)

def circuitValid : Action → CircuitState → Bool
  | .retry, state => decide (state ≠ .opened)
  | .wait, state => decide (state = .opened)
  | .awaitAuthority, state => decide (state = .opened)
  | .fail, state => decide (state = .opened)
  | .reconcile, _ => true

/-- Returns the instants of the circuit and of the next attempt. -/
def validateFailureDecision (decision : FailureDecision) :
    Except String (Option Instant × Option Instant) := do
  check (decision.schemaVersion = 1 ∧ decision.failureKind ∈ failureKinds ∧
      isSafeInteger decision.attemptsRemaining ∧
      0 ≤ decision.attemptsRemaining ∧ isIdentity decision.reason = true)
    "dependency_outage_decision_invalid"
  let openedAt ← validateCircuit decision.circuit
  check (decision.circuitState = decision.circuit.state)
    "dependency_outage_circuit_decision_mismatch"
  let nextAttemptAt ← isoOption decision.nextAttemptAt
    "dependency_outage_next_attempt_invalid"
  let schedulesRetry :=
    decide (decision.action = .retry ∨ decision.action = .wait)
  check (schedulesRetry = decision.retryable ∧
      schedulesRetry = decision.nextAttemptAt.isSome)
    "dependency_outage_decision_invalid"
  check (decision.failureKind ∈ decisionFailureKinds decision.action ∧
      decision.reason ∈ decisionReasons decision.action)
    "dependency_outage_decision_invalid"
  check (standingValid decision.action decision.standing = true ∧
      circuitValid decision.action decision.circuitState = true)
    "dependency_outage_decision_invalid"
  return (openedAt, nextAttemptAt)

/-! ## The store -/

namespace Store

def empty : Store where
  operations := OrderedMap.empty
  history := []

def row (store : Store) (scope : Scope) : Option OutageRow :=
  store.operations.get? scope.key

/-- `INSERT` of a new row, or `UPDATE` of the row of a key. -/
def write (store : Store) (scope : Scope) (row : OutageRow) : Store :=
  { store with operations := store.operations.set scope.key row }

end Store

def optionalText : Option String → Written
  | none => .null
  | some text => .str text

/-- Details of an event about a circuit. -/
def circuitDetails (circuit : CircuitSnapshot) : Written :=
  .obj ([("state", .str circuit.state.text)] ++
    (match circuit.openedAt with
      | none => []
      | some openedAt => [("openedAt", .str openedAt)]) ++
    [("cooldownMs", .int circuit.cooldownMs),
      ("consecutiveFailures", .int circuit.consecutiveFailures)])

/-- What is hashed for an event. -/
def eventContent (scope : Scope) (kind : EventKind) (observedAt : Instant)
    (details : Written) (previousHash : Option String) : Written :=
  .obj [
    ("tenantId", .str scope.tenantId),
    ("dependencyKind", .str scope.dependencyKind.text),
    ("providerId", .str scope.providerId),
    ("operationId", .str scope.operationId),
    ("operationDigest", .str scope.operationDigest),
    ("kind", .str kind.text),
    ("observedAt", .str observedAt.text),
    ("details", details),
    ("previousHash", optionalText previousHash)]

section Operations

variable (sha256 : String → String)

/-- The hash of the last event of an operation. -/
def lastHash (history : List HistoryRow) (key : Key) : Option String :=
  ((history.filter fun row => decide (row.key = key)).getLast?).map
    HistoryRow.eventHash

/-- Hashes of events are unique. -/
def append (scope : Scope) (kind : EventKind) (observedAt : Instant)
    (details : Written) (store : Store) : Except String Store :=
  let previousHash := lastHash store.history scope.key
  let eventHash := sha256
    (eventContent scope kind observedAt details.sorted previousHash).canonical
  if eventHash ∈ store.history.map HistoryRow.eventHash then
    .error "UNIQUE constraint failed: dependency_outage_history.event_hash"
  else
    .ok { store with
      history := store.history ++ [{
        key := scope.key
        eventKind := kind
        observedAt := observedAt
        details := details.sorted
        previousHash := previousHash
        eventHash := eventHash }] }

/-! ## Calls -/

inductive EnqueueStatus where
  | queued
  | blocked
  | failed

namespace EnqueueStatus

def status : EnqueueStatus → Status
  | queued => .queued
  | blocked => .blocked
  | failed => .failed

end EnqueueStatus

structure EnqueueInput where
  scope : Scope
  retryBudget : Int
  expiresAt : String
  nextAttemptAt : String
  standing : Standing
  status : Option EnqueueStatus
  authorityVersion : Option String
  circuitState : Option CircuitState
  circuitOpenedAt : Option String
  circuitCooldownMs : Option Int
  consecutiveFailures : Option Int

def enqueue (input : EnqueueInput) (observedAt : String) (store : Store) :
    Except String (Store × OutageRow) := do
  validateScope input.scope
  positiveInteger input.retryBudget "dependency_outage_retry_budget_invalid"
  let observed ← iso observedAt "dependency_outage_timestamp_invalid"
  let nextAttemptAt ← iso input.nextAttemptAt
    "dependency_outage_next_attempt_invalid"
  let expiresAt ← iso input.expiresAt "dependency_outage_expiry_invalid"
  check (∀ version ∈ input.authorityVersion, isIdentity version = true)
    "dependency_outage_authority_invalid"
  let status := (input.status.getD .queued).status
  let circuit : CircuitSnapshot := {
    state := input.circuitState.getD .closed
    openedAt := input.circuitOpenedAt
    cooldownMs := input.circuitCooldownMs.getD 30000
    consecutiveFailures := input.consecutiveFailures.getD 0 }
  let circuitOpenedAt ← validateCircuit circuit
  match store.row input.scope with
  | some existing =>
    if existing.scope.operationDigest ≠ input.scope.operationDigest then
      .error "dependency_outage_operation_digest_conflict"
    else return (store, existing)
  | none => do
      check (observed.ms < expiresAt.ms) "dependency_outage_expired"
      let row : OutageRow := {
        scope := input.scope
        status := status
        standing := input.standing
        circuitState := circuit.state
        circuitOpenedAt := circuitOpenedAt
        circuitCooldownMs := circuit.cooldownMs
        consecutiveFailures := circuit.consecutiveFailures
        retryBudget := input.retryBudget
        attemptsConsumed := 0
        nextAttemptAt := nextAttemptAt
        expiresAt := expiresAt
        authorityVersion := input.authorityVersion
        claimOwner := none
        claimGeneration := 0
        claimExpiresAt := none
        completionDigest := none
        lastFailureKind := none
        lastFailureReason := none
        createdAt := observed
        updatedAt := observed }
      let after ← append sha256 input.scope .enqueued observed
        (.obj [
          ("status", .str status.text),
          ("retryBudget", .int input.retryBudget),
          ("expiresAt", .str expiresAt.text)])
        (store.write input.scope row)
      return (after, row)

structure ClaimInput where
  scope : Scope
  workerId : String
  now : String
  leaseMs : Int
  authorityVersion : String

/-- A claimed row whose lease has ended. -/
def OutageRow.recovering (row : OutageRow) (now : Instant) : Bool :=
  decide (row.status = .claimed) &&
    row.claimExpiresAt.any fun claimExpiresAt => claimExpiresAt.textLe now

/-- A blocked row whose effect has to be reconciled. -/
def OutageRow.reconciling (row : OutageRow) : Bool :=
  decide (row.status = .blocked ∧ row.lastFailureReason =
    some "completed_effect_requires_reconciliation")

/-- A claimed row whose lease and window have ended. -/
def OutageRow.expiredRecovery (row : OutageRow) (now : Instant) : Bool :=
  row.recovering now && row.expiresAt.textLe now

/-- A row which a claim may attempt. -/
def OutageRow.retryEligible (row : OutageRow) (now : Instant) : Bool :=
  (decide (row.status = .queued) || row.recovering now) &&
    row.nextAttemptAt.textLe now && !row.expiresAt.textLe now &&
    decide (row.attemptsConsumed < row.retryBudget)

/-- A queued row whose window has ended. -/
def OutageRow.expire (row : OutageRow) (now : Instant) : OutageRow :=
  { row with
    status := .failed
    standing := .degradedFailed
    circuitState := .opened
    circuitOpenedAt := some now
    consecutiveFailures := row.consecutiveFailures + 1
    claimOwner := none
    claimExpiresAt := none
    lastFailureKind := some "expired"
    lastFailureReason := some "operation_expired"
    updatedAt := now }

/-- A row which a worker has claimed. -/
def OutageRow.lease (row : OutageRow) (workerId : String)
    (now claimExpiresAt : Instant) : OutageRow :=
  let consumeAttempt := !row.reconciling && !row.expiredRecovery now
  { row with
    status := .claimed
    standing := .recovering
    circuitState :=
      if consumeAttempt = true ∧ row.circuitState = .opened then .halfOpen
      else row.circuitState
    claimOwner := some workerId
    claimGeneration := row.claimGeneration + 1
    claimExpiresAt := some claimExpiresAt
    attemptsConsumed :=
      row.attemptsConsumed + if consumeAttempt then 1 else 0
    updatedAt := now }

/-- A claim which may change the row has to have its authority. -/
def checkAuthority (row : OutageRow) (now : Instant)
    (authorityVersion : String) : Except String Unit :=
  if row.status = .queued ∨ row.recovering now = true ∨
      row.reconciling = true then do
    check (isIdentity authorityVersion = true)
      "dependency_outage_authority_invalid"
    check (row.authorityVersion ≠ none) "dependency_outage_authority_missing"
    check (row.authorityVersion = some authorityVersion)
      "dependency_outage_authority_mismatch"
  else return ()

/-- What a claim does to an existing row. -/
def claimRow (input : ClaimInput) (now : Instant) (current : OutageRow)
    (store : Store) : Except String (Store × Option OutageRow) :=
  if current.status = .queued ∧ current.expiresAt.textLe now = true then do
    let after ← append sha256 input.scope .failed now
      (.obj [
        ("failureKind", .str "expired"),
        ("reason", .str "operation_expired"),
        ("expiresAt", .str current.expiresAt.text)])
      (store.write input.scope (current.expire now))
    return (after, none)
  else if current.retryEligible now = false ∧ current.reconciling = false ∧
      current.expiredRecovery now = false then
    return (store, none)
  else
    match Instant.ofMs? (now.ms + input.leaseMs) with
    | none => .error "Invalid time value"
    | some claimExpiresAt => do
        let leased := current.lease input.workerId now claimExpiresAt
        let kind : EventKind :=
          if current.reconciling then .reconciliationClaimed
          else if current.recovering now then .claimRecovered
          else .claimed
        let after ← append sha256 input.scope kind now
          (.obj [
            ("workerId", .str input.workerId),
            ("claimGeneration", .int leased.claimGeneration),
            ("leaseExpiresAt", .str claimExpiresAt.text),
            ("reconciliationOnly",
              .bool (current.reconciling || current.expiredRecovery now)),
            ("expired", .bool (current.expiresAt.textLe now))])
          (store.write input.scope leased)
        return (after, some leased)

def claim (input : ClaimInput) (store : Store) :
    Except String (Store × Option OutageRow) := do
  validateScope input.scope
  check (isIdentity input.workerId = true) "dependency_outage_worker_invalid"
  let now ← iso input.now "dependency_outage_timestamp_invalid"
  positiveInteger input.leaseMs "dependency_outage_lease_invalid"
  match store.row input.scope with
  | none => return (store, none)
  | some current => do
      check (current.scope.operationDigest = input.scope.operationDigest)
        "dependency_outage_operation_digest_conflict"
      checkAuthority current now input.authorityVersion
      claimRow sha256 input now current store

/-- The row is leased by the claim at a time. -/
def OutageRow.activeFor (row : OutageRow) (claim : Claim)
    (observedAt : Instant) : Bool :=
  decide (row.status = .claimed ∧ row.claimOwner = some claim.claimOwner ∧
    row.claimGeneration = claim.claimGeneration) &&
    row.claimExpiresAt.any fun claimExpiresAt =>
      !claimExpiresAt.textLe observedAt

def OutageRow.settle (row : OutageRow) (completionDigest : String)
    (observedAt : Instant) : OutageRow :=
  { row with
    status := .completed
    standing := .healthy
    circuitState := .closed
    circuitOpenedAt := none
    consecutiveFailures := 0
    completionDigest := some completionDigest
    claimOwner := none
    claimExpiresAt := none
    lastFailureKind := none
    lastFailureReason := none
    updatedAt := observedAt }

/-- Also returns whether the completion was applied. -/
def complete (claim : Claim) (completionDigest observedAt : String)
    (store : Store) : Except String (Store × Bool × OutageRow) := do
  validateScope claim.scope
  check (isSha256 completionDigest = true)
    "dependency_outage_completion_digest_invalid"
  let observed ← iso observedAt "dependency_outage_timestamp_invalid"
  match store.row claim.scope with
  | none => .error "dependency_outage_operation_missing"
  | some current => do
      check (current.scope.operationDigest = claim.scope.operationDigest)
        "dependency_outage_operation_missing"
      if current.status = .completed then do
        check (current.completionDigest = some completionDigest)
          "dependency_outage_completion_digest_conflict"
        return (store, false, current)
      else if current.activeFor claim observed = false then
        return (store, false, current)
      else do
        let settled := current.settle completionDigest observed
        let after ← append sha256 claim.scope .completed observed
          (.obj [
            ("claimGeneration", .int claim.claimGeneration),
            ("completionDigest", .str completionDigest)])
          (store.write claim.scope settled)
        return (after, true, settled)

/-- A retry which is decided on when all attempts are used up. -/
def budgetExhausted (row : OutageRow) (decision : FailureDecision) : Bool :=
  decide (decision.action = .retry ∨ decision.action = .wait) &&
    decide (row.retryBudget ≤ row.attemptsConsumed)

def failedStatus (row : OutageRow) (decision : FailureDecision) : Status :=
  if decision.action = .fail ∨ budgetExhausted row decision = true then
    .failed
  else if decision.action = .awaitAuthority ∨
      decision.action = .reconcile then
    .blocked
  else .queued

def failureReason (row : OutageRow) (decision : FailureDecision) : String :=
  if budgetExhausted row decision then "retry_budget_exhausted"
  else decision.reason

/-- A row after a failure. -/
def OutageRow.afterFailure (row : OutageRow) (decision : FailureDecision)
    (openedAt nextAttemptAt : Option Instant) (observedAt : Instant) :
    OutageRow :=
  let status := failedStatus row decision
  { row with
    status := status
    standing :=
      if status = .failed then .degradedFailed
      else if status = .blocked then .degradedBlocked
      else decision.standing
    circuitState := decision.circuitState
    circuitOpenedAt := openedAt
    circuitCooldownMs := decision.circuit.cooldownMs
    consecutiveFailures := decision.circuit.consecutiveFailures
    nextAttemptAt := nextAttemptAt.getD row.nextAttemptAt
    claimOwner := none
    claimExpiresAt := none
    lastFailureKind := some decision.failureKind
    lastFailureReason := some (failureReason row decision)
    updatedAt := observedAt }

def failureEvent (row : OutageRow) (decision : FailureDecision) :
    EventKind :=
  let status := failedStatus row decision
  if status = .failed then .failed
  else if decision.action = .reconcile then .reconciliationRequired
  else if status = .blocked then .authorityBlocked
  else .retryScheduled

def fail (claim : Claim) (decision : FailureDecision) (observedAt : String)
    (store : Store) : Except String (Store × OutageRow) := do
  validateScope claim.scope
  let observed ← iso observedAt "dependency_outage_timestamp_invalid"
  let (openedAt, nextAttemptAt) ← validateFailureDecision decision
  match store.row claim.scope with
  | none => .error "dependency_outage_operation_missing"
  | some current => do
      check (current.scope.operationDigest = claim.scope.operationDigest)
        "dependency_outage_operation_missing"
      check (current.activeFor claim observed = true)
        "dependency_outage_claim_fence_lost"
      check (decision.attemptsRemaining =
          max 0 (current.retryBudget - current.attemptsConsumed))
        "dependency_outage_attempts_remaining_mismatch"
      check (∀ next ∈ nextAttemptAt, observed.textLe next = true)
        "dependency_outage_retry_before_failure"
      check (∀ next ∈ nextAttemptAt, current.expiresAt.textLe next = false)
        "dependency_outage_retry_after_expiry"
      let failed :=
        current.afterFailure decision openedAt nextAttemptAt observed
      let after ← append sha256 claim.scope (failureEvent current decision)
        observed
        (.obj [
          ("claimGeneration", .int claim.claimGeneration),
          ("failureKind", .str decision.failureKind),
          ("reason", .str (failureReason current decision)),
          ("nextAttemptAt",
            if failed.status = .queued then .str failed.nextAttemptAt.text
            else .null),
          ("circuit", circuitDetails decision.circuit)])
        (store.write claim.scope failed)
      return (after, failed)

structure ReactivateInput where
  previousAuthorityVersion : String
  nextAuthorityVersion : String
  now : String

def OutageRow.reactivate (row : OutageRow) (nextAuthorityVersion : String)
    (now : Instant) : OutageRow :=
  { row with
    status := .queued
    standing := .degradedRetrying
    circuitState := .halfOpen
    nextAttemptAt := now
    authorityVersion := some nextAuthorityVersion
    updatedAt := now }

def reactivateAuthority (scope : Scope) (input : ReactivateInput)
    (store : Store) : Except String (Store × OutageRow) := do
  validateScope scope
  check (isIdentity input.previousAuthorityVersion = true ∧
      isIdentity input.nextAuthorityVersion = true)
    "dependency_outage_authority_invalid"
  check (input.previousAuthorityVersion ≠ input.nextAuthorityVersion)
    "dependency_outage_authority_unchanged"
  let now ← iso input.now "dependency_outage_timestamp_invalid"
  match store.row scope with
  | none => .error "dependency_outage_operation_missing"
  | some current => do
      check (current.scope.operationDigest = scope.operationDigest)
        "dependency_outage_operation_missing"
      check ((current.status = .blocked ∨ current.status = .queued) ∧
          current.authorityVersion = some input.previousAuthorityVersion)
        "dependency_outage_authority_mismatch"
      check (current.expiresAt.textLe now = false)
        "dependency_outage_expired"
      check (current.status = .blocked → current.lastFailureReason =
          some "authority_change_required")
        "dependency_outage_reconciliation_required"
      let reactivated := current.reactivate input.nextAuthorityVersion now
      let after ← append sha256 scope .authorityReactivated now
        (.obj [
          ("previousAuthorityVersion", .str input.previousAuthorityVersion),
          ("nextAuthorityVersion", .str input.nextAuthorityVersion)])
        (store.write scope reactivated)
      return (after, reactivated)

inductive ReopenReason where
  | operationExpired
  | retryBudgetExhausted
  | operatorRetry
  deriving DecidableEq

namespace ReopenReason

def text : ReopenReason → String
  | operationExpired => "operation_expired"
  | retryBudgetExhausted => "retry_budget_exhausted"
  | operatorRetry => "operator_retry"

end ReopenReason

structure ReopenInput where
  reason : ReopenReason
  expiresAt : String
  nextAttemptAt : Option String
  now : String

/-- The reopened row, or why it was not reopened. -/
inductive Reopen where
  | reopened (record : OutageRow)
  | refused (reason : String)

def OutageRow.reopen (row : OutageRow)
    (observedAt nextAttemptAt expiresAt : Instant) : OutageRow :=
  { row with
    status := .queued
    standing := .degradedRetrying
    circuitState := .halfOpen
    circuitOpenedAt := none
    attemptsConsumed := 0
    nextAttemptAt := nextAttemptAt
    expiresAt := expiresAt
    claimOwner := none
    claimExpiresAt := none
    lastFailureKind := none
    lastFailureReason := none
    updatedAt := observedAt }

/-- How often an operation has been reopened. -/
def reopenings (history : List HistoryRow) (key : Key) : Nat :=
  (history.filter fun row =>
    decide (row.key = key ∧ row.eventKind = .reopened)).length

/-- What reopening does to an existing row. -/
def reopenRow (scope : Scope) (reason : ReopenReason)
    (observed nextAttemptAt expiresAt : Instant) (current : OutageRow)
    (store : Store) : Except String (Store × Reopen) :=
  if current.status ≠ .failed then
    return (store, .refused "operation_not_failed")
  else if current.lastFailureReason = some "permanent_failure" then
    return (store, .refused "operation_permanent")
  else if reason ≠ .operatorRetry ∧
      current.lastFailureReason ≠ some reason.text then
    return (store, .refused "reason_not_reopenable")
  else do
    let reopened := current.reopen observed nextAttemptAt expiresAt
    let after ← append sha256 scope .reopened observed
      (.obj [
        ("previousReason", optionalText current.lastFailureReason),
        ("reopenReason", .str reason.text),
        ("reopenCount", .int (reopenings store.history scope.key + 1))])
      (store.write scope reopened)
    return (after, .reopened reopened)

def reopen (scope : Scope) (input : ReopenInput) (store : Store) :
    Except String (Store × Reopen) := do
  validateScope scope
  let observed ← iso input.now "dependency_outage_timestamp_invalid"
  let expiresAt ← iso input.expiresAt "dependency_outage_expiry_invalid"
  let nextAttemptAt ← iso (input.nextAttemptAt.getD input.now)
    "dependency_outage_next_attempt_invalid"
  check (observed.ms < expiresAt.ms) "dependency_outage_expired"
  match store.row scope with
  | none => return (store, .refused "operation_missing")
  | some current => do
      check (current.scope.operationDigest = scope.operationDigest)
        "dependency_outage_operation_digest_conflict"
      reopenRow sha256 scope input.reason observed nextAttemptAt expiresAt
        current store

/-! ## Runs -/

/-- A call of a worker or of an operator, with its own time. -/
inductive Call where
  | enqueue (input : EnqueueInput) (observedAt : String)
  | claim (input : ClaimInput)
  | complete (claim : Claim) (completionDigest observedAt : String)
  | fail (claim : Claim) (decision : FailureDecision) (observedAt : String)
  | reactivateAuthority (scope : Scope) (input : ReactivateInput)
  | reopen (scope : Scope) (input : ReopenInput)

/-- The store after a call; a call which throws changes nothing. -/
def step (store : Store) : Call → Store
  | .enqueue input observedAt => settled (enqueue sha256 input observedAt store)
  | .claim input => settled (claim sha256 input store)
  | .complete held completionDigest observedAt =>
    settled (complete sha256 held completionDigest observedAt store)
  | .fail held decision observedAt =>
    settled (fail sha256 held decision observedAt store)
  | .reactivateAuthority scope input =>
    settled (reactivateAuthority sha256 scope input store)
  | .reopen scope input => settled (reopen sha256 scope input store)
where
  settled {α : Type} : Except String (Store × α) → Store
    | .ok (after, _) => after
    | .error _ => store

end Operations

end Mendpoint.Outage
