import Mendpoint.Library.Attempt
import Mendpoint.Outage.Queue

/-!
# Adoptive deliveries

A run of an adoptive operation: it enqueues or reopens its row, claims it,
invokes the effect, and settles the row.  Between its transactions the other
users of the store do what they do; the clock, the effect and the policy which
classifies its failures are taken from outside.
-/

namespace Mendpoint.Outage

open Mendpoint.Library
open Mendpoint.Library.Attempt
open Mendpoint.Library.IsoTime

/-! ## What a run is about -/

structure AdoptiveOperation where
  scope : Scope
  workerId : String
  retryBudget : Int
  expiresAt : String
  leaseMs : Int
  authorityVersion : String

/-- What a policy is told about a failure. -/
structure FailureContext where
  attempt : Int
  retryBudget : Int
  expiresAt : String
  now : String
  circuit : CircuitSnapshot

/-- How the effect of an operation ends. -/
inductive Executed where
  | returned (completionDigest : String)
  | threw (failure : String)

/-- What a run takes from outside. -/
structure World where
  /-- The time at which the run starts. -/
  now : Instant
  /-- What the other users of the store do during the effect. -/
  meanwhile : Store → Store
  executed : Executed
  /-- The time after the effect, and the next one which is read. -/
  afterwards : Instant
  later : Instant
  /-- The policy, which decides nothing where it throws. -/
  classify : String → FailureContext → Option FailureDecision

inductive RunStatus where
  | completed
  | recovered
  | deferred
  | blocked
  | failed

/-- What a run returns, besides the value or the error of the effect. -/
structure RunResult where
  status : RunStatus
  record : OutageRow
  decision : Option FailureDecision
  fenced : Bool

/-- The store, and how often an effect has been invoked. -/
structure Session where
  store : Store
  executions : Nat

abbrev SessionM (α : Type) : Type :=
  Attempt Session String α

/-- One call of the queue, which is a transaction. -/
def transact {α : Type} (call : Store → Except String (Store × α)) :
    SessionM α := do
  let session ← get
  let answer ← call session.store
  modify fun session => { session with store := answer.1 }
  return answer.2

/-! ## Records -/

/-- The row of an operation, which has to have its digest. -/
def readOperation (scope : Scope) (store : Store) :
    Except String (Option OutageRow) := do
  validateScope scope
  match store.row scope with
  | none => return none
  | some row => do
      check (row.scope.operationDigest = scope.operationDigest)
        "dependency_outage_operation_digest_conflict"
      return some row

/-- The claim which a leased row is for its worker. -/
def OutageRow.held (row : OutageRow) : Claim where
  scope := row.scope
  claimOwner := row.claimOwner.getD ""
  claimGeneration := row.claimGeneration

/-- `circuitFromRecord` -/
def OutageRow.circuit (row : OutageRow) : CircuitSnapshot where
  state := row.circuitState
  openedAt := row.circuitOpenedAt.map Instant.text
  cooldownMs := row.circuitCooldownMs
  consecutiveFailures := row.consecutiveFailures

/-- What is decided where the policy itself throws. -/
def policyUnavailableDecision (claim : OutageRow) (observedAt : Instant) :
    FailureDecision where
  schemaVersion := 1
  action := .fail
  failureKind := "permanent"
  retryable := false
  reason := "permanent_failure"
  nextAttemptAt := none
  attemptsRemaining := max 0 (claim.retryBudget - claim.attemptsConsumed)
  circuitState := .opened
  circuit := {
    state := .opened
    openedAt := some observedAt.text
    cooldownMs := claim.circuitCooldownMs
    consecutiveFailures := claim.consecutiveFailures + 1 }
  standing := .degradedFailed

section Operations

variable (sha256 : String → String)

/-- A settlement behind a claim which was lost. -/
def settleFencedCompletion (scope : Scope) (completionDigest : String)
    (observedAt : Instant) (store : Store) :
    Except String (Store × OutageRow) := do
  check (isSha256 completionDigest = true)
    "dependency_outage_completion_digest_invalid"
  validateScope scope
  match store.row scope with
  | none => .error "dependency_outage_operation_missing"
  | some current => do
      check (current.scope.operationDigest = scope.operationDigest)
        "dependency_outage_operation_missing"
      if current.status = .completed then do
        check (current.completionDigest = some completionDigest)
          "dependency_outage_completion_digest_conflict"
        return (store, current)
      else do
        let settled := current.settle completionDigest observedAt
        let after ← append sha256 scope .completed observedAt
          (.obj [
            ("completionDigest", .str completionDigest),
            ("fencedSettlement", .bool true)])
          (store.write scope settled)
        return (after, settled)

/-! ## Before the effect -/

/-- The row which is enqueued for an operation. -/
def AdoptiveOperation.enqueueInput (operation : AdoptiveOperation)
    (now : Instant) : EnqueueInput where
  scope := operation.scope
  retryBudget := operation.retryBudget
  expiresAt := operation.expiresAt
  nextAttemptAt := now.text
  standing := .degradedRetrying
  status := none
  authorityVersion := some operation.authorityVersion
  circuitState := none
  circuitOpenedAt := none
  circuitCooldownMs := none
  consecutiveFailures := none

/-- The claim which is made for an operation. -/
def AdoptiveOperation.claimInput (operation : AdoptiveOperation)
    (now : Instant) : ClaimInput where
  scope := operation.scope
  workerId := operation.workerId
  now := now.text
  leaseMs := operation.leaseMs
  authorityVersion := operation.authorityVersion

/-- The reason for which a failed row is reopened without an operator. -/
def OutageRow.autoReopens (row : OutageRow) : Option ReopenReason :=
  if row.status = .failed then
    if row.lastFailureReason = some "operation_expired" then
      some .operationExpired
    else if row.lastFailureReason = some "retry_budget_exhausted" then
      some .retryBudgetExhausted
    else none
  else none

def enqueueOrReopenAdoptive (operation : AdoptiveOperation) (now : Instant) :
    SessionM Unit := do
  let session ← get
  let existing ← readOperation operation.scope session.store
  match existing.bind OutageRow.autoReopens with
  | some reason => do
      let _ ← transact (reopen sha256 operation.scope {
        reason := reason
        expiresAt := operation.expiresAt
        nextAttemptAt := some now.text
        now := now.text })
      return ()
  | none => do
      let _ ← transact
        (enqueue sha256 (operation.enqueueInput now) now.text)
      return ()

/-- Bring a row which is not settled under the authority of a run. -/
def adoptAuthority (operation : AdoptiveOperation) (now : Instant)
    (enqueued : OutageRow) : SessionM Unit :=
  if enqueued.status = .queued ∨ enqueued.status = .claimed ∨
      enqueued.status = .blocked then do
    let authorityVersion ← demand enqueued.authorityVersion
      "dependency_outage_authority_missing"
    if authorityVersion ≠ operation.authorityVersion then do
      let _ ← transact (reactivateAuthority sha256 operation.scope {
        previousAuthorityVersion := authorityVersion
        nextAuthorityVersion := operation.authorityVersion
        now := now.text })
      return ()
    else return ()
  else return ()

/-- The part of a run up to its claim, which is there if it was granted. -/
def startAdoptive (operation : AdoptiveOperation) (now : Instant) :
    SessionM (Option OutageRow) := do
  enqueueOrReopenAdoptive sha256 operation now
  let session ← get
  let found ← readOperation operation.scope session.store
  let enqueued ← demand found "Cannot read properties of null"
  adoptAuthority sha256 operation now enqueued
  transact (claim sha256 (operation.claimInput now))

/-! ## After the effect -/

/-- Fail a claim as the policy decides. -/
def failThroughPolicy (world : World) (claim : OutageRow)
    (failure : String) : SessionM RunResult := do
  let decision := (world.classify failure {
    attempt := claim.attemptsConsumed
    retryBudget := claim.retryBudget
    expiresAt := claim.expiresAt.text
    now := world.later.text
    circuit := claim.circuit }).getD
      (policyUnavailableDecision claim world.later)
  let record ← transact
    (fail sha256 claim.held decision world.later.text)
  return {
    status :=
      if record.status = .blocked then .blocked
      else if record.status = .failed then .failed
      else .deferred
    record := record
    decision := some decision
    fenced := false }

/-- The row of an operation, or the claim where there is none. -/
def recordOrClaim (operation : AdoptiveOperation) (claim : OutageRow) :
    SessionM OutageRow := do
  let session ← get
  let found ← readOperation operation.scope session.store
  return found.getD claim

/-- What a worker does whose effect has thrown. -/
def afterThrow (operation : AdoptiveOperation) (world : World)
    (claim : OutageRow) (failure : String) : SessionM RunResult := do
  let session ← get
  validateScope claim.scope
  if (session.store.row claim.scope).any fun current =>
      current.activeFor claim.held world.afterwards then
    failThroughPolicy sha256 world claim failure
  else do
    let record ← recordOrClaim operation claim
    return { status := .deferred, record, decision := none, fenced := true }

/-- Complete a claim, or settle the row behind it where it was lost. -/
def completeOrSettle (operation : AdoptiveOperation) (world : World)
    (claim : OutageRow) (completionDigest : String) :
    SessionM RunResult := do
  let (applied, record) ← transact
    (complete sha256 claim.held completionDigest world.afterwards.text)
  if applied then
    return { status := .completed, record, decision := none, fenced := false }
  else if record.status = .completed then
    return { status := .completed, record, decision := none, fenced := true }
  else do
    let record ← transact (settleFencedCompletion sha256 operation.scope
      completionDigest world.later)
    return { status := .completed, record, decision := none, fenced := true }

/-- What a worker does whose effect has returned. -/
def afterReturn (operation : AdoptiveOperation) (world : World)
    (claim : OutageRow) (completionDigest : String) : SessionM RunResult :=
  tryCatch (completeOrSettle sha256 operation world claim completionDigest)
    fun failure =>
      if failure = "dependency_outage_completion_digest_conflict" then do
        let record ← recordOrClaim operation claim
        return { status := .completed, record, decision := none
                 fenced := true }
      else throw failure

/-! ## Runs -/

/-- The invocation of an effect, while the others go on. -/
def invoke (world : World) : SessionM PUnit :=
  modify fun session =>
    { store := world.meanwhile session.store
      executions := session.executions + 1 }

/-- What a run does whose claim was not granted. -/
def withoutClaim (operation : AdoptiveOperation) (world : World) :
    SessionM RunResult := do
  let session ← get
  let found ← readOperation operation.scope session.store
  let record ← demand found "Cannot read properties of null"
  if record.status = .completed then do
    invoke world
    match world.executed with
    | .returned _ =>
      return { status := .recovered, record, decision := none
               fenced := false }
    | .threw failure => throw failure
  else
    return {
      status :=
        if record.status = .blocked then .blocked
        else if record.status = .failed then .failed
        else .deferred
      record := record
      decision := none
      fenced := false }

def runAdoptive (operation : AdoptiveOperation) (world : World) :
    SessionM RunResult := do
  let claim ← startAdoptive sha256 operation world.now
  match claim with
  | none => withoutClaim operation world
  | some claim => do
      invoke world
      match world.executed with
      | .threw failure =>
        afterThrow sha256 operation world claim failure
      | .returned completionDigest =>
        afterReturn sha256 operation world claim completionDigest

/-! ## Acts -/

/-- A call of the queue, or a settlement behind a lost claim. -/
inductive Act where
  | call (call : Call)
  | settle (scope : Scope) (completionDigest : String) (observedAt : Instant)

/-- The store after an act; an act which throws changes nothing. -/
def actStep (store : Store) : Act → Store
  | .call call => step sha256 store call
  | .settle scope completionDigest observedAt =>
    step.settled store
      (settleFencedCompletion sha256 scope completionDigest observedAt
        store)

end Operations

end Mendpoint.Outage
