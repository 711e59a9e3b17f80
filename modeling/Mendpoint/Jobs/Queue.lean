import Mathlib.Data.Rat.Floor
import Mendpoint.Library.Attempt
import Mendpoint.Library.Collation
import Mendpoint.Library.Fallible
import Mendpoint.Library.IsoTime
import Mendpoint.Library.Table

/-!
# The job queue

The rows of jobs and the calls which write them.  A claim leases a job to a
worker under a new generation; the calls of its holder are fenced by the worker
and the generation.  Each call is one transaction, and the texts of times which
a clock tells are those of `toISOString`.
-/

namespace Mendpoint.Jobs

open Mendpoint.Library
open Mendpoint.Library.Fallible
open Mendpoint.Library.IsoTime (Instant)

/-! ## Rows -/

inductive JobStatus where
  | pending
  | running
  | done
  | deadLetter
  | failed
  | cancelled
  deriving DecidableEq

structure JobRow where
  id : String
  tenantId : String
  type : String
  payloadJson : String
  status : JobStatus
  attempts : Int
  maxAttempts : Int
  error : Option String
  resultJson : Option String
  createdAt : String
  startedAt : Option String
  finishedAt : Option String
  leaseOwner : Option String
  leaseExpiresAt : Option String
  availableAt : Option String
  leaseGeneration : Nat
  errorCode : Option String
  lastErrorAt : Option String
  deadAt : Option String
  cancelledAt : Option String
  deriving DecidableEq

inductive DeliveryStatus where
  | deliveryPending
  | delivered
  | deliveryFailed
  deriving DecidableEq

/-- What recovery reads of a delivery of either kind. -/
structure DeliveryRow where
  jobId : String
  tenantId : String
  status : DeliveryStatus
  intentDigest : Option String

/-- The tables which recovery reads, and the accounts which it settles. -/
structure Surroundings (ρ : Type) where
  adaptiveDeliveries : List DeliveryRow
  candidateDeliveries : List DeliveryRow
  modelReservations : ρ

structure JobDb (ρ : Type) extends Surroundings ρ where
  jobs : List JobRow
  jobKeys : (jobs.map JobRow.id).Nodup

namespace JobDb

variable {ρ : Type}

/-- `SELECT * FROM jobs WHERE id = ?`. -/
def job? (db : JobDb ρ) (id : String) : Option JobRow :=
  db.jobs.find? fun row => decide (row.id = id)

/-- `UPDATE jobs SET change WHERE selected`. -/
def updateJobs (db : JobDb ρ) (selected : JobRow → Bool)
    (change : JobRow → JobRow) (kept : ∀ row, (change row).id = row.id) :
    JobDb ρ :=
  { db with
    jobs := Table.update selected change db.jobs
    jobKeys := by
      rw [Table.map_key_update kept]
      exact db.jobKeys }

end JobDb

/-- Whether a call changed its row, and the database afterwards. -/
structure Changed (ρ : Type) where
  applied : Bool
  db : JobDb ρ

variable {ρ : Type}

/-- An update of at most one row. -/
def changeOne (db : JobDb ρ) (selected : JobRow → Bool)
    (change : JobRow → JobRow) (kept : ∀ row, (change row).id = row.id) :
    Changed ρ where
  applied := decide (Table.changes selected db.jobs = 1)
  db := db.updateJobs selected change kept

/-! ## Texts and times -/

/-- The comparison `left <= right` of texts in SQL. -/
def textLe (left right : String) : Bool :=
  Collation.ordinal.le left right

/-- A number of milliseconds without its fraction, as a date holds it. -/
def wholeMs (number : ℚ) : Int :=
  if 0 ≤ number then number.floor else number.ceil

/-- `new Date(number)`, which `toISOString` refuses where it is invalid. -/
def dateOf (number : ℚ) : Except String Instant :=
  Attempt.demand (Instant.ofMs? (wholeMs number)) "Invalid time value"

def requireTenant (tenantId : String) : Except String PUnit :=
  throwIf (Text.trim tenantId = "") "tenant_id_required"

def assertTenantScope (tenantId : Option String) : Except String PUnit :=
  throwIf (∃ scope ∈ tenantId, Text.trim scope = "") "tenant_scope_required"

/-- `tenantId ? "AND tenant_id = ?" : ""`. -/
def ofTenant (tenantId : Option String) (row : JobRow) : Bool :=
  match tenantId with
  | none => true
  | some scope => decide (scope = "" ∨ row.tenantId = scope)

/-! ## Enqueueing -/

structure EnqueueInput where
  id : String
  tenantId : String
  type : String
  payloadJson : String
  maxAttempts : Option Int
  createdAt : String
  availableAt : Option String

/-- The row of a new job. -/
def EnqueueInput.row (input : EnqueueInput) : JobRow where
  id := input.id
  tenantId := input.tenantId
  type := input.type
  payloadJson := input.payloadJson
  status := .pending
  attempts := 0
  maxAttempts := input.maxAttempts.getD 3
  error := none
  resultJson := none
  createdAt := input.createdAt
  startedAt := none
  finishedAt := none
  leaseOwner := none
  leaseExpiresAt := none
  availableAt := some (input.availableAt.getD input.createdAt)
  leaseGeneration := 0
  errorCode := none
  lastErrorAt := none
  deadAt := none
  cancelledAt := none

def enqueueJob (input : EnqueueInput) (db : JobDb ρ) :
    Except String (JobDb ρ) := do
  requireTenant input.tenantId
  if fresh : ∀ row ∈ db.jobs, row.id ≠ input.id then
    return { db with
      jobs := db.jobs ++ [input.row]
      jobKeys := by
        rw [List.map_append, List.map_singleton, ← List.concat_eq_append,
          List.nodup_concat]
        refine ⟨fun member => ?_, db.jobKeys⟩
        rcases List.mem_map.mp member with ⟨row, inside, same⟩
        exact fresh row inside same }
  else .error "UNIQUE constraint failed: jobs.id"

inductive EnqueueOutcome where
  | enqueued
  | reset
  | alreadyActive

/-- The row of a spent job which takes another input. -/
def EnqueueInput.revive (input : EnqueueInput) (row : JobRow) : JobRow :=
  { row with
    type := input.type
    payloadJson := input.payloadJson
    status := .pending
    attempts := 0
    maxAttempts := input.maxAttempts.getD 3
    error := none
    errorCode := none
    resultJson := none
    startedAt := none
    finishedAt := none
    deadAt := none
    cancelledAt := none
    lastErrorAt := none
    leaseOwner := none
    leaseExpiresAt := none
    availableAt := some (input.availableAt.getD input.createdAt)
    leaseGeneration := row.leaseGeneration + 1 }

def enqueueOrResetJob (input : EnqueueInput) (db : JobDb ρ) :
    Except String (EnqueueOutcome × JobDb ρ) := do
  requireTenant input.tenantId
  match db.job? input.id with
  | none => do
      let enqueued ← enqueueJob input db
      return (.enqueued, enqueued)
  | some existing =>
    throwIf (existing.tenantId ≠ input.tenantId) "job_id_tenant_mismatch"
    if existing.status = .pending ∨ existing.status = .running then
      return (.alreadyActive, db)
    else
      return (.reset, db.updateJobs
        (fun row =>
          decide (row.id = input.id ∧ row.tenantId = input.tenantId))
        input.revive fun _ => rfl)

/-! ## Recovery -/

/-- A delivery of a job which is pending with its intent bound. -/
def intentBound (deliveries : List DeliveryRow) (row : JobRow) : Bool :=
  deliveries.any fun delivery =>
    decide (delivery.jobId = row.id ∧ delivery.tenantId = row.tenantId ∧
      delivery.status = .deliveryPending ∧ delivery.intentDigest ≠ none)

def externalSideEffectMayExist (tables : Surroundings ρ) (row : JobRow) :
    Bool :=
  (decide (row.type = "transformer.adaptive.deliver") &&
      intentBound tables.adaptiveDeliveries row) ||
    (decide (row.type = "warden.candidate.deliver") &&
      intentBound tables.candidateDeliveries row)

def shouldRetry (tables : Surroundings ρ) (row : JobRow) : Bool :=
  decide (row.attempts < row.maxAttempts) ||
    externalSideEffectMayExist tables row

/-- The error of a job whose lease has ended. -/
def recoveryError (tables : Surroundings ρ) (row : JobRow) : String :=
  if row.attempts < row.maxAttempts then "lease_expired"
  else if externalSideEffectMayExist tables row then
    "lease_expired_external_side_effect_uncertain"
  else "lease_expired_max_attempts"

/-- The row of a job whose lease has ended. -/
def recoverRow (tables : Surroundings ρ) (now : String) (row : JobRow) :
    JobRow :=
  let retry := shouldRetry tables row
  { row with
    status := if retry then .pending else .deadLetter
    error := some (recoveryError tables row)
    errorCode := some (recoveryError tables row)
    lastErrorAt := some now
    availableAt := if retry then some now else none
    finishedAt := if retry then none else some now
    deadAt := if retry then none else some now
    leaseOwner := none
    leaseExpiresAt := none }

/-- A running job whose lease has ended. -/
def leaseEnded (now : String) (row : JobRow) : Bool :=
  decide (row.status = .running) &&
    match row.leaseExpiresAt with
    | some expiry => textLe expiry now
    | none => false

section Recovery

variable (settleExpiredModelReservations :
  List JobRow → ρ → String → Option String → Except String ρ)

def recoverExpiredJobs (now : Instant) (tenantId : Option String)
    (db : JobDb ρ) : Except String (Nat × JobDb ρ) := do
  assertTenantScope tenantId
  let settled ← settleExpiredModelReservations db.jobs db.modelReservations
    now.text tenantId
  let selected := fun row => leaseEnded now.text row && ofTenant tenantId row
  let tables := { db.toSurroundings with modelReservations := settled }
  return (Table.changes selected db.jobs,
    { db with modelReservations := settled }.updateJobs selected
      (recoverRow tables now.text) fun _ => rfl)

/-! ## Claiming -/

structure ClaimOptions where
  types : List String
  tenantId : Option String
  workerId : String
  leaseMs : Option ℚ
  now : Instant
  maxRunningPerTenant : Option ℚ

/-- The number of running jobs of a tenant. -/
def runningOf (jobs : List JobRow) (tenantId : String) : Nat :=
  jobs.countP fun row =>
    decide (row.tenantId = tenantId ∧ row.status = .running)

/-- The condition on the capacity of a tenant, where a bound is given. -/
def withinCapacity (bound : Option ℚ) (jobs : List JobRow) (row : JobRow) :
    Bool :=
  match bound with
  | none => true
  | some most =>
    decide (most = 0 ∨ (runningOf jobs row.tenantId : ℚ) < most)

/-- A text which is not blank for `trim` in SQL. -/
def attributable (tenantId : String) : Bool :=
  tenantId.toList.any fun char => decide (char ≠ ' ')

/-- A job which a claim may take. -/
def claimable (options : ClaimOptions) (jobs : List JobRow) (row : JobRow) :
    Bool :=
  decide (row.status = .pending) &&
    decide (options.types = [] ∨ row.type ∈ options.types) &&
    ofTenant options.tenantId row && attributable row.tenantId &&
    decide (row.cancelledAt = none) &&
    (match row.availableAt with
    | some available => textLe available options.now.text
    | none => true) &&
    withinCapacity options.maxRunningPerTenant jobs row

/-- `ORDER BY available_at, created_at, id`, with null in front. -/
def claimOrder (left right : JobRow) : Bool :=
  let created := fun first second : JobRow =>
    if first.createdAt = second.createdAt then textLe first.id second.id
    else textLe first.createdAt second.createdAt
  match left.availableAt, right.availableAt with
  | none, none => created left right
  | none, some _ => true
  | some _, none => false
  | some here, some there =>
    if here = there then created left right else textLe here there

/-- The first of the jobs which a claim may take. -/
def nextJob (options : ClaimOptions) (jobs : List JobRow) : Option JobRow :=
  ((jobs.filter (claimable options jobs)).insertionSort
    fun left right => claimOrder left right = true).head?

/-- The row of a job which is claimed. -/
def claimRow (options : ClaimOptions) (expiry : Instant) (row : JobRow) :
    JobRow :=
  { row with
    status := .running
    attempts := row.attempts + 1
    startedAt := some options.now.text
    finishedAt := none
    leaseOwner := some options.workerId
    leaseExpiresAt := some expiry.text
    leaseGeneration := row.leaseGeneration + 1 }

/-- When a lease ends which is claimed now. -/
def ClaimOptions.expiry (options : ClaimOptions) : Except String Instant :=
  dateOf (options.now.ms + max 1000 (options.leaseMs.getD 60000))

def claimNextJob (options : ClaimOptions) (db : JobDb ρ) :
    Except String (Option JobRow × JobDb ρ) := do
  assertTenantScope options.tenantId
  let expiry ← options.expiry
  let recovered ← recoverExpiredJobs settleExpiredModelReservations
    options.now options.tenantId db
  match nextJob options recovered.2.jobs with
  | none => return (none, recovered.2)
  | some job => do
      let claimed := changeOne recovered.2
        (fun row => decide (row.id = job.id ∧ row.status = .pending))
        (claimRow options expiry) fun _ => rfl
      if claimed.applied then return (claimed.db.job? job.id, claimed.db)
      else return (none, db)

end Recovery

/-! ## Calls of a holder -/

structure JobLeaseFence where
  workerId : String
  leaseGeneration : Nat

/-- The running row of a job under an unexpired lease of a fence. -/
def fenced (fence : JobLeaseFence) (now : String) (id : String)
    (row : JobRow) : Bool :=
  decide (row.id = id ∧ row.status = .running ∧
      row.leaseOwner = some fence.workerId ∧
      row.leaseGeneration = fence.leaseGeneration) &&
    match row.leaseExpiresAt with
    | some expiry => !textLe expiry now
    | none => false

/-- The row which a call may change, with a fence where it has one. -/
def runningRow (fence : Option JobLeaseFence) (now : String) (id : String)
    (row : JobRow) : Bool :=
  match fence with
  | some given => fenced given now id row
  | none => decide (row.id = id ∧ row.status = .running)

/-- The row of a job which is complete. -/
def completeRow (resultJson finishedAt : String) (row : JobRow) : JobRow :=
  { row with
    status := .done
    resultJson := some resultJson
    finishedAt := some finishedAt
    error := none
    errorCode := none
    availableAt := none
    leaseOwner := none
    leaseExpiresAt := none }

def completeJob (id resultJson : String) (finishedAt : Instant)
    (fence : Option JobLeaseFence) (db : JobDb ρ) : Changed ρ :=
  changeOne db (runningRow fence finishedAt.text id)
    (completeRow resultJson finishedAt.text) fun _ => rfl

/-- When a lease ends which is renewed now. -/
def renewedExpiry (now : Instant) (leaseMs : Option ℚ) :
    Except String Instant :=
  dateOf (now.ms + max 1000 (min (leaseMs.getD 60000) 86400000))

def renewJobLease (id : String) (fence : JobLeaseFence) (now : Instant)
    (leaseMs : Option ℚ) (db : JobDb ρ) : Except String (Changed ρ) := do
  let expiry ← renewedExpiry now leaseMs
  return changeOne db (fenced fence now.text id)
    (fun row => { row with leaseExpiresAt := some expiry.text }) fun _ => rfl

structure JobFailureOptions where
  workerId : Option String
  leaseGeneration : Option Nat
  errorCode : Option String
  retryable : Option Bool
  retryPastMaxAttempts : Option Bool
  baseDelayMs : Option ℚ
  maxDelayMs : Option ℚ

def boundedDelayMs (attempts : Int) (baseMs maxMs : ℚ) : ℚ :=
  let base := max 1000 (min baseMs 86400000)
  let ceiling := max base (min maxMs 86400000)
  let exponent := (max 0 (min (attempts - 1) 16)).toNat
  min ceiling (base * 2 ^ exponent)

/-- The lower case of a character, as far as it lies in ASCII. -/
def lowerChar (char : Char) : List Char :=
  if char.toNat = 0x212a then ['k']
  else if char.toNat = 0x130 then ['i', Char.ofNat 0x307]
  else [char.toLower]

/-- The characters `a-z`, `0-9`, `.`, `_` and `-`. -/
def isCodeChar (char : Char) : Bool :=
  decide ('a' ≤ char ∧ char ≤ 'z') || decide ('0' ≤ char ∧ char ≤ '9') ||
    char ∈ ['.', '_', '-']

/-- Replace every run of other characters by one underscore. -/
def squeeze : List Char → List Char
  | [] => []
  | char :: rest =>
    if isCodeChar char then char :: squeeze rest
    else '_' :: squeeze (rest.dropWhile fun next => !isCodeChar next)
termination_by chars => chars.length
decreasing_by
  · exact Nat.lt_succ_self _
  · exact Nat.lt_succ_of_le (List.dropWhile_sublist _).length_le

def normalizeJobErrorCode (value : Option String) : String :=
  match value with
  | none => "job_failed"
  | some text =>
    let lowered := (Text.trim text).toList.flatMap lowerChar
    let isBar := fun char => decide (char = '_')
    let stripped := (((squeeze lowered).dropWhile isBar).reverse.dropWhile
      isBar).reverse
    let normalized := String.ofList (stripped.take 64)
    if normalized = "" then "job_failed" else normalized

structure JobFailureResult where
  applied : Bool
  /-- The status afterwards; there is none where the job is missing. -/
  status : Option JobStatus
  availableAt : Option String
  deadAt : Option String

/-- The fence of a failure, which has both of its parts or none. -/
def JobFailureOptions.fence (options : JobFailureOptions) :
    Except String (Option JobLeaseFence) :=
  match options.workerId, options.leaseGeneration with
  | some workerId, some leaseGeneration =>
    .ok (some { workerId := workerId, leaseGeneration := leaseGeneration })
  | none, none => .ok none
  | _, _ =>
    .error "Job failure fencing requires workerId and leaseGeneration"

/-- Whether a failed job is tried again. -/
def JobFailureOptions.retries (options : JobFailureOptions) (job : JobRow) :
    Bool :=
  decide (options.retryable ≠ some false) &&
    (decide (options.retryPastMaxAttempts = some true) ||
      decide (job.attempts < job.maxAttempts))

/-- When a failed job is available again, if it is tried again. -/
def JobFailureOptions.availableAt (options : JobFailureOptions)
    (job : JobRow) (finishedAt : Instant) :
    Except String (Option String) :=
  if options.retries job then do
    let instant ← dateOf (finishedAt.ms + boundedDelayMs job.attempts
      (options.baseDelayMs.getD 1000) (options.maxDelayMs.getD 300000))
    return some instant.text
  else .ok none

/-- The row of a job which has failed. -/
def failRow (retry : Bool) (error errorCode finishedAt : String)
    (availableAt : Option String) (row : JobRow) : JobRow :=
  { row with
    status := if retry then .pending else .deadLetter
    error := some error
    errorCode := some errorCode
    lastErrorAt := some finishedAt
    availableAt := availableAt
    finishedAt := if retry then none else some finishedAt
    deadAt := if retry then none else some finishedAt
    leaseOwner := none
    leaseExpiresAt := none }

def failJob (id error : String) (finishedAt : Instant)
    (options : JobFailureOptions) (db : JobDb ρ) :
    Except String (JobFailureResult × JobDb ρ) := do
  let fence ← options.fence
  match db.job? id with
  | none =>
    return ({ applied := false, status := none, availableAt := none
              deadAt := none }, db)
  | some job => do
      let retry := options.retries job
      let availableAt ← options.availableAt job finishedAt
      let failed := changeOne db (runningRow fence finishedAt.text id)
        (failRow retry error (normalizeJobErrorCode options.errorCode)
          finishedAt.text availableAt) fun _ => rfl
      return (
        { applied := failed.applied
          status := some (
            if failed.applied then
              if retry then .pending else .deadLetter
            else job.status)
          availableAt :=
            if failed.applied then availableAt else job.availableAt
          deadAt :=
            if failed.applied && !retry then some finishedAt.text
            else job.deadAt },
        failed.db)

/-- The row of a job which is put off, without spending an attempt. -/
def rescheduleRow (runAt : String) (row : JobRow) : JobRow :=
  { row with
    status := .pending
    availableAt := some runAt
    attempts := max (row.attempts - 1) 0
    leaseOwner := none
    leaseExpiresAt := none }

def rescheduleJob (id runAt leaseOwner : String) (db : JobDb ρ) :
    Changed ρ :=
  changeOne db
    (fun row => decide (row.id = id ∧ row.status = .running ∧
      row.leaseOwner = some leaseOwner))
    (rescheduleRow runAt) fun _ => rfl

/-! ## Calls of an operator -/

structure RetryOptions where
  tenantId : Option String
  now : String
  resetAttempts : Option Bool
  discardCheckpoint : Option Bool

/-- The row of a spent job which is tried again. -/
def retryRow (options : RetryOptions) (row : JobRow) : JobRow :=
  { row with
    status := .pending
    attempts :=
      if options.resetAttempts = some false then row.attempts else 0
    error := none
    resultJson :=
      if options.discardCheckpoint = some true then none else row.resultJson
    errorCode := none
    lastErrorAt := none
    availableAt := some options.now
    startedAt := none
    finishedAt := none
    deadAt := none
    cancelledAt := none
    leaseOwner := none
    leaseExpiresAt := none }

def retryJob (id : String) (options : RetryOptions) (db : JobDb ρ) :
    Except String (Changed ρ) := do
  assertTenantScope options.tenantId
  return changeOne db
    (fun row => decide (row.id = id ∧
        row.status ∈ [.deadLetter, .failed, .cancelled]) &&
      ofTenant options.tenantId row)
    (retryRow options) fun _ => rfl

structure CancelOptions where
  tenantId : Option String
  reason : Option String

/-- The row of a job which is cancelled. -/
def cancelRow (reason cancelledAt : String) (row : JobRow) : JobRow :=
  let waiting := decide (row.status = .pending)
  { row with
    status := .cancelled
    error := if waiting then some reason else row.error
    errorCode := if waiting then some "job_cancelled" else row.errorCode
    lastErrorAt := if waiting then some cancelledAt else row.lastErrorAt
    availableAt := none
    finishedAt := if waiting then some cancelledAt else row.finishedAt
    deadAt := if waiting then none else row.deadAt
    cancelledAt := some cancelledAt
    leaseOwner := none
    leaseExpiresAt := none }

def cancelJob (id cancelledAt : String) (options : CancelOptions)
    (db : JobDb ρ) : Except String (Changed ρ) := do
  assertTenantScope options.tenantId
  let reason := (options.reason.map (Text.takeChars 500)).getD "cancelled"
  return changeOne db
    (fun row => decide (row.id = id ∧
        row.status ∈ [.pending, .deadLetter, .failed]) &&
      ofTenant options.tenantId row)
    (cancelRow reason cancelledAt) fun _ => rfl

end Mendpoint.Jobs
