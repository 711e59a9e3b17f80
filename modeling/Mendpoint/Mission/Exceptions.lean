import Mathlib.Data.List.Basic
import Mendpoint.Library.Collation
import Mendpoint.Library.IsoTime
import Mendpoint.Library.OrderedMap
import Mendpoint.Library.Succession
import Mendpoint.Mission.Tasks

/-!
# The exception register of missions

An exception is a row known by the digest of its content.  It is raised as an
open one, and a row which supersedes it resolves, withdraws or reaffirms it.
-/

namespace Mendpoint.Mission.Exceptions

open Mendpoint.Library
open Mendpoint.Library.Fallible
open Mendpoint.Library.IsoTime (Instant)
open Mendpoint.Trust

/-! ## Rows -/

inductive MissionExceptionStatus where
  | opened
  | resolved
  | withdrawn
  deriving DecidableEq

def MissionExceptionStatus.text : MissionExceptionStatus → String
  | .opened => "open"
  | .resolved => "resolved"
  | .withdrawn => "withdrawn"

structure SnapshotIdentity where
  snapshotId : String
  resolvedSha : String

/-- What the digest of an exception is about. -/
structure ExceptionContent where
  tenantId : String
  missionId : String
  reason : String
  impact : String
  ownerPrincipalId : String
  resolutionPath : String
  blocking : Bool
  status : MissionExceptionStatus
  observedSnapshotId : Option String
  observedResolvedSha : Option String
  supersedesId : Option String
  createdAt : String
  deriving DecidableEq

structure MissionException extends ExceptionContent where
  id : String
  contentDigest : String
  taskId : Option String
  category : Option String
  deriving DecidableEq

/-- A row of `repository_snapshots`. -/
structure ResolvedSnapshot extends SnapshotIdentity where
  tenantId : String

/-- The tables which the register reads, or writes beside its own. -/
structure Surroundings where
  principals : List Principal
  missions : List MissionKey
  repositorySnapshots : List ResolvedSnapshot
  dispatches : List MutationDispatch
  domainEvents : List DomainEvent

structure ExceptionDb extends Surroundings where
  exceptions : List MissionException

/-- The exception of a tenant with an id. -/
def ExceptionDb.exception? (db : ExceptionDb) (tenantId id : String) :
    Option MissionException :=
  db.exceptions.find? fun row =>
    decide (row.id = id ∧ row.tenantId = tenantId)

/-! ## Contents -/

def MISSION_EXCEPTION_CATEGORIES : List String :=
  ["graph_incomplete", "high_risk_change", "ambiguous_requirement",
    "policy_exception", "verification_failure",
    "architecture_decision_required", "other"]

/-- A control character other than a tab or the end of a line. -/
def isForbiddenControl (char : Char) : Bool :=
  decide (char.toNat < 0x20 ∧ char.toNat ≠ 9 ∧ char.toNat ≠ 10 ∧
    char.toNat ≠ 13)

def boundedText (value code : String) (max : Nat) : Except String String := do
  let trimmed := Text.trim value
  throwIf ((Text.codeUnits trimmed).length < 1 ∨
    max < (Text.codeUnits trimmed).length) code
  throwIf (trimmed.toList.any isForbiddenControl = true) code
  return trimmed

def exactUtc (value code : String) : Except String String := do
  throwIf ((Instant.parse? value).isNone = true) code
  return value

def normalizeExceptionCategory (value : Option String) :
    Except String (Option String) :=
  match value with
  | none => .ok none
  | some category =>
    if category = "" then .ok none
    else if category ∈ MISSION_EXCEPTION_CATEGORIES then .ok (some category)
    else .error "mission_exception_category_invalid"

def normalizeTaskId (value : Option String) :
    Except String (Option String) :=
  match value with
  | none => .ok none
  | some taskId =>
    if taskId = "" then .ok none
    else do
      let bounded ← boundedText taskId "mission_exception_task_id_invalid" 256
      return some bounded

def exceptionDigestBody (input : ExceptionContent) : Written :=
  .obj [
    ("kind", .str "mission_exception"),
    ("schemaVersion", .int 1),
    ("tenantId", .str input.tenantId),
    ("missionId", .str input.missionId),
    ("reason", .str input.reason),
    ("impact", .str input.impact),
    ("ownerPrincipalId", .str input.ownerPrincipalId),
    ("resolutionPath", .str input.resolutionPath),
    ("blocking", .bool input.blocking),
    ("status", .str input.status.text),
    ("observedSnapshotId", writtenText input.observedSnapshotId),
    ("observedResolvedSha", writtenText input.observedResolvedSha),
    ("supersedesId", writtenText input.supersedesId),
    ("createdAt", .str input.createdAt)]

def contentDigest (sha256 : String → String) (body : Written) : String :=
  sha256 body.canonical

/-- The id of the row with a content. -/
def ExceptionContent.digest (sha256 : String → String)
    (content : ExceptionContent) : String :=
  contentDigest sha256 (exceptionDigestBody content)

def hydrate (sha256 : String → String) (row : MissionException) :
    Except String MissionException := do
  throwIf
    (row.toExceptionContent.digest sha256 ≠ row.contentDigest ∨
      row.contentDigest ≠ row.id)
    "mission_exception_corrupt"
  return row

/-! ## Checks -/

def assertMissionScope (db : Surroundings) (tenantId missionId : String) :
    Except String PUnit :=
  throwIf
    (∀ mission ∈ db.missions,
      ¬ (mission.id = missionId ∧ mission.tenantId = tenantId))
    "mission_record_mission_not_found"

def assertRecordPrincipal (db : Surroundings)
    (tenantId principalId code : String) : Except String PUnit :=
  throwIf
    (∀ principal ∈ db.principals,
      ¬ (principal.id = principalId ∧ principal.tenantId = tenantId ∧
        principal.revokedAt = none))
    code

def resolveObservedSnapshot (db : Surroundings) (tenantId : String)
    (binding : SnapshotIdentity) : Except String SnapshotIdentity :=
  match db.repositorySnapshots.find? fun row =>
      decide (row.snapshotId = binding.snapshotId ∧
        row.tenantId = tenantId) with
  | none => .error "mission_exception_snapshot_not_found"
  | some row =>
    if row.resolvedSha ≠ binding.resolvedSha then
      .error "mission_exception_snapshot_binding_mismatch"
    else .ok binding

/-! ## Inserting a row -/

/-- A content with what its row and its event say beside it. -/
structure ExceptionInput extends ExceptionContent where
  eventType : String
  actorPrincipalId : String
  correlationId : String
  causationId : Option String
  taskId : Option String
  category : Option String

namespace ExceptionInput

def event (input : ExceptionInput) (digest : String) : EventInput where
  id := "mission-exception:" ++ digest
  tenantId := input.tenantId
  schemaVersion := 1
  eventType := input.eventType
  aggregateType := "mission"
  aggregateId := input.missionId
  actorPrincipalId := input.actorPrincipalId
  correlationId := input.correlationId
  causationId := input.causationId
  idempotencyKey := "mission-exception:" ++ digest
  payload := .obj [
    ("exceptionId", .str digest),
    ("status", .str input.status.text),
    ("blocking", .bool input.blocking),
    ("supersedesId", writtenText input.supersedesId)]
  createdAt := input.createdAt

end ExceptionInput

/-- The constraints of the tables on a new row. -/
def checkConstraints (db : ExceptionDb) (row : MissionException) :
    Except String PUnit := do
  throwIf (∃ other ∈ db.exceptions, other.id = row.id)
    "UNIQUE constraint failed: mission_exceptions.id"
  throwIf (row.contentDigest.length ≠ 64)
    "CHECK constraint failed: length(content_digest) = 64"
  throwIf (row.observedSnapshotId.isSome ≠ row.observedResolvedSha.isSome)
    "CHECK constraint failed: observed_snapshot_id"
  throwIf
    (row.supersedesId ≠ none ∧ ∃ other ∈ db.exceptions,
      other.tenantId = row.tenantId ∧ other.supersedesId = row.supersedesId)
    ("UNIQUE constraint failed: mission_exceptions.tenant_id, " ++
      "mission_exceptions.supersedes_id")
  throwIf
    ((∀ mission ∈ db.missions,
        ¬ (mission.id = row.missionId ∧ mission.tenantId = row.tenantId)) ∨
      (∀ principal ∈ db.principals, principal.id ≠ row.ownerPrincipalId) ∨
      (∃ snapshotId ∈ row.observedSnapshotId,
        ∀ snapshot ∈ db.repositorySnapshots,
          ¬ (snapshot.snapshotId = snapshotId ∧
            snapshot.tenantId = row.tenantId)) ∨
      (∃ prior ∈ row.supersedesId,
        ∀ other ∈ db.exceptions, other.id ≠ prior))
    "FOREIGN KEY constraint failed"

/-- What a call answers, and the database afterwards. -/
structure Recorded where
  exception : MissionException
  db : ExceptionDb

def insertException (sha256 : String → String) (db : ExceptionDb)
    (input : ExceptionInput) : Except String Recorded := do
  let digest := input.toExceptionContent.digest sha256
  match db.exception? input.tenantId digest with
  | some existing =>
    let value ← hydrate sha256 existing
    return { exception := value, db := db }
  | none =>
    let taskId ← normalizeTaskId input.taskId
    let category ← normalizeExceptionCategory input.category
    let row : MissionException :=
      { toExceptionContent := input.toExceptionContent
        id := digest
        contentDigest := digest
        taskId := taskId
        category := category }
    checkConstraints db row
    let appended ← appendDomainEvent sha256 db.principals db.domainEvents
      (input.event digest)
    let value ← hydrate sha256 row
    pure
      { exception := value
        db :=
          { db with
            domainEvents := appended.log
            exceptions := db.exceptions ++ [row] } }

/-- Revoke what is authorized for a mission where a condition holds. -/
def revokeWhere (condition : Bool) (db : ExceptionDb)
    (tenantId missionId observedAt : String) : Except String ExceptionDb :=
  if condition then do
    let dispatches ← revokePendingMissionMutationDispatches db.dispatches
      tenantId missionId observedAt
    return { db with dispatches := dispatches }
  else .ok db

/-! ## Raising an exception -/

structure RaiseInput where
  tenantId : String
  missionId : String
  reason : String
  impact : String
  ownerPrincipalId : String
  resolutionPath : String
  blocking : Bool
  observedAgainst : Option SnapshotIdentity
  correlationId : String
  causationId : Option String
  createdAt : String
  taskId : Option String
  category : Option String

/-- The record of a raise with the texts and the snapshot it has read. -/
def RaiseInput.record (input : RaiseInput)
    (reason impact resolutionPath correlationId : String)
    (bound : Option SnapshotIdentity) : ExceptionInput where
  tenantId := input.tenantId
  missionId := input.missionId
  reason := reason
  impact := impact
  ownerPrincipalId := input.ownerPrincipalId
  resolutionPath := resolutionPath
  blocking := input.blocking
  status := .opened
  observedSnapshotId := bound.map SnapshotIdentity.snapshotId
  observedResolvedSha := bound.map SnapshotIdentity.resolvedSha
  supersedesId := none
  eventType := "mission.exception_raised"
  actorPrincipalId := input.ownerPrincipalId
  correlationId := correlationId
  causationId := input.causationId
  createdAt := input.createdAt
  taskId := input.taskId
  category := input.category

def raiseMissionException (sha256 : String → String) (input : RaiseInput)
    (db : ExceptionDb) : Except String Recorded := do
  let reason ← boundedText input.reason "mission_exception_reason_invalid" 4000
  let impact ← boundedText input.impact "mission_exception_impact_invalid" 4000
  let resolutionPath ← boundedText input.resolutionPath
    "mission_exception_resolution_invalid" 4000
  let correlationId ← boundedText input.correlationId
    "mission_exception_correlation_invalid" 256
  let _ ← exactUtc input.createdAt "mission_exception_created_at_invalid"
  assertMissionScope db.toSurroundings input.tenantId input.missionId
  assertRecordPrincipal db.toSurroundings input.tenantId
    input.ownerPrincipalId "mission_exception_owner_tenant_mismatch"
  let bound ← input.observedAgainst.mapM
    (resolveObservedSnapshot db.toSurroundings input.tenantId)
  let record := input.record reason impact resolutionPath correlationId bound
  match db.exception? input.tenantId
      (record.toExceptionContent.digest sha256) with
  | some existing =>
    let value ← hydrate sha256 existing
    return { exception := value, db := db }
  | none =>
    let fenced ← revokeWhere input.blocking db input.tenantId
      input.missionId input.createdAt
    insertException sha256 fenced record

/-! ## Superseding an exception -/

def loadHead (db : ExceptionDb) (tenantId priorId : String) :
    Except String MissionException := do
  match db.exception? tenantId priorId with
  | none => .error "mission_exception_prior_not_found"
  | some prior =>
    throwIf
      (∃ row ∈ db.exceptions,
        row.tenantId = tenantId ∧ row.supersedesId = some priorId)
      "mission_exception_already_superseded"
    return prior

structure TransitionInput where
  tenantId : String
  priorExceptionId : String
  status : MissionExceptionStatus
  blocking : Bool
  observed : Option SnapshotIdentity
  eventType : String
  actorPrincipalId : String
  note : Option String
  correlationId : String
  causationId : Option String
  createdAt : String

/-- The record of the row which supersedes a prior one. -/
def TransitionInput.record (input : TransitionInput)
    (prior : MissionException) : ExceptionInput where
  tenantId := input.tenantId
  missionId := prior.missionId
  reason := prior.reason
  impact := prior.impact
  ownerPrincipalId := prior.ownerPrincipalId
  resolutionPath := input.note.getD prior.resolutionPath
  blocking := input.blocking
  status := input.status
  observedSnapshotId := input.observed.map SnapshotIdentity.snapshotId
  observedResolvedSha := input.observed.map SnapshotIdentity.resolvedSha
  supersedesId := some input.priorExceptionId
  eventType := input.eventType
  actorPrincipalId := input.actorPrincipalId
  correlationId := input.correlationId
  causationId := input.causationId
  createdAt := input.createdAt
  taskId := prior.taskId
  category := prior.category

def transition (sha256 : String → String) (input : TransitionInput)
    (db : ExceptionDb) : Except String Recorded := do
  let prior ← loadHead db input.tenantId input.priorExceptionId
  let fenced ← revokeWhere
    (decide (input.status = .opened) && input.blocking) db input.tenantId
    prior.missionId input.createdAt
  insertException sha256 fenced (input.record prior)

/-- What a call which supersedes an exception says. -/
structure SupersedeInput where
  tenantId : String
  priorExceptionId : String
  actorPrincipalId : String
  correlationId : String
  causationId : Option String
  createdAt : String

/-- Check what a call says, and read its correlation id. -/
def SupersedeInput.check (input : SupersedeInput) (db : ExceptionDb) :
    Except String String := do
  let correlationId ← boundedText input.correlationId
    "mission_exception_correlation_invalid" 256
  let _ ← exactUtc input.createdAt "mission_exception_created_at_invalid"
  assertRecordPrincipal db.toSurroundings input.tenantId
    input.actorPrincipalId "mission_exception_owner_tenant_mismatch"
  return correlationId

/-- Close an exception with a note. -/
def closeException (status : MissionExceptionStatus) (eventType : String)
    (sha256 : String → String) (input : SupersedeInput) (text : String)
    (db : ExceptionDb) : Except String Recorded := do
  let note ← boundedText text "mission_exception_resolution_invalid" 4000
  let correlationId ← input.check db
  transition sha256
    { tenantId := input.tenantId
      priorExceptionId := input.priorExceptionId
      status := status
      blocking := false
      observed := none
      eventType := eventType
      actorPrincipalId := input.actorPrincipalId
      note := some note
      correlationId := correlationId
      causationId := input.causationId
      createdAt := input.createdAt }
    db

def resolveMissionException (sha256 : String → String)
    (input : SupersedeInput) (resolutionNote : String) (db : ExceptionDb) :
    Except String Recorded :=
  closeException .resolved "mission.exception_resolved" sha256 input
    resolutionNote db

def withdrawMissionException (sha256 : String → String)
    (input : SupersedeInput) (rationale : String) (db : ExceptionDb) :
    Except String Recorded :=
  closeException .withdrawn "mission.exception_withdrawn" sha256 input
    rationale db

def reaffirmMissionException (sha256 : String → String)
    (input : SupersedeInput) (blocking : Bool)
    (observedAgainst : SnapshotIdentity) (db : ExceptionDb) :
    Except String Recorded := do
  let correlationId ← input.check db
  let bound ← resolveObservedSnapshot db.toSurroundings input.tenantId
    observedAgainst
  transition sha256
    { tenantId := input.tenantId
      priorExceptionId := input.priorExceptionId
      status := .opened
      blocking := blocking
      observed := some bound
      eventType := "mission.exception_reaffirmed"
      actorPrincipalId := input.actorPrincipalId
      note := none
      correlationId := correlationId
      causationId := input.causationId
      createdAt := input.createdAt }
    db

/-! ## Evaluation -/

inductive MissionExceptionStanding where
  | blocking
  | nonBlockingOpen
  | stale
  | resolved
  | withdrawn
  deriving DecidableEq

/-- The standing of an open exception which counts. -/
def openStanding (row : MissionException) : MissionExceptionStanding :=
  if row.blocking then .blocking else .nonBlockingOpen

def standingOf (row : MissionException) (current : Option SnapshotIdentity) :
    MissionExceptionStanding :=
  match row.status with
  | .resolved => .resolved
  | .withdrawn => .withdrawn
  | .opened =>
    match row.observedSnapshotId with
    | none => openStanding row
    | some snapshotId =>
      if ∃ here ∈ current, here.snapshotId = snapshotId ∧
          some here.resolvedSha = row.observedResolvedSha then
        openStanding row
      else .stale

structure MissionExceptionView extends MissionException where
  standing : MissionExceptionStanding
  supersededById : Option String

structure MissionExceptionEvaluation where
  missionBlocked : Bool
  blocking : List MissionExceptionView
  stale : List MissionExceptionView
  nonBlockingOpen : List MissionExceptionView
  resolved : List MissionExceptionView
  withdrawn : List MissionExceptionView

/-- The rows of a mission, in the order of their times and ids. -/
def missionRows (db : ExceptionDb) (tenantId missionId : String) :
    List MissionException :=
  Collation.ordinal.sortByThen (fun row => row.createdAt) (fun row => row.id)
    (db.exceptions.filter fun row =>
      decide (row.tenantId = tenantId ∧ row.missionId = missionId))

/-- Tell by which row the one is superseded which a row names. -/
def setSuperseded (map : OrderedMap String String) (row : MissionException) :
    OrderedMap String String :=
  match row.supersedesId with
  | some prior => if prior = "" then map else map.set prior row.id
  | none => map

/-- The ids which rows supersede, with the ids of the rows. -/
def supersededBy (rows : List MissionException) : OrderedMap String String :=
  rows.foldl setSuperseded OrderedMap.empty

/-- The text which a map holds, where it counts as true. -/
def truthy (found : Option String) : Bool :=
  match found with
  | some text => decide (text ≠ "")
  | none => false

/-- A row with its standing. -/
def MissionException.view (row : MissionException)
    (current : Option SnapshotIdentity) (supersededById : Option String) :
    MissionExceptionView where
  toMissionException := row
  standing := standingOf row current
  supersededById := supersededById

def evaluateMissionExceptions (sha256 : String → String) (db : ExceptionDb)
    (tenantId missionId : String) (current : Option SnapshotIdentity) :
    Except String MissionExceptionEvaluation := do
  let rows := missionRows db tenantId missionId
  let superseded := supersededBy rows
  let heads := rows.filter fun row => !truthy (superseded.get? row.id)
  let views ← heads.mapM fun row => do
    let value ← hydrate sha256 row
    return value.view current (superseded.get? row.id)
  let standing := fun wanted =>
    views.filter fun view => decide (view.standing = wanted)
  pure
    { missionBlocked := decide (0 < (standing .blocking).length)
      blocking := standing .blocking
      stale := standing .stale
      nonBlockingOpen := standing .nonBlockingOpen
      resolved := standing .resolved
      withdrawn := standing .withdrawn }

end Mendpoint.Mission.Exceptions
