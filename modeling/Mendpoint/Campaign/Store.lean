import Mendpoint.Library.Attempt
import Mendpoint.Library.Collation
import Mendpoint.Library.Table
import Mendpoint.Trust.EventAudit

/-!
# Warden campaigns

The rows of campaigns and of their targets, and the transactions which move
them.  A target is fenced by its own revision and stage, a campaign by its
revision.
-/

namespace Mendpoint.Campaign

open Mendpoint.Library
open Mendpoint.Library.Attempt
open Mendpoint.Library.Fallible
open Mendpoint.Trust

/-! ## Rows -/

inductive WardenCampaignStatus where
  | draft
  | running
  | paused
  | cancelling
  | cancelled
  | completed
  | failed
  | rollingBack
  | rolledBack
  deriving DecidableEq

inductive WardenTargetStage where
  | queued
  | analyzing
  | editing
  | verifying
  | review
  | delivering
  | completed
  | blocked
  | failed
  | cancelled
  | rollingBack
  | rolledBack
  deriving DecidableEq

inductive CompletionPolicy where
  | all
  | continueOnFailure

inductive WardenEnrollmentSource where
  | manual
  | auto

namespace WardenCampaignStatus

def text : WardenCampaignStatus → String
  | draft => "draft"
  | running => "running"
  | paused => "paused"
  | cancelling => "cancelling"
  | cancelled => "cancelled"
  | completed => "completed"
  | failed => "failed"
  | rollingBack => "rolling_back"
  | rolledBack => "rolled_back"

end WardenCampaignStatus

namespace WardenTargetStage

def text : WardenTargetStage → String
  | queued => "queued"
  | analyzing => "analyzing"
  | editing => "editing"
  | verifying => "verifying"
  | review => "review"
  | delivering => "delivering"
  | completed => "completed"
  | blocked => "blocked"
  | failed => "failed"
  | cancelled => "cancelled"
  | rollingBack => "rolling_back"
  | rolledBack => "rolled_back"

/-- The stages which take up one of the places of a campaign. -/
def isActive : WardenTargetStage → Bool
  | analyzing | editing | verifying | review | delivering => true
  | _ => false

end WardenTargetStage

structure WardenCampaign where
  id : String
  tenantId : String
  name : String
  status : WardenCampaignStatus
  ownerPrincipalId : String
  concurrencyLimit : Nat
  completionPolicy : CompletionPolicy
  revision : Nat
  createdAt : String
  updatedAt : String

/-- A target; the list of its dependencies is stored as JSON. -/
structure WardenCampaignTarget where
  id : String
  tenantId : String
  campaignId : String
  repositoryId : String
  snapshotId : String
  packageArtifactId : Option String
  ownerPrincipalId : String
  stage : WardenTargetStage
  dependsOn : List String
  attemptCount : Nat
  maxAttempts : Nat
  exceptionCode : Option String
  enrollmentSource : WardenEnrollmentSource
  enrolledInstallationId : Option String
  revision : Nat
  createdAt : String
  updatedAt : String

/-- The tables which the campaigns are in; ids are primary keys. -/
structure CampaignDb where
  principals : List Principal
  artifactManifests : List String
  campaigns : List WardenCampaign
  targets : List WardenCampaignTarget
  domainEvents : List DomainEvent
  campaignKeys : (campaigns.map WardenCampaign.id).Nodup
  targetKeys : (targets.map WardenCampaignTarget.id).Nodup

abbrev CampaignM := Attempt CampaignDb String

namespace CampaignDb

def campaign? (db : CampaignDb) (tenantId id : String) :
    Option WardenCampaign :=
  db.campaigns.find? fun row =>
    decide (row.id = id ∧ row.tenantId = tenantId)

def target? (db : CampaignDb) (tenantId campaignId id : String) :
    Option WardenCampaignTarget :=
  db.targets.find? fun row =>
    decide (row.id = id ∧ row.tenantId = tenantId ∧
      row.campaignId = campaignId)

def updateCampaigns (db : CampaignDb) (selected : WardenCampaign → Bool)
    (change : WardenCampaign → WardenCampaign)
    (kept : ∀ row, (change row).id = row.id) : CampaignDb :=
  { db with
    campaigns := Table.update selected change db.campaigns
    campaignKeys := by
      rw [Table.map_key_update kept]
      exact db.campaignKeys }

def updateTargets (db : CampaignDb)
    (selected : WardenCampaignTarget → Bool)
    (change : WardenCampaignTarget → WardenCampaignTarget)
    (kept : ∀ row, (change row).id = row.id) : CampaignDb :=
  { db with
    targets := Table.update selected change db.targets
    targetKeys := by
      rw [Table.map_key_update kept]
      exact db.targetKeys }

def withLog (db : CampaignDb) (log : List DomainEvent) : CampaignDb :=
  { db with domainEvents := log }

end CampaignDb

/-! ## Checks and events -/

def assertPrincipal (db : CampaignDb) (tenantId principalId : String) :
    Except String PUnit :=
  throwIf
    (∀ principal ∈ db.principals,
      ¬ (principal.id = principalId ∧ principal.tenantId = tenantId ∧
        principal.revokedAt = none))
    "warden_principal_tenant_mismatch"

/-- What every writer says about its event. -/
structure EventDetails where
  actorPrincipalId : String
  eventId : String
  idempotencyKey : String
  correlationId : String
  causationId : Option String
  createdAt : String

/-- The event of a campaign. -/
def EventDetails.event (details : EventDetails)
    (tenantId campaignId eventType : String) (payload : Written) :
    EventInput where
  id := details.eventId
  tenantId := tenantId
  schemaVersion := 1
  eventType := eventType
  aggregateType := "warden_campaign"
  aggregateId := campaignId
  actorPrincipalId := details.actorPrincipalId
  correlationId := details.correlationId
  causationId := details.causationId
  idempotencyKey := details.idempotencyKey
  payload := payload
  createdAt := details.createdAt

/-- Write the event of a change, or fail. -/
def record (sha256 : String → String) (db : CampaignDb)
    (input : EventInput) : Except String CampaignDb := do
  let appended ← appendDomainEvent sha256 db.principals db.domainEvents input
  return db.withLog appended.log

/-! ## Campaigns -/

def campaignTransitions :
    WardenCampaignStatus → List WardenCampaignStatus
  | .draft => [.running, .cancelled]
  | .running => [.paused, .cancelling, .completed, .failed, .rollingBack]
  | .paused => [.running, .cancelling, .rollingBack]
  | .cancelling => [.cancelled]
  | .cancelled => []
  | .completed => [.rollingBack]
  | .failed => [.running, .rollingBack]
  | .rollingBack => [.rolledBack, .failed]
  | .rolledBack => []

structure CampaignTransition extends EventDetails where
  tenantId : String
  campaignId : String
  expectedRevision : Nat
  toStatus : WardenCampaignStatus

/-- The row which a transition of a campaign selects. -/
def CampaignTransition.selects (input : CampaignTransition)
    (row : WardenCampaign) : Bool :=
  decide (row.id = input.campaignId ∧ row.tenantId = input.tenantId ∧
    row.revision = input.expectedRevision)

def CampaignTransition.change (input : CampaignTransition)
    (row : WardenCampaign) : WardenCampaign :=
  { row with
    status := input.toStatus
    revision := row.revision + 1
    updatedAt := input.createdAt }

def CampaignTransition.event (input : CampaignTransition)
    (current : WardenCampaign) : EventInput :=
  input.toEventDetails.event input.tenantId input.campaignId
    "warden.campaign.transitioned"
    (.obj [("from", .str current.status.text),
      ("to", .str input.toStatus.text),
      ("previousRevision", .int current.revision),
      ("revision", .int (current.revision + 1))])

def transitionWardenCampaign (sha256 : String → String)
    (input : CampaignTransition) : CampaignM WardenCampaign := do
  let db ← get
  assertPrincipal db input.tenantId input.actorPrincipalId
  transaction do
    let current ← demand (db.campaign? input.tenantId input.campaignId)
      "warden_campaign_not_found"
    throwIf (current.revision ≠ input.expectedRevision)
      "warden_revision_conflict"
    throwIf (input.toStatus ∉ campaignTransitions current.status)
      "warden_transition_invalid"
    throwIf (Table.changes input.selects db.campaigns ≠ 1)
      "warden_revision_conflict"
    let changed ← record sha256
      (db.updateCampaigns input.selects input.change fun _ => rfl)
      (input.event current)
    set changed
    demand (changed.campaigns.find? fun row =>
      decide (row.id = input.campaignId)) "warden_campaign_not_found"

/-! ## Targets -/

/-- `ORDER BY created_at, id`. -/
def listWardenCampaignTargets (db : CampaignDb)
    (tenantId campaignId : String) : List WardenCampaignTarget :=
  Collation.ordinal.sortByThen WardenCampaignTarget.createdAt
    WardenCampaignTarget.id
    (db.targets.filter fun row =>
      decide (row.tenantId = tenantId ∧ row.campaignId = campaignId))

/-- The ids of the completed targets among some. -/
def completedIds (targets : List WardenCampaignTarget) : List String :=
  (targets.filter fun item => decide (item.stage = .completed)).map
    WardenCampaignTarget.id

/-- The number of targets among some which take up a place. -/
def activeCount (targets : List WardenCampaignTarget) : Nat :=
  (targets.filter fun item => item.stage.isActive).length

/-- A target may be claimed beside the other targets of its campaign. -/
def isReady (targets : List WardenCampaignTarget)
    (item : WardenCampaignTarget) : Bool :=
  decide (item.stage = .queued) &&
    decide (item.attemptCount < item.maxAttempts) &&
    item.dependsOn.all fun id => decide (id ∈ completedIds targets)

def claimReadyWardenTargets (db : CampaignDb)
    (tenantId campaignId : String) : List WardenCampaignTarget :=
  match db.campaign? tenantId campaignId with
  | none => []
  | some parent =>
    if parent.status ≠ .running then []
    else
      let targets := listWardenCampaignTargets db tenantId campaignId
      (targets.filter (isReady targets)).take
        (parent.concurrencyLimit - activeCount targets)

def targetTransitions : WardenTargetStage → List WardenTargetStage
  | .queued => [.analyzing, .cancelled]
  | .analyzing => [.editing, .blocked, .failed, .cancelled]
  | .editing => [.verifying, .blocked, .failed, .cancelled]
  | .verifying => [.review, .blocked, .failed, .cancelled]
  | .review => [.delivering, .blocked, .failed, .cancelled]
  | .delivering => [.completed, .blocked, .failed]
  | .completed => [.rollingBack]
  | .blocked => [.queued, .cancelled]
  | .failed => [.queued, .rollingBack, .cancelled]
  | .cancelled => []
  | .rollingBack => [.rolledBack, .failed]
  | .rolledBack => []

structure TargetTransition extends EventDetails where
  tenantId : String
  campaignId : String
  targetId : String
  expectedRevision : Nat
  fromStage : WardenTargetStage
  toStage : WardenTargetStage
  packageArtifactId : Option String
  exceptionCode : Option String

namespace TargetTransition

/-- The row which a transition of a target selects. -/
def selects (input : TargetTransition) (row : WardenCampaignTarget) : Bool :=
  decide (row.id = input.targetId ∧ row.tenantId = input.tenantId ∧
    row.campaignId = input.campaignId ∧
    row.revision = input.expectedRevision ∧ row.stage = input.fromStage)

/-- The attempts of a target; a start is a new one. -/
def attempts (input : TargetTransition) (current : WardenCampaignTarget) :
    Nat :=
  if input.fromStage = .queued ∧ input.toStage = .analyzing then
    current.attemptCount + 1
  else current.attemptCount

def change (input : TargetTransition) (current row : WardenCampaignTarget) :
    WardenCampaignTarget :=
  { row with
    stage := input.toStage
    packageArtifactId := input.packageArtifactId <|> row.packageArtifactId
    exceptionCode := input.exceptionCode
    attemptCount := input.attempts current
    revision := row.revision + 1
    updatedAt := input.createdAt }

def event (input : TargetTransition) (current : WardenCampaignTarget) :
    EventInput :=
  input.toEventDetails.event input.tenantId input.campaignId
    "warden.target.transitioned"
    (.obj [("targetId", .str input.targetId),
      ("from", .str input.fromStage.text),
      ("to", .str input.toStage.text),
      ("previousRevision", .int current.revision),
      ("revision", .int (current.revision + 1)),
      ("packageArtifactId", writtenText input.packageArtifactId),
      ("exceptionCode", writtenText input.exceptionCode)])

end TargetTransition

def transitionWardenTarget (sha256 : String → String)
    (input : TargetTransition) : CampaignM WardenCampaignTarget := do
  let db ← get
  assertPrincipal db input.tenantId input.actorPrincipalId
  throwIf (input.toStage ∉ targetTransitions input.fromStage)
    "warden_target_transition_invalid"
  throwIf (input.toStage = .review ∧
      (input.packageArtifactId = none ∨ input.packageArtifactId = some ""))
    "warden_pr_package_required"
  transaction do
    let current ← demand
      (db.target? input.tenantId input.campaignId input.targetId)
      "warden_target_not_found"
    throwIf (current.revision ≠ input.expectedRevision ∨
        current.stage ≠ input.fromStage)
      "warden_revision_conflict"
    throwIf (current.maxAttempts < input.attempts current)
      "warden_attempts_exhausted"
    throwIf (∃ id ∈ input.packageArtifactId, id ∉ db.artifactManifests)
      "FOREIGN KEY constraint failed"
    throwIf (Table.changes input.selects db.targets ≠ 1)
      "warden_revision_conflict"
    let changed ← record sha256
      (db.updateTargets input.selects (input.change current) fun _ => rfl)
      (input.event current)
    set changed
    demand (changed.targets.find? fun row =>
      decide (row.id = input.targetId)) "warden_target_not_found"

end Mendpoint.Campaign
