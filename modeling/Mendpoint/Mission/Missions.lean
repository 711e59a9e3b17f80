import Mendpoint.Library.Attempt
import Mendpoint.Library.Numbers
import Mendpoint.Mission.Tasks

/-!
# Missions

The rows of missions and their writers.  Each writer changes one row and
appends one event, in a transaction of its own.
-/

namespace Mendpoint.Missions

open Mendpoint.Library
open Mendpoint.Library.Attempt
open Mendpoint.Library.Fallible
open Mendpoint.Mission (EventDetails MutationDispatch
  revokePendingMissionMutationDispatches)
open Mendpoint.Trust

/-! ## Rows -/

inductive MissionProduct where
  | fettler
  | regauge
  deriving DecidableEq

inductive MissionTriggerKind where
  | providerChange
  | migrationObjective
  deriving DecidableEq

inductive MissionState where
  | created
  | discovering
  | inScope
  | planning
  | executing
  | verifying
  | awaitingReview
  | accepted
  | rejected
  | partly
  | failed
  | cancelled
  deriving DecidableEq

def MissionProduct.text : MissionProduct → String
  | .fettler => "fettler"
  | .regauge => "regauge"

def MissionTriggerKind.text : MissionTriggerKind → String
  | .providerChange => "provider_change"
  | .migrationObjective => "migration_objective"

namespace MissionState

def text : MissionState → String
  | created => "created"
  | discovering => "discovering"
  | inScope => "scoped"
  | planning => "planning"
  | executing => "executing"
  | verifying => "verifying"
  | awaitingReview => "awaiting_review"
  | accepted => "accepted"
  | rejected => "rejected"
  | partly => "partial"
  | failed => "failed"
  | cancelled => "cancelled"

theorem text_injective {left right : MissionState}
    (same : left.text = right.text) : left = right := by
  cases left <;> cases right <;> first | rfl | exact absurd same (by decide)

/-- The states which a mission in a state may move to. -/
def transitions : MissionState → List MissionState
  | created => [discovering, cancelled]
  | discovering => [inScope, failed, cancelled]
  | inScope => [planning, executing, failed, cancelled]
  | planning => [executing, failed, cancelled]
  | executing => [verifying, failed, cancelled]
  | verifying => [awaitingReview, failed, cancelled]
  | awaitingReview => [accepted, rejected, partly, failed, cancelled]
  | accepted => []
  | rejected => []
  | partly => []
  | failed => []
  | cancelled => []

/-- A state in which a mission has ended. -/
def isTerminal : MissionState → Bool
  | accepted | rejected | partly | failed | cancelled => true
  | _ => false

theorem isTerminal_iff {state : MissionState} :
    state.isTerminal = true ↔ state.transitions = [] := by
  cases state <;> decide

end MissionState

structure Mission where
  id : String
  tenantId : String
  product : MissionProduct
  state : MissionState
  triggerKind : MissionTriggerKind
  objective : String
  repositoryId : Option String
  snapshotId : Option String
  fettlerCampaignId : Option String
  regaugeCampaignId : Option String
  graphVersionId : Option String
  policyEnvelopeVersion : Option String
  ownerPrincipalId : String
  revision : Nat
  createdAt : String
  updatedAt : String

/-- A record of a tenant which the writers only look up. -/
structure TenantRecord where
  id : String
  tenantId : String

structure RepositorySnapshot where
  id : String
  tenantId : String
  repositoryId : String

structure PolicyEnvelope where
  tenantId : String
  version : Int

/-- The tables of missions; their ids are a primary key. -/
structure MissionDb where
  principals : List Principal
  connectedRepositories : List TenantRecord
  repositorySnapshots : List RepositorySnapshot
  fettlerCampaigns : List TenantRecord
  policyEnvelopes : List PolicyEnvelope
  dispatches : List MutationDispatch
  missions : List Mission
  domainEvents : List DomainEvent
  missionKeys : (missions.map Mission.id).Nodup

namespace MissionDb

def mission? (db : MissionDb) (tenantId id : String) : Option Mission :=
  db.missions.find? fun row => decide (row.id = id ∧ row.tenantId = tenantId)

def updateMissions (db : MissionDb) (selected : Mission → Bool)
    (change : Mission → Mission) (kept : ∀ row, (change row).id = row.id) :
    MissionDb :=
  { db with
    missions := Table.update selected change db.missions
    missionKeys := by
      rw [Table.map_key_update kept]
      exact db.missionKeys }

def insertMission (db : MissionDb) (mission : Mission)
    (fresh : ∀ row ∈ db.missions, row.id ≠ mission.id) : MissionDb :=
  { db with
    missions := db.missions ++ [mission]
    missionKeys := by
      rw [List.map_append, List.map_singleton, ← List.concat_eq_append,
        List.nodup_concat]
      refine ⟨fun member => ?_, db.missionKeys⟩
      rcases List.mem_map.mp member with ⟨row, inside, same⟩
      exact fresh row inside same }

end MissionDb

/-! ## Events -/

/-- What the writers say in their events. -/
inductive MissionEvent where
  | created (product : MissionProduct) (triggerKind : MissionTriggerKind)
  | transitioned (source target : MissionState) (previousRevision : Nat)
  | scopeBound (repositoryId snapshotId : String) (previousRevision : Nat)
  | graphVersionBound (graphVersionId : String) (previousRevision : Nat)
  | policyEnvelopeBound (version : String) (previousRevision : Nat)
  | policyEnvelopeAdvanced (version next authorityRef : String)
      (previousRevision : Nat)
  | fettlerCampaignLinked (campaignId : String)
  | regaugeCampaignLinked (campaignId : String)

namespace MissionEvent

def eventType : MissionEvent → String
  | created _ _ => "mission.created"
  | transitioned _ _ _ => "mission.transitioned"
  | scopeBound _ _ _ => "mission.scope_bound"
  | graphVersionBound _ _ => "mission.graph_version_bound"
  | policyEnvelopeBound _ _ => "mission.policy_envelope_bound"
  | policyEnvelopeAdvanced _ _ _ _ => "mission.policy_envelope_advanced"
  | fettlerCampaignLinked _ => "mission.fettler_campaign_linked"
  | regaugeCampaignLinked _ => "mission.regauge_campaign_linked"

/-- The fields of a payload which tell the revision. -/
def revised (previousRevision : Nat) : List (String × Written) :=
  [("previousRevision", .int previousRevision),
    ("revision", .int (previousRevision + 1))]

def payload : MissionEvent → Written
  | created product triggerKind =>
    .obj [
      ("product", .str product.text),
      ("triggerKind", .str triggerKind.text),
      ("state", .str "created"),
      ("revision", .int 1)]
  | transitioned source target previousRevision =>
    .obj (("from", .str source.text) :: ("to", .str target.text) ::
      revised previousRevision)
  | scopeBound repositoryId snapshotId previousRevision =>
    .obj (("repositoryId", .str repositoryId) ::
      ("snapshotId", .str snapshotId) :: revised previousRevision)
  | graphVersionBound graphVersionId previousRevision =>
    .obj (("graphVersionId", .str graphVersionId) ::
      revised previousRevision)
  | policyEnvelopeBound version previousRevision =>
    .obj (("policyEnvelopeVersion", .str version) ::
      revised previousRevision)
  | policyEnvelopeAdvanced version next authorityRef previousRevision =>
    .obj (("fromPolicyEnvelopeVersion", .str version) ::
      ("toPolicyEnvelopeVersion", .str next) ::
      ("authorityRef", .str authorityRef) :: revised previousRevision)
  | fettlerCampaignLinked campaignId =>
    .obj [("campaignId", .str campaignId)]
  | regaugeCampaignLinked campaignId =>
    .obj [("regaugeCampaignId", .str campaignId)]

end MissionEvent

/-- The event of a mission which tells of a change. -/
def event (details : EventDetails) (tenantId missionId : String)
    (told : MissionEvent) : EventInput :=
  details.event tenantId "mission" missionId told.eventType told.payload

/-! ## Steps of the writers -/

def required (name value : String) : Except String String :=
  requiredText 256 name value

def assertPrincipal (db : MissionDb) (tenantId principalId : String) :
    Except String PUnit :=
  throwIf
    (∀ principal ∈ db.principals,
      ¬ (principal.id = principalId ∧ principal.tenantId = tenantId ∧
        principal.revokedAt = none))
    "mission_principal_tenant_mismatch"

/-- A record of a tenant, or a failure. -/
def assertRecord (records : List TenantRecord) (id tenantId failure : String) :
    Except String PUnit :=
  throwIf
    (∀ record ∈ records, ¬ (record.id = id ∧ record.tenantId = tenantId))
    failure

/-- Fence what is authorized for a mission. -/
def revokePending (tenantId missionId observedAt : String) :
    Attempt MissionDb String PUnit := do
  let db ← get
  let dispatches ← revokePendingMissionMutationDispatches db.dispatches
    tenantId missionId observedAt
  set { db with dispatches := dispatches }

/-- `UPDATE mission` of one row, and its event. -/
def rewriteMission (sha256 : String → String) (selected : Mission → Bool)
    (change : Mission → Mission) (kept : ∀ row, (change row).id = row.id)
    (conflict : String) (input : EventInput) :
    Attempt MissionDb String PUnit := do
  let db ← get
  throwIf (Table.changes selected db.missions ≠ 1) conflict
  let updated := db.updateMissions selected change kept
  let appended ← appendDomainEvent sha256 db.principals db.domainEvents input
  set { updated with domainEvents := appended.log }

/-- The row of a mission of a tenant, or a failure. -/
def readMission (tenantId missionId failure : String) :
    Attempt MissionDb String Mission := do
  let db ← get
  demand (db.mission? tenantId missionId) failure

/-- The row behind a write, which is there. -/
def rereadMission (tenantId missionId : String) :
    Attempt MissionDb String Mission :=
  readMission tenantId missionId "TypeError"

/-- `id = ? AND tenant_id = ?`, and another condition. -/
def selects (tenantId missionId : String) (also : Mission → Bool)
    (row : Mission) : Bool :=
  decide (row.id = missionId ∧ row.tenantId = tenantId) && also row

/-! ## Creating a mission -/

structure CreateMission where
  id : String
  tenantId : String
  product : MissionProduct
  triggerKind : MissionTriggerKind
  objective : String
  ownerPrincipalId : String
  repositoryId : Option String
  snapshotId : Option String
  eventId : String
  idempotencyKey : String
  correlationId : String
  createdAt : String

namespace CreateMission

def details (input : CreateMission) : EventDetails where
  actorPrincipalId := input.ownerPrincipalId
  eventId := input.eventId
  idempotencyKey := input.idempotencyKey
  correlationId := input.correlationId
  causationId := none
  createdAt := input.createdAt

/-- The row of a new mission. -/
def mission (input : CreateMission) (objective : String) : Mission where
  id := input.id
  tenantId := input.tenantId
  product := input.product
  state := .created
  triggerKind := input.triggerKind
  objective := objective
  repositoryId := input.repositoryId
  snapshotId := input.snapshotId
  fettlerCampaignId := none
  regaugeCampaignId := none
  graphVersionId := none
  policyEnvelopeVersion := none
  ownerPrincipalId := input.ownerPrincipalId
  revision := 1
  createdAt := input.createdAt
  updatedAt := input.createdAt

/-- An existing row is the one which the call would create. -/
def Same (input : CreateMission) (objective : String) (value : Mission) :
    Prop :=
  value.tenantId = input.tenantId ∧ value.product = input.product ∧
    value.triggerKind = input.triggerKind ∧ value.objective = objective ∧
    value.ownerPrincipalId = input.ownerPrincipalId ∧
    value.repositoryId = input.repositoryId ∧
    value.snapshotId = input.snapshotId

instance (input : CreateMission) (objective : String) (value : Mission) :
    Decidable (input.Same objective value) :=
  inferInstanceAs (Decidable (_ ∧ _ ∧ _ ∧ _ ∧ _ ∧ _ ∧ _))

end CreateMission

/-- A record of the tenant, where a call names one which is not empty. -/
def assertNamed (records : List TenantRecord) (tenantId failure : String) :
    Option String → Except String PUnit
  | none => .ok ⟨⟩
  | some id =>
    if id = "" then .ok ⟨⟩ else assertRecord records id tenantId failure

/-- The snapshots as records of their tenants. -/
def MissionDb.snapshotRecords (db : MissionDb) : List TenantRecord :=
  db.repositorySnapshots.map fun row =>
    { id := row.id, tenantId := row.tenantId }

/-- A reference of a new row has no row which it refers to. -/
def Dangling (records : List TenantRecord) (id : Option String) : Prop :=
  ∃ value ∈ id, ∀ record ∈ records, record.id ≠ value

instance (records : List TenantRecord) (id : Option String) :
    Decidable (Dangling records id) :=
  inferInstanceAs (Decidable (∃ value ∈ id, _))

/-- `INSERT` of a new row, and its event. -/
def insertMission (sha256 : String → String) (input : CreateMission)
    (objective : String) : Attempt MissionDb String PUnit := do
  let db ← get
  match found : db.missions.find? fun row => decide (row.id = input.id) with
  | some _ => throw "UNIQUE constraint failed: mission.id"
  | none =>
    throwIf
      (Dangling db.connectedRepositories input.repositoryId ∨
        Dangling db.snapshotRecords input.snapshotId)
      "FOREIGN KEY constraint failed"
    let inserted := db.insertMission (input.mission objective)
      fun row member same =>
        List.find?_eq_none.mp found row member (decide_eq_true same)
    let appended ← appendDomainEvent sha256 db.principals db.domainEvents
      (event input.details input.tenantId input.id
        (.created input.product input.triggerKind))
    set { inserted with domainEvents := appended.log }

def createMission (sha256 : String → String) (input : CreateMission) :
    Attempt MissionDb String Mission := do
  let db ← get
  let _ ← required "mission_id" input.id
  let _ ← required "tenant_id" input.tenantId
  let objective ← required "mission_objective" input.objective
  assertPrincipal db input.tenantId input.ownerPrincipalId
  assertNamed db.connectedRepositories input.tenantId
    "mission_repository_tenant_mismatch" input.repositoryId
  assertNamed db.snapshotRecords input.tenantId
    "mission_snapshot_tenant_mismatch" input.snapshotId
  transaction do
    match db.missions.find? fun row => decide (row.id = input.id) with
    | some existing =>
      throwIf (¬ input.Same objective existing) "mission_id_conflict"
      return existing
    | none =>
      insertMission sha256 input objective
      rereadMission input.tenantId input.id

/-! ## Moving and binding a mission -/

/-- What a call says which changes a mission. -/
structure ChangeMission extends EventDetails where
  tenantId : String
  missionId : String

namespace ChangeMission

/-- The event of a change. -/
def event (input : ChangeMission) (told : MissionEvent) : EventInput :=
  Missions.event input.toEventDetails input.tenantId input.missionId told

end ChangeMission

structure TransitionMission extends ChangeMission where
  expectedRevision : Nat
  toState : MissionState

def transitionMission (sha256 : String → String)
    (input : TransitionMission) : Attempt MissionDb String Mission := do
  let db ← get
  assertPrincipal db input.tenantId input.actorPrincipalId
  transaction do
    let current ← readMission input.tenantId input.missionId
      "mission_not_found"
    throwIf (current.revision ≠ input.expectedRevision)
      "mission_revision_conflict"
    throwIf (input.toState ∉ current.state.transitions)
      "mission_transition_invalid"
    revokePending input.tenantId input.missionId input.createdAt
    rewriteMission sha256
      (selects input.tenantId input.missionId fun row =>
        decide (row.revision = input.expectedRevision))
      (fun row =>
        { row with
          state := input.toState
          revision := row.revision + 1
          updatedAt := input.createdAt })
      (fun _ => rfl) "mission_revision_conflict"
      (input.event
        (.transitioned current.state input.toState current.revision))
    rereadMission input.tenantId input.missionId

structure BindScope extends ChangeMission where
  repositoryId : String
  snapshotId : String

/-- Set the repository and the snapshot once. -/
def bindMissionScope (sha256 : String → String) (input : BindScope) :
    Attempt MissionDb String Mission := do
  let db ← get
  assertPrincipal db input.tenantId input.actorPrincipalId
  let repositoryId ← required "mission_repository_id" input.repositoryId
  let snapshotId ← required "mission_snapshot_id" input.snapshotId
  assertRecord db.connectedRepositories repositoryId input.tenantId
    "mission_repository_tenant_mismatch"
  throwIf
    (∀ snapshot ∈ db.repositorySnapshots,
      ¬ (snapshot.id = snapshotId ∧ snapshot.tenantId = input.tenantId ∧
        snapshot.repositoryId = repositoryId))
    "mission_snapshot_tenant_mismatch"
  transaction do
    let current ← readMission input.tenantId input.missionId
      "mission_not_found"
    if current.repositoryId = some repositoryId ∧
        current.snapshotId = some snapshotId then
      return current
    else
      throwIf (current.repositoryId ≠ none ∨ current.snapshotId ≠ none)
        "mission_scope_conflict"
      revokePending input.tenantId input.missionId input.createdAt
      rewriteMission sha256
        (selects input.tenantId input.missionId fun row =>
          decide (row.revision = current.revision ∧
            row.repositoryId = none ∧ row.snapshotId = none))
        (fun row =>
          { row with
            repositoryId := some repositoryId
            snapshotId := some snapshotId
            revision := row.revision + 1
            updatedAt := input.createdAt })
        (fun _ => rfl) "mission_revision_conflict"
        (input.event
          (.scopeBound repositoryId snapshotId current.revision))
      rereadMission input.tenantId input.missionId

/-- A column which is set once, and how it is named. -/
inductive ExecutionVersion where
  | graphVersionId
  | policyEnvelopeVersion

namespace ExecutionVersion

def read : ExecutionVersion → Mission → Option String
  | graphVersionId => Mission.graphVersionId
  | policyEnvelopeVersion => Mission.policyEnvelopeVersion

/-- The row with a version set. -/
def write (value : String) (row : Mission) : ExecutionVersion → Mission
  | graphVersionId => { row with graphVersionId := some value }
  | policyEnvelopeVersion => { row with policyEnvelopeVersion := some value }

theorem write_id (value : String) (row : Mission)
    (column : ExecutionVersion) : (column.write value row).id = row.id := by
  cases column <;> rfl

def requiredName : ExecutionVersion → String
  | graphVersionId => "mission_graph_version_id"
  | policyEnvelopeVersion => "mission_policy_envelope_version"

def conflictError : ExecutionVersion → String
  | graphVersionId => "mission_graph_version_conflict"
  | policyEnvelopeVersion => "mission_policy_envelope_version_conflict"

def told (value : String) (previousRevision : Nat) :
    ExecutionVersion → MissionEvent
  | graphVersionId => .graphVersionBound value previousRevision
  | policyEnvelopeVersion => .policyEnvelopeBound value previousRevision

end ExecutionVersion

structure BindVersion extends ChangeMission where
  value : String

/-- Pin a version onto the mission, once. -/
def bindMissionExecutionVersion (sha256 : String → String)
    (column : ExecutionVersion) (input : BindVersion) :
    Attempt MissionDb String Mission := do
  let db ← get
  assertPrincipal db input.tenantId input.actorPrincipalId
  let value ← required column.requiredName input.value
  transaction do
    let current ← readMission input.tenantId input.missionId
      "mission_not_found"
    if column.read current = some value then return current
    else
      throwIf (column.read current ≠ none) column.conflictError
      revokePending input.tenantId input.missionId input.createdAt
      rewriteMission sha256
        (selects input.tenantId input.missionId fun row =>
          decide (row.revision = current.revision ∧ column.read row = none))
        (fun row =>
          column.write value
            { row with
              revision := row.revision + 1
              updatedAt := input.createdAt })
        (fun _ => column.write_id _ _) "mission_revision_conflict"
        (input.event (column.told value current.revision))
      rereadMission input.tenantId input.missionId

def bindMissionGraphVersion (sha256 : String → String)
    (input : BindVersion) : Attempt MissionDb String Mission :=
  bindMissionExecutionVersion sha256 .graphVersionId input

def bindMissionPolicyEnvelopeVersion (sha256 : String → String)
    (input : BindVersion) : Attempt MissionDb String Mission :=
  bindMissionExecutionVersion sha256 .policyEnvelopeVersion input

structure AdvanceVersion extends ChangeMission where
  expectedPolicyEnvelopeVersion : String
  nextPolicyEnvelopeVersion : String
  authorityRef : String

/-- The numbers of two versions, the second greater than the first. -/
def advanceNumbers (expected next : String) : Except String Int :=
  match NumberText.whole? expected, NumberText.whole? next with
  | some expectedNumber, some nextNumber =>
    if expectedNumber < 1 ∨ nextNumber ≤ expectedNumber then
      .error "mission_policy_envelope_advance_invalid"
    else .ok nextNumber
  | _, _ => .error "mission_policy_envelope_advance_invalid"

def advanceMissionPolicyEnvelopeVersion (sha256 : String → String)
    (input : AdvanceVersion) : Attempt MissionDb String Mission := do
  let db ← get
  assertPrincipal db input.tenantId input.actorPrincipalId
  let expected ← required "mission_policy_envelope_version"
    input.expectedPolicyEnvelopeVersion
  let next ← required "mission_policy_envelope_version"
    input.nextPolicyEnvelopeVersion
  let authorityRef ← required "mission_policy_envelope_authority_ref"
    input.authorityRef
  let nextNumber ← advanceNumbers expected next
  throwIf
    (∀ envelope ∈ db.policyEnvelopes,
      ¬ (envelope.tenantId = input.tenantId ∧
        envelope.version = nextNumber))
    "mission_policy_envelope_not_found"
  transaction do
    let current ← readMission input.tenantId input.missionId
      "mission_not_found"
    if current.policyEnvelopeVersion = some next then return current
    else
      throwIf (current.state.isTerminal = true)
        "mission_policy_envelope_advance_terminal"
      throwIf (current.policyEnvelopeVersion ≠ some expected)
        "mission_policy_envelope_version_conflict"
      revokePending input.tenantId input.missionId input.createdAt
      rewriteMission sha256
        (selects input.tenantId input.missionId fun row =>
          decide (row.revision = current.revision ∧
            row.policyEnvelopeVersion = some expected))
        (fun row =>
          { row with
            policyEnvelopeVersion := some next
            revision := row.revision + 1
            updatedAt := input.createdAt })
        (fun _ => rfl) "mission_revision_conflict"
        (input.event (.policyEnvelopeAdvanced expected next authorityRef
          current.revision))
      rereadMission input.tenantId input.missionId

/-! ## Linking a campaign -/

/-- The campaigns of the two products, each in a column of its own. -/
inductive CampaignLink where
  | fettlerCampaignId
  | regaugeCampaignId

namespace CampaignLink

def read : CampaignLink → Mission → Option String
  | fettlerCampaignId => Mission.fettlerCampaignId
  | regaugeCampaignId => Mission.regaugeCampaignId

/-- The row with a link set. -/
def write (campaignId : String) (row : Mission) : CampaignLink → Mission
  | fettlerCampaignId => { row with fettlerCampaignId := some campaignId }
  | regaugeCampaignId => { row with regaugeCampaignId := some campaignId }

theorem write_id (campaignId : String) (row : Mission)
    (column : CampaignLink) : (column.write campaignId row).id = row.id := by
  cases column <;> rfl

def told (campaignId : String) : CampaignLink → MissionEvent
  | fettlerCampaignId => .fettlerCampaignLinked campaignId
  | regaugeCampaignId => .regaugeCampaignLinked campaignId

end CampaignLink

structure LinkCampaign extends ChangeMission where
  campaignId : String

/-- The part of a link in which the two products do not differ. -/
def linkCampaign (sha256 : String → String) (column : CampaignLink)
    (input : LinkCampaign) (campaignId : String) (missionRow : Mission) :
    Attempt MissionDb String Mission := do
  let db ← get
  if column.read missionRow = some campaignId then return missionRow
  else
    throwIf (∃ linked ∈ column.read missionRow, linked ≠ "")
      "mission_link_conflict"
    throwIf
      (∃ row ∈ db.missions, row.tenantId = input.tenantId ∧
        column.read row = some campaignId)
      "mission_link_conflict"
    rewriteMission sha256
      (selects input.tenantId input.missionId fun row =>
        decide (column.read row = none))
      (fun row =>
        column.write campaignId { row with updatedAt := input.createdAt })
      (fun _ => column.write_id _ _) "mission_link_conflict"
      (input.event (column.told campaignId))
    rereadMission input.tenantId input.missionId

def linkFettlerCampaignToMission (sha256 : String → String)
    (input : LinkCampaign) : Attempt MissionDb String Mission := do
  let db ← get
  assertPrincipal db input.tenantId input.actorPrincipalId
  transaction do
    let missionRow ← readMission input.tenantId input.missionId
      "mission_not_found"
    throwIf (missionRow.product ≠ .fettler) "mission_product_mismatch"
    assertRecord db.fettlerCampaigns input.campaignId input.tenantId
      "mission_fettler_campaign_not_found"
    linkCampaign sha256 .fettlerCampaignId input input.campaignId missionRow

def linkRegaugeCampaignToMission (sha256 : String → String)
    (input : LinkCampaign) : Attempt MissionDb String Mission := do
  let db ← get
  assertPrincipal db input.tenantId input.actorPrincipalId
  let regaugeCampaignId ← required "mission_regauge_campaign_id"
    input.campaignId
  transaction do
    let missionRow ← readMission input.tenantId input.missionId
      "mission_not_found"
    throwIf (missionRow.product ≠ .regauge) "mission_product_mismatch"
    linkCampaign sha256 .regaugeCampaignId input regaugeCampaignId missionRow

end Mendpoint.Missions
