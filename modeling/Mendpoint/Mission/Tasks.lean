import Mendpoint.Library.Fallible
import Mendpoint.Library.Json
import Mendpoint.Library.Table
import Mendpoint.Library.DepthFirst
import Mendpoint.Trust.EventAudit

/-!
# The fence of mutation dispatches

Writers of a mission revoke what is authorized and not yet dispatched, and fail
where a dispatch may already have taken effect.
-/

namespace Mendpoint.Mission

open Mendpoint.Library
open Mendpoint.Library.Fallible

inductive DispatchState where
  | authorized
  | dispatching
  | uncertain
  | settled
  | revoked
  deriving DecidableEq

/-- A dispatch, with the value of its authority where that is JSON. -/
structure MutationDispatch where
  id : String
  tenantId : String
  missionId : String
  authority : Option Json
  state : DispatchState
  revokedAt : Option String
  updatedAt : String

namespace MutationDispatch

/-- A dispatch whose effect may exist. -/
def inFlight (row : MutationDispatch) : Bool :=
  decide (row.state = .dispatching ∨ row.state = .uncertain)

def of (tenantId missionId : String) (row : MutationDispatch) : Bool :=
  decide (row.tenantId = tenantId ∧ row.missionId = missionId)

def revoke (observedAt : String) (row : MutationDispatch) :
    MutationDispatch :=
  { row with
    state := .revoked
    revokedAt := some observedAt
    updatedAt := observedAt }

end MutationDispatch

def revokePendingMissionMutationDispatches
    (rows : List MutationDispatch) (tenantId missionId observedAt : String) :
    Except String (List MutationDispatch) := do
  throwIf
    (∃ row ∈ rows,
      (MutationDispatch.of tenantId missionId row && row.inFlight) = true)
    "mission_mutation_dispatch_in_flight"
  return Table.update
    (fun row => MutationDispatch.of tenantId missionId row &&
      decide (row.state = .authorized))
    (MutationDispatch.revoke observedAt) rows

/-- The task which an authority is about, if it is about one. -/
def authorityTaskId (authority : Option Json) :
    Except String (Option String) :=
  match authority with
  | some (.obj fields) =>
    match (Json.obj fields).get? "taskId" with
    | some .null => .ok none
    | some (.str taskId) =>
      if Text.trim taskId = "" then
        .error "mission_mutation_dispatch_authority_invalid"
      else .ok (some taskId)
    | _ => .error "mission_mutation_dispatch_authority_invalid"
  | _ => .error "mission_mutation_dispatch_authority_invalid"

/-- Fence only the authority of one task, or of no task. -/
def revokePendingMissionTaskMutationDispatches
    (rows : List MutationDispatch) (tenantId missionId : String)
    (taskId : Option String) (observedAt : String) :
    Except String (List MutationDispatch) := do
  let pending := rows.filter fun row =>
    MutationDispatch.of tenantId missionId row &&
      (decide (row.state = .authorized) || row.inFlight)
  let subjects ← pending.mapM fun row => do
    let subject ← authorityTaskId row.authority
    return (row, subject)
  let matching := (subjects.filter fun pair =>
    decide (pair.2 = taskId)).map Prod.fst
  throwIf (∃ row ∈ matching, row.inFlight = true)
    "mission_mutation_dispatch_in_flight"
  return Table.update
    (fun row => decide (row.id ∈ matching.map MutationDispatch.id) &&
      decide (row.tenantId = tenantId) && decide (row.state = .authorized))
    (MutationDispatch.revoke observedAt) rows

end Mendpoint.Mission

/-!
## Mission tasks

The rows of tasks and of their dependencies, and the calls which write them.
Each call is one transaction, so that it leaves the database as it is where it
fails; a call within another one joins its transaction.
-/

namespace Mendpoint.Mission

open Mendpoint.Library
open Mendpoint.Library.Fallible
open Mendpoint.Trust

/-! ## Rows -/

inductive MissionTaskOwner where
  | agent
  | human

inductive MissionTaskRisk where
  | low
  | medium
  | high
  | critical
  deriving DecidableEq

inductive MissionTaskStatus where
  | unassigned
  | agentAssigned
  | agentWorking
  | humanReviewRequired
  | humanAssigned
  | humanWorking
  | agentResume
  | complete
  | blocked
  | failed
  | cancelled
  | escalated
  deriving DecidableEq

def MissionTaskOwner.text : MissionTaskOwner → String
  | .agent => "agent"
  | .human => "human"

def MissionTaskRisk.text : MissionTaskRisk → String
  | .low => "low"
  | .medium => "medium"
  | .high => "high"
  | .critical => "critical"

namespace MissionTaskStatus

def text : MissionTaskStatus → String
  | unassigned => "unassigned"
  | agentAssigned => "agent_assigned"
  | agentWorking => "agent_working"
  | humanReviewRequired => "human_review_required"
  | humanAssigned => "human_assigned"
  | humanWorking => "human_working"
  | agentResume => "agent_resume"
  | complete => "complete"
  | blocked => "blocked"
  | failed => "failed"
  | cancelled => "cancelled"
  | escalated => "escalated"

/-- A status in which an agent or a human works on the task. -/
def isWorking : MissionTaskStatus → Bool
  | agentWorking | humanWorking => true
  | _ => false

/-- The owner implied by a status; other states retain the prior owner. -/
def ownerForStatus (status : MissionTaskStatus)
    (prior : Option MissionTaskOwner) : Option MissionTaskOwner :=
  match status with
  | agentAssigned | agentWorking | agentResume => some .agent
  | humanReviewRequired | humanAssigned | humanWorking => some .human
  | _ => prior

/-- A transition into `agent_working` from a re-entry state is a replan. -/
def isRetry (before after : MissionTaskStatus) : Bool :=
  decide (after = agentWorking) &&
    (decide (before = blocked) || decide (before = agentResume))

def transitions : MissionTaskStatus → List MissionTaskStatus
  | unassigned => [agentAssigned, humanAssigned, cancelled]
  | agentAssigned => [agentWorking, blocked, cancelled, escalated]
  | agentWorking =>
    [humanReviewRequired, complete, blocked, failed, cancelled, escalated]
  | humanReviewRequired => [humanAssigned, agentResume, cancelled, escalated]
  | humanAssigned => [humanWorking, agentResume, cancelled, escalated]
  | humanWorking => [agentResume, complete, blocked, cancelled, escalated]
  | agentResume => [agentWorking, complete, blocked, cancelled]
  | blocked => [agentWorking, humanAssigned, cancelled, escalated]
  | escalated => [humanAssigned, cancelled]
  | complete => []
  | failed => []
  | cancelled => []

end MissionTaskStatus

structure MissionTask where
  id : String
  tenantId : String
  missionId : String
  taskType : String
  acceptanceCriteria : String
  risk : MissionTaskRisk
  status : MissionTaskStatus
  ownerType : Option MissionTaskOwner
  assignedPrincipalId : Option String
  handoffReason : Option String
  retryCount : Nat
  revision : Nat
  createdAt : String
  updatedAt : String

structure TaskDependency where
  id : String
  tenantId : String
  missionId : String
  taskId : String
  dependsOnTaskId : String
  createdAt : String

/-- The id of a mission and its tenant. -/
structure MissionKey where
  id : String
  tenantId : String

/-- The tables which the tasks are in; the ids of tasks are a primary key. -/
structure TaskDb where
  principals : List Principal
  missions : List MissionKey
  dispatches : List MutationDispatch
  tasks : List MissionTask
  dependencies : List TaskDependency
  domainEvents : List DomainEvent
  taskKeys : (tasks.map MissionTask.id).Nodup

namespace TaskDb

def task? (db : TaskDb) (tenantId id : String) : Option MissionTask :=
  db.tasks.find? fun row => decide (row.id = id ∧ row.tenantId = tenantId)

def updateTasks (db : TaskDb) (selected : MissionTask → Bool)
    (change : MissionTask → MissionTask)
    (kept : ∀ row, (change row).id = row.id) : TaskDb :=
  { db with
    tasks := Table.update selected change db.tasks
    taskKeys := by
      rw [Table.map_key_update kept]
      exact db.taskKeys }

def insertTask (db : TaskDb) (task : MissionTask)
    (fresh : ∀ row ∈ db.tasks, row.id ≠ task.id) : TaskDb :=
  { db with
    tasks := db.tasks ++ [task]
    taskKeys := by
      rw [List.map_append, List.map_singleton, ← List.concat_eq_append,
        List.nodup_concat]
      refine ⟨fun member => ?_, db.taskKeys⟩
      rcases List.mem_map.mp member with ⟨row, inside, same⟩
      exact fresh row inside same }

end TaskDb

/-! ## Checks and events -/

def required (name value : String) : Except String String :=
  requiredText 2000 name value

def assertPrincipal (db : TaskDb) (tenantId principalId : String) :
    Except String PUnit :=
  throwIf
    (∀ principal ∈ db.principals,
      ¬ (principal.id = principalId ∧ principal.tenantId = tenantId ∧
        principal.revokedAt = none))
    "mission_task_principal_tenant_mismatch"

/-- What every writer says about its event. -/
structure EventDetails where
  actorPrincipalId : String
  eventId : String
  idempotencyKey : String
  correlationId : String
  causationId : Option String
  createdAt : String

/-- The event of a task, or of a mission. -/
def EventDetails.event (details : EventDetails)
    (tenantId aggregateType aggregateId eventType : String)
    (payload : Written) : EventInput where
  id := details.eventId
  tenantId := tenantId
  schemaVersion := 1
  eventType := eventType
  aggregateType := aggregateType
  aggregateId := aggregateId
  actorPrincipalId := details.actorPrincipalId
  correlationId := details.correlationId
  causationId := details.causationId
  idempotencyKey := details.idempotencyKey
  payload := payload
  createdAt := details.createdAt

/-- The database with the event of a change, or a failure. -/
def record (sha256 : String → String) (db : TaskDb) (input : EventInput) :
    Except String TaskDb := do
  let appended ← appendDomainEvent sha256 db.principals db.domainEvents input
  return { db with domainEvents := appended.log }

/-! ## Creating and moving a task -/

structure CreateTask extends EventDetails where
  id : String
  tenantId : String
  missionId : String
  taskType : String
  acceptanceCriteria : String
  risk : MissionTaskRisk

/-- The row of a new task. -/
def CreateTask.task (input : CreateTask) (acceptanceCriteria : String) :
    MissionTask where
  id := input.id
  tenantId := input.tenantId
  missionId := input.missionId
  taskType := input.taskType
  acceptanceCriteria := acceptanceCriteria
  risk := input.risk
  status := .unassigned
  ownerType := none
  assignedPrincipalId := none
  handoffReason := none
  retryCount := 0
  revision := 1
  createdAt := input.createdAt
  updatedAt := input.createdAt

def CreateTask.event (input : CreateTask) : EventInput :=
  input.toEventDetails.event input.tenantId "mission_task" input.id
    "mission_task.created"
    (.obj [
      ("missionId", .str input.missionId),
      ("taskType", .str input.taskType),
      ("risk", .str input.risk.text),
      ("status", .str "unassigned")])

/-- An existing row is the one which the call would create. -/
def CreateTask.Same (input : CreateTask) (acceptanceCriteria : String)
    (existing : MissionTask) : Prop :=
  existing.tenantId = input.tenantId ∧
    existing.missionId = input.missionId ∧
    existing.taskType = input.taskType ∧
    existing.acceptanceCriteria = acceptanceCriteria ∧
    existing.risk = input.risk

instance (input : CreateTask) (acceptanceCriteria : String)
    (existing : MissionTask) :
    Decidable (input.Same acceptanceCriteria existing) :=
  inferInstanceAs (Decidable (_ ∧ _ ∧ _ ∧ _ ∧ _))

def createMissionTask (sha256 : String → String) (input : CreateTask)
    (db : TaskDb) : Except String (MissionTask × TaskDb) := do
  let _ ← required "mission_task_id" input.id
  let _ ← required "mission_task_type" input.taskType
  let acceptanceCriteria ← required "mission_task_acceptance_criteria"
    input.acceptanceCriteria
  assertPrincipal db input.tenantId input.actorPrincipalId
  match found : db.tasks.find? fun row => decide (row.id = input.id) with
  | some existing =>
    throwIf (¬ input.Same acceptanceCriteria existing)
      "mission_task_id_conflict"
    return (existing, db)
  | none =>
    throwIf
      (∀ mission ∈ db.missions, ¬ (mission.id = input.missionId ∧
        mission.tenantId = input.tenantId))
      "mission_task_mission_not_found"
    let dispatches ← revokePendingMissionTaskMutationDispatches
      db.dispatches input.tenantId input.missionId none input.createdAt
    let task := input.task acceptanceCriteria
    let inserted := { db with dispatches := dispatches }.insertTask task
      fun row member same =>
        List.find?_eq_none.mp found row member (decide_eq_true same)
    let recorded ← record sha256 inserted input.event
    return (task, recorded)

structure TransitionTask extends EventDetails where
  tenantId : String
  taskId : String
  expectedRevision : Nat
  toStatus : MissionTaskStatus
  assignedPrincipalId : Option String
  handoffReason : Option String

namespace TransitionTask

/-- The row which a transition selects. -/
def selects (input : TransitionTask) (row : MissionTask) : Bool :=
  decide (row.id = input.taskId ∧ row.tenantId = input.tenantId ∧
    row.revision = input.expectedRevision)

/-- The row which a transition makes of the current one. -/
def change (input : TransitionTask) (current row : MissionTask) :
    MissionTask :=
  { row with
    status := input.toStatus
    ownerType := input.toStatus.ownerForStatus current.ownerType
    assignedPrincipalId :=
      input.assignedPrincipalId <|> current.assignedPrincipalId
    handoffReason := input.handoffReason <|> current.handoffReason
    retryCount := current.retryCount +
      if MissionTaskStatus.isRetry current.status input.toStatus then 1 else 0
    revision := row.revision + 1
    updatedAt := input.createdAt }

def event (input : TransitionTask) (current : MissionTask) : EventInput :=
  let changed := input.change current current
  input.toEventDetails.event input.tenantId "mission_task" input.taskId
    "mission_task.transitioned"
    (.obj [
      ("from", .str current.status.text),
      ("to", .str input.toStatus.text),
      ("ownerType", writtenText (changed.ownerType.map
        MissionTaskOwner.text)),
      ("retryCount", .int changed.retryCount),
      ("previousRevision", .int current.revision),
      ("revision", .int (current.revision + 1))])

end TransitionTask

/-- The principal of a call which names one. -/
def assertAssigned (db : TaskDb) (tenantId : String) :
    Option String → Except String PUnit
  | none => .ok ⟨⟩
  | some principalId =>
    if principalId = "" then .ok ⟨⟩
    else assertPrincipal db tenantId principalId

def transitionMissionTask (sha256 : String → String)
    (input : TransitionTask) (db : TaskDb) :
    Except String (MissionTask × TaskDb) := do
  assertPrincipal db input.tenantId input.actorPrincipalId
  assertAssigned db input.tenantId input.assignedPrincipalId
  match db.task? input.tenantId input.taskId with
  | none => .error "mission_task_not_found"
  | some current =>
    throwIf (current.revision ≠ input.expectedRevision)
      "mission_task_revision_conflict"
    if current.status = input.toStatus then return (current, db)
    else
      throwIf (input.toStatus ∉ current.status.transitions)
        "mission_task_transition_invalid"
      let dispatches ← revokePendingMissionTaskMutationDispatches
        db.dispatches input.tenantId current.missionId (some current.id)
        input.createdAt
      let changed := input.change current current
      throwIf
        (∃ id ∈ changed.assignedPrincipalId,
          ∀ principal ∈ db.principals, principal.id ≠ id)
        "FOREIGN KEY constraint failed"
      throwIf (Table.changes input.selects db.tasks ≠ 1)
        "mission_task_revision_conflict"
      let updated := { db with dispatches := dispatches }.updateTasks
        input.selects (input.change current) fun _ => rfl
      let recorded ← record sha256 updated (input.event current)
      return (changed, recorded)

/-! ## The task of a job -/

/-- The id of the task of a job. -/
def missionTaskIdForJob (sha256 : String → String) (jobId : String) :
    String :=
  "mtask-job-" ++
    Text.takeChars 32 (sha256 ("mission-task:job:" ++ jobId))

structure EnsureTask where
  tenantId : String
  jobId : String
  missionId : String
  taskType : String
  acceptanceCriteria : String
  risk : MissionTaskRisk
  actorPrincipalId : String
  assignedPrincipalId : String
  createdAt : String
  correlationId : Option String

namespace EnsureTask

/-- The event of a step of the task of a job. -/
def jobTaskEvent (sha256 : String → String) (input : EnsureTask)
    (kind : String) : EventDetails where
  actorPrincipalId := input.actorPrincipalId
  eventId := "e-mtask-" ++ Text.takeChars 32
    (sha256 ("mission-task:job:" ++ input.jobId ++ ":" ++ kind))
  idempotencyKey := "mission-task-job:" ++ input.jobId ++ ":" ++ kind
  correlationId := input.correlationId.getD input.jobId
  causationId := none
  createdAt := input.createdAt

def create (sha256 : String → String) (input : EnsureTask) : CreateTask where
  toEventDetails := input.jobTaskEvent sha256 "created"
  id := missionTaskIdForJob sha256 input.jobId
  tenantId := input.tenantId
  missionId := input.missionId
  taskType := input.taskType
  acceptanceCriteria := input.acceptanceCriteria
  risk := input.risk

def transition (sha256 : String → String) (input : EnsureTask)
    (task : MissionTask) (toStatus : MissionTaskStatus) : TransitionTask where
  toEventDetails := input.jobTaskEvent sha256 toStatus.text
  tenantId := input.tenantId
  taskId := missionTaskIdForJob sha256 input.jobId
  expectedRevision := task.revision
  toStatus := toStatus
  assignedPrincipalId := some input.assignedPrincipalId
  handoffReason := none

end EnsureTask

/-- The task of a job which exists, or a new one. -/
def ensureCreated (sha256 : String → String) (input : EnsureTask)
    (db : TaskDb) : Except String (MissionTask × TaskDb) :=
  match db.task? input.tenantId (missionTaskIdForJob sha256 input.jobId) with
  | none => createMissionTask sha256 (input.create sha256) db
  | some task => do
      throwIf (task.missionId ≠ input.missionId)
        "mission_task_job_mission_mismatch"
      return (task, db)

/-- Move the task of a job from one status to another, if it is there. -/
def ensureMoved (sha256 : String → String) (input : EnsureTask)
    (fromStatus toStatus : MissionTaskStatus) :
    MissionTask × TaskDb → Except String (MissionTask × TaskDb)
  | (task, db) =>
    if task.status = fromStatus then
      transitionMissionTask sha256 (input.transition sha256 task toStatus) db
    else .ok (task, db)

def ensureMissionTaskForJob (sha256 : String → String)
    (input : EnsureTask) (db : TaskDb) :
    Except String (MissionTask × TaskDb) := do
  let _ ← required "mission_task_job_id" input.jobId
  let created ← ensureCreated sha256 input db
  let assigned ← ensureMoved sha256 input .unassigned .agentAssigned created
  ensureMoved sha256 input .agentAssigned .agentWorking assigned

/-! ## Dependencies -/

/-- The edges of a tenant, from a task to one which it depends on. -/
def TaskDb.edges (db : TaskDb) (tenantId : String) :
    List (String × String) :=
  (db.dependencies.filter fun row => decide (row.tenantId = tenantId)).map
    fun row => (row.taskId, row.dependsOnTaskId)

/-- Whether one task depends, transitively, on another one. -/
def dependsOnTransitively (db : TaskDb)
    (tenantId fromTaskId targetTaskId : String) : Bool :=
  DepthFirst.search (db.edges tenantId) targetTaskId
    ((db.edges tenantId).length + 1) [] [fromTaskId]

structure AddDependency where
  id : String
  tenantId : String
  missionId : String
  taskId : String
  dependsOnTaskId : String
  createdAt : String

namespace AddDependency

def row (input : AddDependency) : TaskDependency where
  id := input.id
  tenantId := input.tenantId
  missionId := input.missionId
  taskId := input.taskId
  dependsOnTaskId := input.dependsOnTaskId
  createdAt := input.createdAt

/-- The row whose revision an edge raises. -/
def selects (input : AddDependency) (row : MissionTask) : Bool :=
  decide (row.id = input.taskId ∧ row.tenantId = input.tenantId ∧
    row.missionId = input.missionId)

def change (input : AddDependency) (row : MissionTask) : MissionTask :=
  { row with
    revision := row.revision + 1
    updatedAt := input.createdAt }

end AddDependency

/-- A task of a dependency is one of the mission. -/
def assertOfMission (db : TaskDb) (tenantId missionId id : String) :
    Except String PUnit :=
  match db.task? tenantId id with
  | none => .error "mission_task_dependency_task_not_found"
  | some row =>
    throwIf (row.missionId ≠ missionId)
      "mission_task_dependency_mission_mismatch"

def addMissionTaskDependency (input : AddDependency) (db : TaskDb) :
    Except String (PUnit × TaskDb) := do
  throwIf (input.taskId = input.dependsOnTaskId)
    "mission_task_dependency_self"
  assertOfMission db input.tenantId input.missionId input.taskId
  assertOfMission db input.tenantId input.missionId input.dependsOnTaskId
  if ∃ row ∈ db.dependencies, row.tenantId = input.tenantId ∧
      row.taskId = input.taskId ∧
      row.dependsOnTaskId = input.dependsOnTaskId then
    return (⟨⟩, db)
  else
    throwIf
      (dependsOnTransitively db input.tenantId input.dependsOnTaskId
        input.taskId = true)
      "mission_task_dependency_cycle"
    let dispatches ← revokePendingMissionTaskMutationDispatches
      db.dispatches input.tenantId input.missionId (some input.taskId)
      input.createdAt
    throwIf (Table.changes input.selects db.tasks ≠ 1)
      "mission_task_dependency_task_not_found"
    throwIf (∃ row ∈ db.dependencies, row.id = input.id)
      "UNIQUE constraint failed: mission_task_dependencies.id"
    let raised := { db with dispatches := dispatches }.updateTasks
      input.selects input.change fun _ => rfl
    return (⟨⟩,
      { raised with dependencies := db.dependencies ++ [input.row] })

/-- Every prerequisite of a task which exists is complete. -/
def missionTaskReady (db : TaskDb) (tenantId taskId : String) : Bool :=
  match db.task? tenantId taskId with
  | none => false
  | some _ =>
    (db.dependencies.filter fun row =>
      decide (row.tenantId = tenantId ∧ row.taskId = taskId)).all
      fun row =>
        match db.task? tenantId row.dependsOnTaskId with
        | none => false
        | some prerequisite => decide (prerequisite.status = .complete)

end Mendpoint.Mission
