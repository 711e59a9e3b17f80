import Mendpoint.Mission.Ordering

/-!
# Runs of task calls

A caller may ask whether a task is ready and start it with a later call.  The
revision of the task is what makes the answer last: it is raised by each new
dependency, and a complete task stays complete.
-/

namespace Mendpoint.Mission

open Mendpoint.Library
open Mendpoint.Library.DepthFirst
open Mendpoint.Library.Fallible
open Mendpoint.Library.Run
open Relation

/-! ## Refused cycles -/

theorem authorityTaskId_ne_cycle (authority : Option Json) :
    authorityTaskId authority ≠ .error "mission_task_dependency_cycle" := by
  intro failed
  have invalid : "mission_mutation_dispatch_authority_invalid" =
      "mission_task_dependency_cycle" := by
    unfold authorityTaskId at failed
    split at failed
    · split at failed
      · cases failed
      · split at failed
        · exact Except.error.inj failed
        · cases failed
      · exact Except.error.inj failed
    · exact Except.error.inj failed
  exact absurd invalid (by decide)

theorem revoke_ne_cycle {rows : List MutationDispatch}
    {tenantId missionId observedAt : String} {taskId : Option String} :
    revokePendingMissionTaskMutationDispatches rows tenantId missionId taskId
      observedAt ≠ .error "mission_task_dependency_cycle" := by
  intro failed
  rw [revokePendingMissionTaskMutationDispatches, bind_eq_error] at failed
  rcases failed with unreadable | ⟨subjects, _, rest⟩
  · rcases exists_of_mapM_eq_error unreadable with ⟨row, _, invalid⟩
    rw [bind_eq_error] at invalid
    rcases invalid with invalid | ⟨_, _, impossible⟩
    · exact authorityTaskId_ne_cycle _ invalid
    · cases impossible
  · rw [bind_eq_error, throwIf_eq_error] at rest
    rcases rest with ⟨_, same⟩ | ⟨_, _, impossible⟩
    · exact absurd same (by decide)
    · cases impossible

theorem assertOfMission_ne_cycle {db : TaskDb}
    {tenantId missionId id : String} :
    assertOfMission db tenantId missionId id ≠
      .error "mission_task_dependency_cycle" := by
  intro failed
  rw [assertOfMission] at failed
  split at failed
  · simp at failed
  · rw [throwIf_eq_error] at failed
    exact absurd failed.2 (by decide)

theorem refused_iff {db : TaskDb} (ordered : Ordered db)
    (input : AddDependency) :
    addMissionTaskDependency input db =
        .error "mission_task_dependency_cycle" ↔
      input.Checked db ∧ ¬ Acyclic
        (withEdge (Edge (db.edges input.tenantId)) input.taskId
          input.dependsOnTaskId) := by
  rw [acyclic_withEdge_iff (ordered.acyclic _), not_not,
    ← dependsOnTransitively_iff]
  constructor
  · intro failed
    rw [addMissionTaskDependency, bind_eq_error, throwIf_eq_error] at failed
    rcases failed with ⟨_, same⟩ | ⟨_, apart, rest⟩
    · exact absurd same (by decide)
    rw [throwIf_eq_ok] at apart
    rw [bind_eq_error] at rest
    rcases rest with same | ⟨_, first, rest⟩
    · exact absurd same assertOfMission_ne_cycle
    rw [assertOfMission_eq_ok] at first
    rw [bind_eq_error] at rest
    rcases rest with same | ⟨_, second, rest⟩
    · exact absurd same assertOfMission_ne_cycle
    rw [assertOfMission_eq_ok] at second
    refine ⟨⟨apart, List.forall_mem_cons.mpr
      ⟨first, List.forall_mem_singleton.mpr second⟩⟩, ?_⟩
    split at rest
    · cases rest
    rw [bind_eq_error, throwIf_eq_error] at rest
    rcases rest with ⟨reached, _⟩ | ⟨_, _, rest⟩
    · exact reached
    rw [bind_eq_error] at rest
    rcases rest with same | ⟨_, _, rest⟩
    · exact absurd same revoke_ne_cycle
    rw [bind_eq_error, throwIf_eq_error] at rest
    rcases rest with ⟨_, same⟩ | ⟨_, _, rest⟩
    · exact absurd same (by decide)
    rw [bind_eq_error, throwIf_eq_error] at rest
    rcases rest with ⟨_, same⟩ | ⟨_, _, rest⟩
    · exact absurd same (by decide)
    cases rest
  · rintro ⟨⟨apart, there⟩, reached⟩
    have first : assertOfMission db input.tenantId input.missionId
        input.taskId = .ok ⟨⟩ :=
      assertOfMission_eq_ok.mpr (there input.taskId List.mem_cons_self)
    have second : assertOfMission db input.tenantId input.missionId
        input.dependsOnTaskId = .ok ⟨⟩ :=
      assertOfMission_eq_ok.mpr (there input.dependsOnTaskId (by simp))
    have unwritten : ¬ ∃ row ∈ db.dependencies,
        row.tenantId = input.tenantId ∧ row.taskId = input.taskId ∧
        row.dependsOnTaskId = input.dependsOnTaskId := by
      intro written
      refine ordered.acyclic input.tenantId input.taskId ?_
      exact TransGen.head' (mem_edges.mpr written)
        (dependsOnTransitively_iff.mp reached)
    rw [addMissionTaskDependency, throwIf, if_neg apart, ok_bind, first,
      ok_bind, second, ok_bind, if_neg unwritten, throwIf, if_pos reached]
    rfl

/-! ## Starts -/

/-- Every task which a call sets to work is ready then. -/
def StartsInOrder (before after : TaskDb) : Prop :=
  ∀ task ∈ after.tasks, task.status.isWorking = true →
    (∀ old ∈ before.tasks, old.id = task.id → old.status ≠ task.status) →
    missionTaskReady after task.tenantId task.id = true

theorem Touches.ready_iff {id tenantId : String} {before after : TaskDb}
    (ordered : Ordered before) (touched : Touches id before after)
    (there : ∃ row ∈ before.tasks, row.id = id ∧ row.tenantId = tenantId) :
    missionTaskReady after tenantId id = true ↔
      missionTaskReady before tenantId id = true := by
  constructor
  · intro ready
    rw [missionTaskReady_iff] at ready ⊢
    refine ⟨there, fun edge isEdge ofTenant ofTask => ?_⟩
    rw [← touched.dependencies] at isEdge
    rcases ready.2 edge isEdge ofTenant ofTask with
      ⟨row, inside, named, tenant, complete⟩
    refine ⟨row, touched.others row inside fun same => ?_, named, tenant,
      complete⟩
    rw [touched.dependencies] at isEdge
    refine ordered.acyclic tenantId id (TransGen.single ?_)
    exact mem_edges.mpr ⟨edge, isEdge, ofTenant, ofTask,
      named.symm.trans same⟩
  · refine touched.later.ready fun edge isEdge _ _ => ?_
    rw [touched.dependencies] at isEdge
    exact isEdge

theorem Touches.ready_of_new {id : String} {before after : TaskDb}
    (ordered : Ordered before) (touched : Touches id before after)
    (fresh : ∀ row ∈ before.tasks, row.id ≠ id) {task : MissionTask}
    (stored : task ∈ after.tasks) (named : task.id = id) :
    missionTaskReady after task.tenantId task.id = true := by
  rw [missionTaskReady_iff]
  refine ⟨⟨task, stored, rfl, rfl⟩, fun edge isEdge _ ofTask => ?_⟩
  rw [touched.dependencies] at isEdge
  rcases ordered.within edge isEdge edge.taskId List.mem_cons_self with
    ⟨row, inside, same, _⟩
  exact absurd (same.trans (ofTask.trans named)) (fresh row inside)

theorem Touches.eq_of_entered {id : String} {before after : TaskDb}
    (touched : Touches id before after) {task : MissionTask}
    (stored : task ∈ after.tasks)
    (entered : ∀ old ∈ before.tasks, old.id = task.id →
      old.status ≠ task.status) : task.id = id := by
  by_contra other
  exact entered task (touched.others task stored other) rfl rfl

theorem Touches.startsInOrder_iff {id tenantId : String}
    {before after : TaskDb} {old task : MissionTask}
    (ordered : Ordered before) (touched : Touches id before after)
    (known : old ∈ before.tasks) (oldId : old.id = id)
    (oldTenant : old.tenantId = tenantId)
    (stored : task ∈ after.tasks) (taskId : task.id = id)
    (taskTenant : task.tenantId = tenantId) :
    StartsInOrder before after ↔
      (task.status.isWorking = true → old.status ≠ task.status →
        missionTaskReady before tenantId id = true) := by
  rw [← touched.ready_iff ordered ⟨old, known, oldId, oldTenant⟩]
  constructor
  · intro inOrder working different
    have ready := inOrder task stored working fun row inside same => by
      rw [Table.eq_of_key before.taskKeys inside known
        (same.trans (taskId.trans oldId.symm))]
      exact different
    rw [taskId, taskTenant] at ready
    exact ready
  · intro ready row inside working entered
    have same := touched.eq_of_entered inside entered
    have equal : row = task := Table.eq_of_key after.taskKeys inside stored
      (same.trans taskId.symm)
    rw [equal] at working entered ⊢
    rw [taskId, taskTenant]
    exact ready working (entered old known (oldId.trans taskId.symm))

theorem StartsInOrder.refl (db : TaskDb) : StartsInOrder db db :=
  fun task stored _ entered => absurd rfl (entered task stored rfl)

theorem Touches.startsInOrder_of_idle {id : String} {before after : TaskDb}
    {task : MissionTask} (touched : Touches id before after)
    (stored : task ∈ after.tasks) (named : task.id = id)
    (idle : task.status.isWorking = false) : StartsInOrder before after := by
  intro row inside working entered
  have equal : row = task := Table.eq_of_key after.taskKeys inside stored
    ((touched.eq_of_entered inside entered).trans named.symm)
  rw [equal, idle] at working
  cases working

/-! ## Runs -/

inductive Call where
  | create (input : CreateTask)
  | depend (input : AddDependency)
  | transition (input : TransitionTask)
  | ensure (input : EnsureTask)

/-- The database which a call leaves, where it goes through. -/
def Call.outcome (sha256 : String → String) (call : Call) (db : TaskDb) :
    Except String TaskDb :=
  match call with
  | .create input => (createMissionTask sha256 input db).map Prod.snd
  | .depend input => (addMissionTaskDependency input db).map Prod.snd
  | .transition input => (transitionMissionTask sha256 input db).map Prod.snd
  | .ensure input => (ensureMissionTaskForJob sha256 input db).map Prod.snd

/-- A database, and those before it in its run. -/
structure History where
  db : TaskDb
  past : List TaskDb

namespace History

def step (sha256 : String → String) (history : History) (call : Call) :
    History :=
  match call.outcome sha256 history.db with
  | .ok after => { db := after, past := history.db :: history.past }
  | .error _ => history

/-- A run may start with any rows in order. -/
def start (db : TaskDb) : History where
  db := db
  past := []

/-- Rows in order, later than all which a caller has seen. -/
structure Kept (history : History) : Prop where
  ordered : Ordered history.db
  later : ∀ seen ∈ history.db :: history.past, Later seen history.db

theorem Kept.start {db : TaskDb} (ordered : Ordered db) :
    Kept (start db) where
  ordered := ordered
  later := List.forall_mem_singleton.mpr (.refl db)

theorem Kept.next {history : History} (kept : Kept history) {after : TaskDb}
    (ordered : Ordered after) (later : Later history.db after) :
    Kept { db := after, past := history.db :: history.past } where
  ordered := ordered
  later := List.forall_mem_cons.mpr
    ⟨.refl after, fun seen inside => (kept.later seen inside).trans later⟩

end History

/-- A dependency is refused as a cycle exactly when it would close one. -/
def RefusesCycles (db : TaskDb) : Call → Prop
  | .depend input =>
    addMissionTaskDependency input db =
        .error "mission_task_dependency_cycle" ↔
      input.Checked db ∧ ¬ Acyclic
        (withEdge (Edge (db.edges input.tenantId)) input.taskId
          input.dependsOnTaskId)
  | _ => True

/-- What is meant to hold of a call. -/
structure InOrder (sha256 : String → String) (history : History)
    (call : Call) : Prop where
  ordered : Ordered (history.step sha256 call).db
  refuses : RefusesCycles history.db call
  starts : StartsInOrder history.db (history.step sha256 call).db

/--
A caller which moves a task to work passes a revision at which it was ready;
one which starts the task of a job again does so while it is ready.
-/
def AsksFirst (sha256 : String → String) (history : History) : Call → Prop
  | .transition input =>
    input.toStatus.isWorking = true →
    (∃ result, transitionMissionTask sha256 input history.db =
      .ok result) →
    (∀ row ∈ history.db.task? input.tenantId input.taskId,
      row.status ≠ input.toStatus) →
    ∃ seen ∈ history.db :: history.past,
      (∃ row ∈ seen.task? input.tenantId input.taskId,
        row.revision = input.expectedRevision) ∧
      missionTaskReady seen input.tenantId input.taskId = true
  | .ensure input =>
    (∃ result, ensureMissionTaskForJob sha256 input history.db =
      .ok result) →
    (∃ row ∈ history.db.task? input.tenantId
        (missionTaskIdForJob sha256 input.jobId),
      row.status = .unassigned ∨ row.status = .agentAssigned) →
    missionTaskReady history.db input.tenantId
      (missionTaskIdForJob sha256 input.jobId) = true
  | _ => True

/-! ## Single calls -/

theorem map_snd_eq_ok {β : Type} {outcome : Except String (β × TaskDb)}
    {after : TaskDb} :
    outcome.map Prod.snd = .ok after ↔
      ∃ value, outcome = .ok (value, after) := by
  cases outcome with
  | error failure =>
    refine iff_of_false (fun impossible => by cases impossible) ?_
    rintro ⟨_, impossible⟩
    cases impossible
  | ok pair =>
    constructor
    · intro same
      cases same
      exact ⟨pair.1, rfl⟩
    · rintro ⟨_, same⟩
      cases same
      rfl

theorem later_of_outcome {sha256 : String → String} {call : Call}
    {db after : TaskDb} (ordered : Ordered db)
    (done : call.outcome sha256 db = .ok after) :
    Ordered after ∧ Later db after := by
  cases call with
  | create input =>
    rcases map_snd_eq_ok.mp done with ⟨task, created⟩
    have touched := createMissionTask_touches created
    exact ⟨ordered.of_later touched.later touched.dependencies,
      touched.later⟩
  | depend input =>
    rcases map_snd_eq_ok.mp done with ⟨value, added⟩
    rcases addMissionTaskDependency_spec added with
      ⟨checked, rfl | ⟨unreached, tasks, dependencies⟩⟩
    · exact ⟨ordered, .refl _⟩
    · exact ⟨ordered.of_added checked unreached tasks dependencies,
        later_of_added checked tasks dependencies⟩
  | transition input =>
    rcases map_snd_eq_ok.mp done with ⟨task, moved⟩
    have touched := transitionMissionTask_touches moved
    exact ⟨ordered.of_later touched.later touched.dependencies,
      touched.later⟩
  | ensure input =>
    rcases map_snd_eq_ok.mp done with ⟨task, ensured⟩
    have touched := (ensureMissionTaskForJob_spec ensured).1
    exact ⟨ordered.of_later touched.later touched.dependencies,
      touched.later⟩

theorem History.Kept.step {history : History} (kept : history.Kept)
    (sha256 : String → String) (call : Call) :
    (history.step sha256 call).Kept := by
  rw [History.step]
  split
  · next after done =>
      rcases later_of_outcome kept.ordered done with ⟨ordered, later⟩
      exact kept.next ordered later
  · exact kept

theorem startsInOrder_of_added {input : AddDependency} {db after : TaskDb}
    {value : PUnit}
    (added : addMissionTaskDependency input db = .ok (value, after)) :
    StartsInOrder db after := by
  rcases addMissionTaskDependency_spec added with
    ⟨_, rfl | ⟨_, tasks, _⟩⟩
  · exact .refl _
  · intro task stored _ entered
    rcases (mem_raised tasks).mp stored with ⟨old, inside, rfl⟩
    refine absurd ?_ (entered old inside ?_)
    · split <;> rfl
    · split <;> rfl

theorem startsInOrder_of_created {sha256 : String → String}
    {input : CreateTask} {db after : TaskDb} {task : MissionTask}
    (created : createMissionTask sha256 input db = .ok (task, after)) :
    StartsInOrder db after := by
  rcases createMissionTask_spec created with
    ⟨rfl, _⟩ | ⟨_, named, _, idle, tasks, _⟩
  · exact .refl _
  · refine (createMissionTask_touches created).startsInOrder_of_idle ?_ named
      ?_
    · rw [tasks]
      exact List.mem_append_right _ (List.mem_singleton_self task)
    · rw [idle]
      rfl

theorem History.Kept.ready {history : History} (kept : history.Kept)
    {tenantId id : String} {seen : TaskDb} {current row : MissionTask}
    (inside : seen ∈ history.db :: history.past)
    (found : history.db.task? tenantId id = some current)
    (was : seen.task? tenantId id = some row)
    (revision : row.revision = current.revision)
    (ready : missionTaskReady seen tenantId id = true) :
    missionTaskReady history.db tenantId id = true := by
  rcases task?_eq_some.mp found with ⟨stored, named, tenant⟩
  rcases task?_eq_some.mp was with ⟨past, pastId, pastTenant⟩
  have later := kept.later seen inside
  refine later.ready (fun edge isEdge ofTenant ofTask => ?_) ready
  exact later.edges row past current stored (named.trans pastId.symm)
    revision.symm edge isEdge (ofTenant.trans pastTenant.symm)
    (ofTask.trans pastId.symm)

theorem History.Kept.transition_iff {history : History}
    (kept : history.Kept) {sha256 : String → String}
    {input : TransitionTask} {after : TaskDb} {task : MissionTask}
    (moved : transitionMissionTask sha256 input history.db =
      .ok (task, after)) :
    StartsInOrder history.db after ↔
      AsksFirst sha256 history (.transition input) := by
  have touched := transitionMissionTask_touches moved
  rcases transitionMissionTask_spec moved with ⟨current, found, revision,
    ⟨same, _, rfl⟩ | ⟨different, _, rfl, tasks, _⟩⟩
  · refine iff_of_true (.refl _) fun _ _ others => ?_
    exact absurd same (others current found)
  · rcases task?_eq_some.mp found with ⟨known, named, tenant⟩
    rw [touched.startsInOrder_iff kept.ordered known named tenant
      ((mem_transitioned found revision tasks).mpr (Or.inl rfl)) named tenant]
    constructor
    · intro inOrder working _ _
      exact ⟨history.db, List.mem_cons_self, ⟨current, found, revision⟩,
        inOrder working different⟩
    · intro asks working _
      rcases asks working ⟨_, moved⟩ fun row same => by
          rw [found] at same
          cases same
          exact different with
        ⟨seen, inside, ⟨row, was, sameRevision⟩, ready⟩
      exact kept.ready inside found was (sameRevision.trans revision.symm)
        ready

theorem History.Kept.ensure_iff {history : History} (kept : history.Kept)
    {sha256 : String → String} {input : EnsureTask} {after : TaskDb}
    {task : MissionTask}
    (ensured : ensureMissionTaskForJob sha256 input history.db =
      .ok (task, after)) :
    StartsInOrder history.db after ↔
      AsksFirst sha256 history (.ensure input) := by
  rcases ensureMissionTaskForJob_spec ensured with
    ⟨touched, stored, named, tenant, fresh | ⟨old, known, oldId, oldTenant,
      change⟩⟩
  · refine iff_of_true ?_ ?_
    · intro row inside working entered
      exact touched.ready_of_new kept.ordered fresh inside
        (touched.eq_of_entered inside entered)
    · rintro _ ⟨row, found, _⟩
      rcases task?_eq_some.mp found with ⟨inside, sameId, _⟩
      exact absurd sameId (fresh row inside)
  · have found := task?_eq_some.mpr ⟨known, oldId, oldTenant⟩
    rw [touched.startsInOrder_iff kept.ordered known oldId oldTenant stored
      named tenant]
    by_cases waits : old.status = .unassigned ∨ old.status = .agentAssigned
    · rw [if_pos waits] at change
      constructor
      · intro inOrder _ _
        refine inOrder (by rw [change]; rfl) ?_
        rw [change]
        rcases waits with waits | waits
        · rw [waits]
          decide
        · rw [waits]
          decide
      · intro asks _ _
        exact asks ⟨_, ensured⟩ ⟨old, found, waits⟩
    · rw [if_neg waits] at change
      refine iff_of_true ?_ ?_
      · intro _ different
        rw [change] at stored
        have same : old = task := Table.eq_of_key history.db.taskKeys known
          stored (oldId.trans named.symm)
        exact absurd (congrArg MissionTask.status same) different
      · rintro _ ⟨row, again, waiting⟩
        rw [found] at again
        cases again
        exact absurd waiting waits

theorem History.Kept.starts_iff {history : History} (kept : history.Kept)
    (sha256 : String → String) (call : Call) :
    StartsInOrder history.db (history.step sha256 call).db ↔
      AsksFirst sha256 history call := by
  rw [History.step]
  split
  · next after done =>
      cases call with
      | create input =>
        rcases map_snd_eq_ok.mp done with ⟨task, created⟩
        exact iff_of_true (startsInOrder_of_created created) trivial
      | depend input =>
        rcases map_snd_eq_ok.mp done with ⟨value, added⟩
        exact iff_of_true (startsInOrder_of_added added) trivial
      | transition input =>
        rcases map_snd_eq_ok.mp done with ⟨task, moved⟩
        exact kept.transition_iff moved
      | ensure input =>
        rcases map_snd_eq_ok.mp done with ⟨task, ensured⟩
        exact kept.ensure_iff ensured
  · next failure failed =>
      refine iff_of_true (.refl _) ?_
      cases call with
      | create input => trivial
      | depend input => trivial
      | transition input =>
        rintro _ ⟨result, moved⟩
        rw [Call.outcome, moved] at failed
        cases failed
      | ensure input =>
        rintro ⟨result, ensured⟩
        rw [Call.outcome, ensured] at failed
        cases failed

theorem History.Kept.inOrder_iff {history : History} (kept : history.Kept)
    (sha256 : String → String) (call : Call) :
    InOrder sha256 history call ↔ AsksFirst sha256 history call := by
  rw [← kept.starts_iff]
  refine ⟨InOrder.starts, fun starts => ⟨(kept.step sha256 call).ordered, ?_,
    starts⟩⟩
  cases call with
  | depend input => exact refused_iff kept.ordered input
  | create input => trivial
  | transition input => trivial
  | ensure input => trivial

/-! ## A sample -/

/-- A principal, a mission and nothing else. -/
def sampleDb : TaskDb where
  principals :=
    [{ id := "p", tenantId := "t", kind := .human, revokedAt := none }]
  missions := [{ id := "m", tenantId := "t" }]
  dispatches := []
  tasks := []
  dependencies := []
  domainEvents := []
  taskKeys := .nil

def sampleDetails (name : String) : EventDetails where
  actorPrincipalId := "p"
  eventId := "event-" ++ name
  idempotencyKey := "key-" ++ name
  correlationId := "c"
  causationId := none
  createdAt := "2026-01-01T00:00:00.000Z"

def sampleCreate (id : String) : Call :=
  .create
    { toEventDetails := sampleDetails id
      id := id
      tenantId := "t"
      missionId := "m"
      taskType := "repair"
      acceptanceCriteria := "green"
      risk := .low }

def sampleMove (name : String) (revision : Nat)
    (toStatus : MissionTaskStatus) : Call :=
  .transition
    { toEventDetails := sampleDetails name
      tenantId := "t"
      taskId := "b"
      expectedRevision := revision
      toStatus := toStatus
      assignedPrincipalId := none
      handoffReason := none }

/-- Task `b` depends on task `a`, which nobody has taken. -/
def sampleDependency : Call :=
  .depend
    { id := "d"
      tenantId := "t"
      missionId := "m"
      taskId := "b"
      dependsOnTaskId := "a"
      createdAt := "2026-01-01T00:00:00.000Z" }

theorem sampleDb_ordered : Ordered sampleDb where
  within edge impossible := by cases impossible
  acyclic tenantId node cycle := by
    rcases TransGen.head'_iff.mp cycle with ⟨next, first, _⟩
    cases first

/-- Task `b` is assigned to an agent while `a` is waiting. -/
def sampleAssigned : List Call :=
  [sampleCreate "a", sampleCreate "b", sampleDependency,
    sampleMove "assign" 2 .agentAssigned]

/-! ## All runs -/

/--
From rows in order, every call of a run refuses cycles, keeps the dependencies
in order and starts tasks in their order exactly when every caller which starts
a task has asked whether it is ready, and passes the revision of the answer.
-/
theorem inOrder_iff_asksFirst (sha256 : String → String) (db : TaskDb)
    (ordered : Ordered db) (calls : List Call) :
    Along (History.step sha256) (InOrder sha256) (History.start db) calls ↔
      Along (History.step sha256) (AsksFirst sha256) (History.start db)
        calls :=
  @along_iff_along _ _ _ _ _ History.Kept
    (fun _ call kept _ => kept.step sha256 call)
    (fun _ call kept => kept.inOrder_iff sha256 call) _
    (History.Kept.start ordered) calls

theorem inOrder_sample :
    Along (History.step id) (InOrder id) (History.start sampleDb)
        sampleAssigned ↔
      Along (History.step id) (AsksFirst id) (History.start sampleDb)
        sampleAssigned :=
  inOrder_iff_asksFirst id sampleDb sampleDb_ordered _

/-- The dependent task is worked on before the one which it needs. -/
theorem dependent_task_starts_early :
    Ordered sampleDb ∧
      ¬ Along (History.step id) (InOrder id) (History.start sampleDb)
        (sampleAssigned ++ [sampleMove "work" 3 .agentWorking]) := by
  refine ⟨sampleDb_ordered, ?_⟩
  rw [along_append]
  rintro ⟨_, inOrder, _⟩
  have early : ∃ task ∈ ((run (History.step id) (History.start sampleDb)
        sampleAssigned).step id (sampleMove "work" 3 .agentWorking)).db.tasks,
      task.status.isWorking = true ∧
      (∀ old ∈ (run (History.step id) (History.start sampleDb)
        sampleAssigned).db.tasks, old.id = task.id →
          old.status ≠ task.status) ∧
      missionTaskReady ((run (History.step id) (History.start sampleDb)
        sampleAssigned).step id (sampleMove "work" 3 .agentWorking)).db
        task.tenantId task.id = false := by
    decide
  rcases early with ⟨task, stored, working, entered, unready⟩
  have ready := inOrder.starts task stored working entered
  rw [unready] at ready
  cases ready

end Mendpoint.Mission
