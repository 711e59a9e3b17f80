import Mendpoint.Mission.Tasks
import Mendpoint.Library.Run

/-!
# The order of tasks

The dependencies of a tenant have no cycles and stay inside a mission.  Nothing
but the caller asks whether a task is ready: tasks are started in order exactly
when each start passes a revision at which the task has been ready.
-/

namespace Mendpoint.Mission

open Mendpoint.Library
open Mendpoint.Library.DepthFirst
open Mendpoint.Library.Fallible
open Mendpoint.Library.Run
open Relation

/-! ## Rows -/

variable {db : TaskDb} {tenantId : String} {sha256 : String → String}
  {after : TaskDb} {task : MissionTask} {input : AddDependency}

theorem task?_eq_some {id : String} {row : MissionTask} :
    db.task? tenantId id = some row ↔
      row ∈ db.tasks ∧ row.id = id ∧ row.tenantId = tenantId := by
  constructor
  · intro found
    have named := List.find?_some found
    rw [decide_eq_true_eq] at named
    exact ⟨List.mem_of_find?_eq_some found, named⟩
  · rintro ⟨inside, rfl, rfl⟩
    cases found : db.task? row.tenantId row.id with
    | none =>
      have missing := List.find?_eq_none.mp found row inside
      rw [decide_eq_true_eq] at missing
      exact absurd ⟨rfl, rfl⟩ missing
    | some other =>
      have named := List.find?_some found
      rw [decide_eq_true_eq] at named
      rw [Table.eq_of_key db.taskKeys (List.mem_of_find?_eq_some found)
        inside named.1]

theorem mem_edges {left right : String} :
    Edge (db.edges tenantId) left right ↔
      ∃ row ∈ db.dependencies, row.tenantId = tenantId ∧
        row.taskId = left ∧ row.dependsOnTaskId = right := by
  rw [Edge, TaskDb.edges, List.mem_map]
  simp only [List.mem_filter, decide_eq_true_eq, Prod.mk.injEq, and_assoc]

theorem missionTaskReady_iff {taskId : String} :
    missionTaskReady db tenantId taskId = true ↔
      (∃ row ∈ db.tasks, row.id = taskId ∧ row.tenantId = tenantId) ∧
        ∀ edge ∈ db.dependencies, edge.tenantId = tenantId →
          edge.taskId = taskId → ∃ row ∈ db.tasks,
            row.id = edge.dependsOnTaskId ∧ row.tenantId = tenantId ∧
            row.status = .complete := by
  rw [missionTaskReady]
  cases found : db.task? tenantId taskId with
  | none =>
    refine iff_of_false Bool.false_ne_true ?_
    rintro ⟨⟨row, inside, named⟩, _⟩
    rw [task?_eq_some.mpr ⟨inside, named⟩] at found
    cases found
  | some task =>
    rw [and_iff_right ⟨task, task?_eq_some.mp found⟩, List.all_eq_true]
    simp only [List.mem_filter, decide_eq_true_eq, and_imp]
    refine forall_congr' fun edge => forall_congr' fun _ =>
      forall_congr' fun _ => forall_congr' fun _ => ?_
    cases needed : db.task? tenantId edge.dependsOnTaskId with
    | none =>
      refine iff_of_false Bool.false_ne_true ?_
      rintro ⟨row, inside, named, tenant, _⟩
      rw [task?_eq_some.mpr ⟨inside, named, tenant⟩] at needed
      cases needed
    | some prerequisite =>
      rcases task?_eq_some.mp needed with ⟨inside, named, tenant⟩
      constructor
      · intro complete
        exact ⟨prerequisite, inside, named, tenant,
          of_decide_eq_true complete⟩
      · rintro ⟨row, within, sameName, _, complete⟩
        rw [← Table.eq_of_key db.taskKeys within inside
          (sameName.trans named.symm)]
        exact decide_eq_true complete

/-! ## What calls leave as it is -/

/-- Later rows: complete tasks stay so, and new edges raise the revision. -/
structure Later (before after : TaskDb) : Prop where
  kept : ∀ row ∈ before.tasks, ∃ next ∈ after.tasks, next.id = row.id ∧
    next.tenantId = row.tenantId ∧ next.missionId = row.missionId ∧
    row.revision ≤ next.revision ∧
    (row.status = .complete → next.status = .complete)
  edges : ∀ row ∈ before.tasks, ∀ next ∈ after.tasks, next.id = row.id →
    next.revision = row.revision → ∀ edge ∈ after.dependencies,
      edge.tenantId = row.tenantId → edge.taskId = row.id →
      edge ∈ before.dependencies

theorem Later.refl (db : TaskDb) : Later db db where
  kept row inside := ⟨row, inside, rfl, rfl, rfl, Nat.le_refl _, id⟩
  edges _ _ _ _ _ _ _ inside _ _ := inside

theorem Later.trans {first second third : TaskDb}
    (early : Later first second) (late : Later second third) :
    Later first third where
  kept row inside := by
    rcases early.kept row inside with
      ⟨next, within, id, tenant, mission, revision, complete⟩
    rcases late.kept next within with
      ⟨last, there, id', tenant', mission', revision', complete'⟩
    exact ⟨last, there, id'.trans id, tenant'.trans tenant,
      mission'.trans mission, Nat.le_trans revision revision',
      complete' ∘ complete⟩
  edges row inside last there named same edge isEdge tenant task := by
    rcases early.kept row inside with
      ⟨next, within, id, tenantNext, _, revision, _⟩
    rcases late.kept next within with
      ⟨again, present, id', _, _, revision', _⟩
    have equal : again = last := Table.eq_of_key third.taskKeys present there
      ((id'.trans id).trans named.symm)
    rw [equal] at revision'
    refine early.edges row inside next within id (by omega) edge ?_ tenant
      task
    exact late.edges next within last there (named.trans id.symm) (by omega)
      edge isEdge (tenant.trans tenantNext.symm) (task.trans id.symm)

theorem Later.ready {before after : TaskDb} (later : Later before after)
    {tenantId id : String}
    (edges : ∀ edge ∈ after.dependencies, edge.tenantId = tenantId →
      edge.taskId = id → edge ∈ before.dependencies)
    (ready : missionTaskReady before tenantId id = true) :
    missionTaskReady after tenantId id = true := by
  rw [missionTaskReady_iff] at ready ⊢
  rcases ready with ⟨⟨row, inside, rfl, rfl⟩, complete⟩
  rcases later.kept row inside with ⟨next, within, named, tenant, _⟩
  refine ⟨⟨next, within, named, tenant⟩, ?_⟩
  intro edge isEdge ofTenant ofTask
  rcases complete edge (edges edge isEdge ofTenant ofTask) ofTenant ofTask with
    ⟨prerequisite, present, needed, sameTenant, done⟩
  rcases later.kept prerequisite present with
    ⟨last, there, id', tenant', _, _, stays⟩
  exact ⟨last, there, id'.trans needed, tenant'.trans sameTenant, stays done⟩

/-- A call which writes no edge, and no task but one. -/
structure Touches (id : String) (before after : TaskDb) : Prop where
  later : Later before after
  others : ∀ row ∈ after.tasks, row.id ≠ id → row ∈ before.tasks
  dependencies : after.dependencies = before.dependencies

theorem Touches.refl (id : String) (db : TaskDb) : Touches id db db where
  later := .refl db
  others _ inside _ := inside
  dependencies := rfl

theorem Touches.trans {id : String} {first second third : TaskDb}
    (early : Touches id first second) (late : Touches id second third) :
    Touches id first third where
  later := early.later.trans late.later
  others row inside other :=
    early.others row (late.others row inside other) other
  dependencies := late.dependencies.trans early.dependencies

/-! ## What one call does -/

theorem record_eq_ok {input : Trust.EventInput}
    (recorded : record sha256 db input = .ok after) :
    after.tasks = db.tasks ∧ after.dependencies = db.dependencies := by
  rw [record, bind_eq_ok] at recorded
  rcases recorded with ⟨appended, _, same⟩
  rw [pure_eq_ok] at same
  rw [← same]
  exact ⟨rfl, rfl⟩

theorem createMissionTask_spec {input : CreateTask}
    (created : createMissionTask sha256 input db = .ok (task, after)) :
    (after = db ∧ task ∈ db.tasks ∧ task.id = input.id ∧
        task.tenantId = input.tenantId) ∨
      ((∀ row ∈ db.tasks, row.id ≠ input.id) ∧ task.id = input.id ∧
        task.tenantId = input.tenantId ∧ task.status = .unassigned ∧
        after.tasks = db.tasks ++ [task] ∧
        after.dependencies = db.dependencies) := by
  rw [createMissionTask, bind_eq_ok] at created
  rcases created with ⟨_, _, rest⟩
  rw [bind_eq_ok] at rest
  rcases rest with ⟨_, _, rest⟩
  rw [bind_eq_ok] at rest
  rcases rest with ⟨acceptanceCriteria, _, rest⟩
  rw [bind_eq_ok] at rest
  rcases rest with ⟨_, _, rest⟩
  split at rest
  · next existing found =>
      rw [bind_eq_ok] at rest
      rcases rest with ⟨_, same, rest⟩
      rw [throwIf_eq_ok, not_not] at same
      cases rest
      have named := List.find?_some found
      rw [decide_eq_true_eq] at named
      exact Or.inl ⟨rfl, List.mem_of_find?_eq_some found, named, same.1⟩
  · next unknown =>
      rw [bind_eq_ok] at rest
      rcases rest with ⟨_, _, rest⟩
      rw [bind_eq_ok] at rest
      rcases rest with ⟨dispatches, _, rest⟩
      rw [bind_eq_ok] at rest
      rcases rest with ⟨recorded, written, rest⟩
      cases rest
      rcases record_eq_ok written with ⟨tasks, dependencies⟩
      refine Or.inr ⟨?_, rfl, rfl, rfl, tasks, dependencies⟩
      intro row inside
      have other := List.find?_eq_none.mp unknown row inside
      rw [decide_eq_true_eq] at other
      exact other

theorem transitionMissionTask_spec {input : TransitionTask}
    (moved : transitionMissionTask sha256 input db = .ok (task, after)) :
    ∃ current, db.task? input.tenantId input.taskId = some current ∧
      current.revision = input.expectedRevision ∧
      ((current.status = input.toStatus ∧ task = current ∧ after = db) ∨
        (current.status ≠ input.toStatus ∧
          input.toStatus ∈ current.status.transitions ∧
          task = input.change current current ∧
          after.tasks =
            Table.update input.selects (input.change current) db.tasks ∧
          after.dependencies = db.dependencies)) := by
  rw [transitionMissionTask, bind_eq_ok] at moved
  rcases moved with ⟨_, _, rest⟩
  rw [bind_eq_ok] at rest
  rcases rest with ⟨_, _, rest⟩
  split at rest
  · cases rest
  · next current found =>
      rw [bind_eq_ok] at rest
      rcases rest with ⟨_, revision, rest⟩
      rw [throwIf_eq_ok, not_not] at revision
      refine ⟨current, found, revision, ?_⟩
      split at rest
      · next same =>
          cases rest
          exact Or.inl ⟨same, rfl, rfl⟩
      · next other =>
          rw [bind_eq_ok] at rest
          rcases rest with ⟨_, allowed, rest⟩
          rw [throwIf_eq_ok, not_not] at allowed
          rw [bind_eq_ok] at rest
          rcases rest with ⟨dispatches, _, rest⟩
          rw [bind_eq_ok] at rest
          rcases rest with ⟨_, _, rest⟩
          rw [bind_eq_ok] at rest
          rcases rest with ⟨_, _, rest⟩
          rw [bind_eq_ok] at rest
          rcases rest with ⟨recorded, written, rest⟩
          cases rest
          rcases record_eq_ok written with ⟨tasks, dependencies⟩
          exact Or.inr ⟨other, allowed, rfl, tasks, dependencies⟩

theorem touches_of_append (fresh : ∀ row ∈ db.tasks, row.id ≠ task.id)
    (tasks : after.tasks = db.tasks ++ [task])
    (dependencies : after.dependencies = db.dependencies) :
    Touches task.id db after where
  later :=
    { kept := fun row inside => ⟨row, tasks ▸ List.mem_append_left _ inside,
        rfl, rfl, rfl, Nat.le_refl _, id⟩
      edges := fun _ _ _ _ _ _ edge isEdge _ _ => dependencies ▸ isEdge }
  others row inside other := by
    rw [tasks, List.mem_append, List.mem_singleton] at inside
    rcases inside with old | rfl
    · exact old
    · exact absurd rfl other
  dependencies := dependencies

theorem not_complete_of_transition {source status : MissionTaskStatus}
    (allowed : status ∈ source.transitions) : source ≠ .complete := by
  rintro rfl
  cases allowed

theorem createMissionTask_touches {input : CreateTask}
    (created : createMissionTask sha256 input db = .ok (task, after)) :
    Touches input.id db after := by
  rcases createMissionTask_spec created with
    ⟨rfl, _⟩ | ⟨fresh, named, _, _, tasks, dependencies⟩
  · exact .refl _ _
  · rw [← named] at fresh ⊢
    exact touches_of_append fresh tasks dependencies

theorem mem_transitioned {input : TransitionTask} {db after : TaskDb}
    {current : MissionTask}
    (found : db.task? input.tenantId input.taskId = some current)
    (revision : current.revision = input.expectedRevision)
    (tasks : after.tasks =
      Table.update input.selects (input.change current) db.tasks)
    {row : MissionTask} :
    row ∈ after.tasks ↔
      row = input.change current current ∨
        (row ∈ db.tasks ∧ row.id ≠ input.taskId) := by
  rcases task?_eq_some.mp found with ⟨inside, named, tenant⟩
  have selected : input.selects current = true :=
    decide_eq_true ⟨named, tenant, revision⟩
  have only : ∀ other ∈ db.tasks, input.selects other = true ↔
      other = current := fun other within =>
    Table.selected_iff db.taskKeys
      (fun one chosen => by
        rw [TransitionTask.selects, decide_eq_true_eq] at chosen
        exact chosen.1.trans named.symm) inside selected within
  rw [tasks, Table.mem_update]
  constructor
  · rintro (⟨old, within, chosen, rfl⟩ | ⟨within, other⟩)
    · rw [(only old within).mp chosen]
      exact Or.inl rfl
    · refine Or.inr ⟨within, fun same => ?_⟩
      have equal : row = current := Table.eq_of_key db.taskKeys within inside
        (same.trans named.symm)
      rw [equal, selected] at other
      cases other
  · rintro (rfl | ⟨within, other⟩)
    · exact Or.inl ⟨current, inside, selected, rfl⟩
    · refine Or.inr ⟨within, eq_false_of_ne_true fun chosen => other ?_⟩
      rw [(only row within).mp chosen]
      exact named

theorem transitionMissionTask_touches {input : TransitionTask}
    (moved : transitionMissionTask sha256 input db = .ok (task, after)) :
    Touches input.taskId db after := by
  rcases transitionMissionTask_spec moved with ⟨current, found, revision,
    ⟨_, _, rfl⟩ | ⟨_, allowed, _, tasks, dependencies⟩⟩
  · exact .refl _ _
  · have rows := @mem_transitioned input db after current found revision tasks
    rcases task?_eq_some.mp found with ⟨inside, named, tenant⟩
    refine ⟨⟨?_, ?_⟩, ?_, dependencies⟩
    · intro row within
      by_cases same : row.id = input.taskId
      · have equal : row = current := Table.eq_of_key db.taskKeys within
          inside (same.trans named.symm)
        rw [equal]
        refine ⟨input.change current current, rows.mpr (Or.inl rfl), rfl, rfl,
          rfl, Nat.le_succ _, fun complete => ?_⟩
        exact absurd complete (not_complete_of_transition allowed)
      · exact ⟨row, rows.mpr (Or.inr ⟨within, same⟩), rfl, rfl, rfl,
          Nat.le_refl _, id⟩
    · intro _ _ _ _ _ _ edge isEdge _ _
      rw [dependencies] at isEdge
      exact isEdge
    · intro row within other
      rcases rows.mp within with rfl | ⟨old, _⟩
      · exact absurd named other
      · exact old

theorem ensureMoved_spec {input : EnsureTask}
    {fromStatus toStatus : MissionTaskStatus} {next : MissionTask}
    (stored : task ∈ db.tasks)
    (named : task.id = missionTaskIdForJob sha256 input.jobId)
    (tenant : task.tenantId = input.tenantId)
    (different : fromStatus ≠ toStatus)
    (moved : ensureMoved sha256 input fromStatus toStatus (task, db) = .ok
      (next, after)) :
    Touches (missionTaskIdForJob sha256 input.jobId) db after ∧
      next ∈ after.tasks ∧
      next.id = missionTaskIdForJob sha256 input.jobId ∧
      next.tenantId = input.tenantId ∧
      ((task.status = fromStatus ∧ next.status = toStatus) ∨
        (task.status ≠ fromStatus ∧ next = task ∧ after = db)) := by
  rw [ensureMoved] at moved
  split at moved
  · next at_ =>
      refine ⟨transitionMissionTask_touches moved, ?_⟩
      rcases transitionMissionTask_spec moved with ⟨current, found, revision,
        ⟨same, _, _⟩ | ⟨_, _, rfl, tasks, _⟩⟩
      · rcases task?_eq_some.mp found with ⟨inside, sameId, _⟩
        have equal : current = task := Table.eq_of_key db.taskKeys inside
          stored (sameId.trans named.symm)
        rw [equal, at_] at same
        exact absurd same different
      · rcases task?_eq_some.mp found with ⟨inside, sameId, sameTenant⟩
        exact ⟨(mem_transitioned found revision tasks).mpr (Or.inl rfl),
          sameId, sameTenant, Or.inl ⟨at_, rfl⟩⟩
  · next other =>
      cases moved
      exact ⟨.refl _ _, stored, named, tenant, Or.inr ⟨other, rfl, rfl⟩⟩

theorem ensureCreated_spec {input : EnsureTask}
    (created : ensureCreated sha256 input db = .ok (task, after)) :
    Touches (missionTaskIdForJob sha256 input.jobId) db after ∧
      task ∈ after.tasks ∧
      task.id = missionTaskIdForJob sha256 input.jobId ∧
      task.tenantId = input.tenantId ∧
      ((task ∈ db.tasks ∧ after = db) ∨
        ∀ row ∈ db.tasks,
          row.id ≠ missionTaskIdForJob sha256 input.jobId) := by
  rw [ensureCreated] at created
  split at created
  · refine ⟨createMissionTask_touches created, ?_⟩
    rcases createMissionTask_spec created with
      ⟨rfl, stored, named, tenant⟩ | ⟨fresh, named, tenant, _, tasks, _⟩
    · exact ⟨stored, named, tenant, Or.inl ⟨stored, rfl⟩⟩
    · refine ⟨?_, named, tenant, Or.inr fresh⟩
      rw [tasks]
      exact List.mem_append_right _ (List.mem_singleton_self task)
  · next existing found =>
      rw [bind_eq_ok] at created
      rcases created with ⟨_, _, rest⟩
      cases rest
      rcases task?_eq_some.mp found with ⟨inside, named, tenant⟩
      exact ⟨.refl _ _, inside, named, tenant, Or.inl ⟨inside, rfl⟩⟩

theorem ensureMissionTaskForJob_spec {input : EnsureTask}
    (ensured : ensureMissionTaskForJob sha256 input db = .ok (task, after)) :
    Touches (missionTaskIdForJob sha256 input.jobId) db after ∧
      task ∈ after.tasks ∧
      task.id = missionTaskIdForJob sha256 input.jobId ∧
      task.tenantId = input.tenantId ∧
      ((∀ row ∈ db.tasks,
          row.id ≠ missionTaskIdForJob sha256 input.jobId) ∨
        ∃ old ∈ db.tasks,
          old.id = missionTaskIdForJob sha256 input.jobId ∧
          old.tenantId = input.tenantId ∧
          if old.status = .unassigned ∨ old.status = .agentAssigned then
            task.status = .agentWorking
          else after = db) := by
  rw [ensureMissionTaskForJob, bind_eq_ok] at ensured
  rcases ensured with ⟨_, _, rest⟩
  rw [bind_eq_ok] at rest
  rcases rest with ⟨⟨first, middle⟩, created, rest⟩
  rw [bind_eq_ok] at rest
  rcases rest with ⟨⟨second, later⟩, assigned, worked⟩
  rcases ensureCreated_spec created with
    ⟨touched, stored, named, tenant, origin⟩
  rcases ensureMoved_spec stored named tenant (by decide) assigned with
    ⟨touchedThen, storedThen, namedThen, tenantThen, assignedCases⟩
  rcases ensureMoved_spec storedThen namedThen tenantThen (by decide)
    worked with ⟨touchedLast, storedLast, namedLast, tenantLast, workedCases⟩
  refine ⟨(touched.trans touchedThen).trans touchedLast, storedLast,
    namedLast, tenantLast, ?_⟩
  rcases origin with ⟨known, rfl⟩ | fresh
  · refine Or.inr ⟨first, known, named, tenant, ?_⟩
    rcases assignedCases with ⟨waiting, now⟩ | ⟨notWaiting, rfl, rfl⟩
    · rw [if_pos (Or.inl waiting)]
      rcases workedCases with ⟨_, works⟩ | ⟨other, _⟩
      · exact works
      · exact absurd now other
    · rcases workedCases with ⟨ready, works⟩ | ⟨other, _, same⟩
      · rw [if_pos (Or.inr ready)]
        exact works
      · rw [if_neg (not_or.mpr ⟨notWaiting, other⟩)]
        exact same
  · exact Or.inl fresh

/-! ## Dependencies -/

/-- Both tasks of an edge are there, apart, and of the mission. -/
def AddDependency.Checked (input : AddDependency) (db : TaskDb) : Prop :=
  input.taskId ≠ input.dependsOnTaskId ∧
    ∀ id ∈ [input.taskId, input.dependsOnTaskId], ∃ row ∈ db.tasks,
      row.id = id ∧ row.tenantId = input.tenantId ∧
      row.missionId = input.missionId

theorem assertOfMission_eq_ok {missionId id : String} {value : PUnit} :
    assertOfMission db tenantId missionId id = .ok value ↔
      ∃ row ∈ db.tasks, row.id = id ∧ row.tenantId = tenantId ∧
        row.missionId = missionId := by
  rw [assertOfMission]
  cases found : db.task? tenantId id with
  | none =>
    refine iff_of_false (by simp) ?_
    rintro ⟨row, inside, named, tenant, _⟩
    rw [task?_eq_some.mpr ⟨inside, named, tenant⟩] at found
    cases found
  | some row =>
    rcases task?_eq_some.mp found with ⟨inside, named, tenant⟩
    simp only [throwIf_eq_ok, not_not]
    constructor
    · exact fun mission => ⟨row, inside, named, tenant, mission⟩
    · rintro ⟨other, within, sameId, _, mission⟩
      rw [Table.eq_of_key db.taskKeys inside within
        (named.trans sameId.symm)]
      exact mission

theorem dependsOnTransitively_iff {start target : String} :
    dependsOnTransitively db tenantId start target = true ↔
      ReflTransGen (Edge (db.edges tenantId)) start target :=
  search_from_iff _ _ _

theorem addMissionTaskDependency_spec {value : PUnit}
    (added : addMissionTaskDependency input db = .ok (value, after)) :
    input.Checked db ∧
      (after = db ∨
        (¬ ReflTransGen (Edge (db.edges input.tenantId))
            input.dependsOnTaskId input.taskId ∧
          after.tasks = Table.update input.selects input.change db.tasks ∧
          after.dependencies = db.dependencies ++ [input.row])) := by
  rw [addMissionTaskDependency, bind_eq_ok] at added
  rcases added with ⟨_, apart, rest⟩
  rw [throwIf_eq_ok] at apart
  rw [bind_eq_ok] at rest
  rcases rest with ⟨_, first, rest⟩
  rw [assertOfMission_eq_ok] at first
  rw [bind_eq_ok] at rest
  rcases rest with ⟨_, second, rest⟩
  rw [assertOfMission_eq_ok] at second
  refine ⟨⟨apart, List.forall_mem_cons.mpr
    ⟨first, List.forall_mem_singleton.mpr second⟩⟩, ?_⟩
  split at rest
  · cases rest
    exact Or.inl rfl
  · rw [bind_eq_ok] at rest
    rcases rest with ⟨_, unreached, rest⟩
    rw [throwIf_eq_ok, dependsOnTransitively_iff] at unreached
    rw [bind_eq_ok] at rest
    rcases rest with ⟨dispatches, _, rest⟩
    rw [bind_eq_ok] at rest
    rcases rest with ⟨_, _, rest⟩
    rw [bind_eq_ok] at rest
    rcases rest with ⟨_, _, rest⟩
    cases rest
    exact Or.inr ⟨unreached, rfl, rfl⟩

/-- The dependencies of a database: inside missions, and without cycles. -/
structure Ordered (db : TaskDb) : Prop where
  within : ∀ edge ∈ db.dependencies,
    ∀ id ∈ [edge.taskId, edge.dependsOnTaskId], ∃ row ∈ db.tasks,
      row.id = id ∧ row.tenantId = edge.tenantId ∧
      row.missionId = edge.missionId
  acyclic : ∀ tenantId, Acyclic (Edge (db.edges tenantId))

theorem Ordered.of_later {before : TaskDb} (ordered : Ordered before)
    (later : Later before after)
    (same : after.dependencies = before.dependencies) : Ordered after where
  within edge isEdge id member := by
    rw [same] at isEdge
    rcases ordered.within edge isEdge id member with
      ⟨row, inside, named, tenant, mission⟩
    rcases later.kept row inside with
      ⟨next, there, id', tenant', mission', _⟩
    exact ⟨next, there, id'.trans named, tenant'.trans tenant,
      mission'.trans mission⟩
  acyclic tenantId := by
    rw [TaskDb.edges, same]
    exact ordered.acyclic tenantId

theorem edge_append
    (dependencies : after.dependencies = db.dependencies ++ [input.row])
    (tenantId left right : String) :
    Edge (after.edges tenantId) left right ↔
      Edge (db.edges tenantId) left right ∨
        (input.tenantId = tenantId ∧ left = input.taskId ∧
          right = input.dependsOnTaskId) := by
  rw [mem_edges, mem_edges, dependencies]
  simp only [List.mem_append, List.mem_singleton, or_and_right, exists_or,
    exists_eq_left, AddDependency.row]
  refine or_congr_right (and_congr_right fun _ => ?_)
  rw [eq_comm, eq_comm (a := input.dependsOnTaskId)]

theorem mem_raised
    (tasks : after.tasks = Table.update input.selects input.change db.tasks)
    {row : MissionTask} :
    row ∈ after.tasks ↔ ∃ old ∈ db.tasks,
      row = if input.selects old = true then input.change old else old := by
  rw [tasks, Table.update, List.mem_map]
  exact exists_congr fun old => and_congr_right fun _ => eq_comm

theorem later_of_added (checked : input.Checked db)
    (tasks : after.tasks = Table.update input.selects input.change db.tasks)
    (dependencies : after.dependencies = db.dependencies ++ [input.row]) :
    Later db after where
  kept row inside := by
    refine ⟨_, (mem_raised tasks).mpr ⟨row, inside, rfl⟩, ?_⟩
    split
    · exact ⟨rfl, rfl, rfl, Nat.le_succ _, id⟩
    · exact ⟨rfl, rfl, rfl, Nat.le_refl _, id⟩
  edges row inside next within named revision edge isEdge tenant task := by
    rw [dependencies, List.mem_append, List.mem_singleton] at isEdge
    rcases isEdge with old | rfl
    · exact old
    · rcases (mem_raised tasks).mp within with ⟨old, present, rfl⟩
      have same : old = row := by
        refine Table.eq_of_key db.taskKeys present inside ?_
        split at named
        · exact named
        · exact named
      rcases checked.2 input.taskId List.mem_cons_self with
        ⟨found, stored, sameId, sameTenant, mission⟩
      have equal : found = row :=
        Table.eq_of_key db.taskKeys stored inside (sameId.trans task)
      have selected : input.selects old = true := by
        rw [same, ← equal]
        exact decide_eq_true ⟨sameId, sameTenant, mission⟩
      rw [if_pos selected, same] at revision
      exact absurd revision (Nat.succ_ne_self _)

theorem Ordered.of_added (ordered : Ordered db) (checked : input.Checked db)
    (unreached : ¬ ReflTransGen (Edge (db.edges input.tenantId))
      input.dependsOnTaskId input.taskId)
    (tasks : after.tasks = Table.update input.selects input.change db.tasks)
    (dependencies : after.dependencies = db.dependencies ++ [input.row]) :
    Ordered after where
  within edge isEdge id member := by
    have found : ∃ row ∈ db.tasks, row.id = id ∧
        row.tenantId = edge.tenantId ∧ row.missionId = edge.missionId := by
      rw [dependencies, List.mem_append, List.mem_singleton] at isEdge
      rcases isEdge with old | rfl
      · exact ordered.within edge old id member
      · exact checked.2 id member
    rcases found with ⟨row, inside, named, tenant, mission⟩
    rcases (later_of_added checked tasks dependencies).kept row inside with
      ⟨next, there, id', tenant', mission', _⟩
    exact ⟨next, there, id'.trans named, tenant'.trans tenant,
      mission'.trans mission⟩
  acyclic tenantId := by
    have edges := edge_append dependencies tenantId
    by_cases same : input.tenantId = tenantId
    · have relation : Edge (after.edges tenantId) =
          withEdge (Edge (db.edges tenantId)) input.taskId
            input.dependsOnTaskId := by
        funext left right
        rw [withEdge, eq_iff_iff, edges, and_iff_right same]
      rw [relation, acyclic_withEdge_iff (ordered.acyclic tenantId), ← same]
      exact unreached
    · have relation : Edge (after.edges tenantId) =
          Edge (db.edges tenantId) := by
        funext left right
        rw [eq_iff_iff, edges]
        exact or_iff_left fun other => same other.1
      rw [relation]
      exact ordered.acyclic tenantId

end Mendpoint.Mission
