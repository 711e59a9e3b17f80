import Mendpoint.Campaign.Discipline
import Mendpoint.Library.DependencyOrder
import Mendpoint.Library.Numbers

/-!
# The targets of a campaign

A target is added to a draft campaign after the targets on which it depends,
and no later call changes its dependencies.  So the targets of a campaign stay
in an order with dependencies first.
-/

namespace Mendpoint.Campaign

open Mendpoint.Library
open Mendpoint.Library.Attempt
open Mendpoint.Library.DependencyWaves
open Mendpoint.Library.Fallible
open Mendpoint.Trust

/-! ## Adding a target -/

structure ConnectedRepository where
  id : String
  tenantId : String

structure RepositorySnapshot where
  id : String
  repositoryId : String
  tenantId : String

/-- The tables which an addition only reads. -/
structure Repositories where
  connectedRepositories : List ConnectedRepository
  repositorySnapshots : List RepositorySnapshot

structure TargetAddition where
  id : String
  tenantId : String
  campaignId : String
  repositoryId : String
  snapshotId : String
  ownerPrincipalId : String
  dependsOn : Option (List String)
  maxAttempts : Option Int
  enrollmentSource : Option WardenEnrollmentSource
  enrolledInstallationId : Option String
  eventId : String
  idempotencyKey : String
  correlationId : String
  createdAt : String

namespace TargetAddition

/-- `[...new Set(input.dependsOn ?? [])].sort()`. -/
def dependencies (input : TargetAddition) : List String :=
  Collation.ordinal.sortBy (fun dependency => dependency)
    (input.dependsOn.getD []).dedup

def source (input : TargetAddition) : WardenEnrollmentSource :=
  input.enrollmentSource.getD .manual

def row (input : TargetAddition) (maxAttempts : Nat) :
    WardenCampaignTarget where
  id := input.id
  tenantId := input.tenantId
  campaignId := input.campaignId
  repositoryId := input.repositoryId
  snapshotId := input.snapshotId
  packageArtifactId := none
  ownerPrincipalId := input.ownerPrincipalId
  stage := .queued
  dependsOn := input.dependencies
  attemptCount := 0
  maxAttempts := maxAttempts
  exceptionCode := none
  enrollmentSource := input.source
  enrolledInstallationId := input.enrolledInstallationId
  revision := 1
  createdAt := input.createdAt
  updatedAt := input.createdAt

def event (input : TargetAddition) : EventInput :=
  EventDetails.event
    { actorPrincipalId := input.ownerPrincipalId
      eventId := input.eventId
      idempotencyKey := input.idempotencyKey
      correlationId := input.correlationId
      causationId := none
      createdAt := input.createdAt }
    input.tenantId input.campaignId "warden.target.added"
    (.obj [("targetId", .str input.id),
      ("dependencies", .arr (input.dependencies.map .str)),
      ("revision", .int 1),
      ("enrollmentSource", .str (match input.source with
        | .manual => "manual"
        | .auto => "auto")),
      ("enrolledInstallationId", writtenText input.enrolledInstallationId)])

end TargetAddition

/-- The table with one more row, where its key is new. -/
def CampaignDb.insertTarget (db : CampaignDb) (row : WardenCampaignTarget) :
    Except String CampaignDb :=
  if fresh : row.id ∉ db.targets.map WardenCampaignTarget.id then
    if ∃ other ∈ db.targets, other.tenantId = row.tenantId ∧
        other.campaignId = row.campaignId ∧
        other.repositoryId = row.repositoryId then
      .error "UNIQUE constraint failed"
    else
      .ok { db with
        targets := db.targets ++ [row]
        targetKeys := by
          rw [List.map_append, List.map_singleton, ← List.concat_eq_append,
            List.nodup_concat]
          exact ⟨fresh, db.targetKeys⟩ }
  else .error "UNIQUE constraint failed"

def addWardenCampaignTarget (sha256 : String → String)
    (repositories : Repositories) (input : TargetAddition) :
    CampaignM WardenCampaignTarget := do
  let db ← get
  assertPrincipal db input.tenantId input.ownerPrincipalId
  let parent ← demand (db.campaign? input.tenantId input.campaignId)
    "warden_campaign_not_draft"
  throwIf (parent.status ≠ .draft) "warden_campaign_not_draft"
  throwIf
    (¬ ∃ repository ∈ repositories.connectedRepositories,
      ∃ snapshot ∈ repositories.repositorySnapshots,
        snapshot.repositoryId = repository.id ∧
        snapshot.tenantId = repository.tenantId ∧
        repository.id = input.repositoryId ∧
        repository.tenantId = input.tenantId ∧
        snapshot.id = input.snapshotId)
    "warden_snapshot_tenant_mismatch"
  throwIf (input.id ∈ input.dependencies) "warden_dependency_cycle"
  throwIf
    (∃ dependency ∈ input.dependencies,
      db.target? input.tenantId input.campaignId dependency = none)
    "warden_dependency_missing"
  let maxAttempts := input.maxAttempts.getD 3
  throwIf (¬ (SafeInteger.Safe maxAttempts ∧ 1 ≤ maxAttempts ∧
      maxAttempts ≤ 20))
    "warden_max_attempts_invalid"
  transaction do
    let inserted ← db.insertTarget (input.row maxAttempts.toNat)
    let changed ← record sha256 inserted input.event
    set changed
    demand (changed.targets.find? fun row => decide (row.id = input.id))
      "TypeError"

variable {sha256 : String → String} {repositories : Repositories}
  {db after : CampaignDb} {value : WardenCampaignTarget}
  {tenantId campaignId : String}

theorem insertTarget_eq_ok {row : WardenCampaignTarget}
    (inserted : db.insertTarget row = .ok after) :
    after.targets = db.targets ++ [row] := by
  rw [CampaignDb.insertTarget] at inserted
  split at inserted
  · split at inserted
    · cases inserted
    · cases inserted
      rfl
  · cases inserted

theorem addWardenCampaignTarget_spec {input : TargetAddition}
    (yields : Yields (addWardenCampaignTarget sha256 repositories input) db
      value after) :
    ∃ row, after.targets = db.targets ++ [row] ∧
      ∀ dependency ∈ row.dependsOn,
        ∃ other, db.target? row.tenantId row.campaignId dependency =
          some other := by
  rw [addWardenCampaignTarget, yields_get_bind, yields_lift_bind] at yields
  rcases yields with ⟨_, _, rest⟩
  rw [yields_lift_bind] at rest
  rcases rest with ⟨_, _, rest⟩
  rw [yields_lift_bind] at rest
  rcases rest with ⟨_, _, rest⟩
  rw [yields_lift_bind] at rest
  rcases rest with ⟨_, _, rest⟩
  rw [yields_lift_bind] at rest
  rcases rest with ⟨_, _, rest⟩
  rw [yields_lift_bind] at rest
  rcases rest with ⟨_, known, rest⟩
  rw [throwIf_eq_ok] at known
  rw [yields_lift_bind] at rest
  rcases rest with ⟨_, _, rest⟩
  rw [yields_transaction, yields_lift_bind] at rest
  rcases rest with ⟨inserted, added, rest⟩
  rw [yields_lift_bind] at rest
  rcases rest with ⟨changed, recorded, rest⟩
  rcases record_eq_ok recorded with ⟨log, rfl⟩
  rw [yields_bind] at rest
  rcases rest with ⟨_, middle, wrote, rest⟩
  cases wrote
  rw [yields_lift] at rest
  rcases rest with ⟨_, rfl⟩
  have appended := insertTarget_eq_ok added
  refine ⟨input.row (input.maxAttempts.getD 3).toNat, appended,
    fun dependency member => ?_⟩
  exact Option.ne_none_iff_exists'.mp fun missing =>
    known ⟨dependency, member, missing⟩

theorem undoes_addWardenCampaignTarget (sha256 : String → String)
    (repositories : Repositories) (input : TargetAddition) :
    Undoes (addWardenCampaignTarget sha256 repositories input) :=
  undoes_get_bind fun _ => undoes_lift_bind fun _ _ =>
    undoes_lift_bind fun _ _ => undoes_lift_bind fun _ _ =>
      undoes_lift_bind fun _ _ => undoes_lift_bind fun _ _ =>
        undoes_lift_bind fun _ _ => undoes_lift_bind fun _ _ =>
          undoes_transaction _

/-! ## Reachable campaigns -/

/-- The targets of a campaign, in the order in which they were added. -/
def CampaignDb.targetsOf (db : CampaignDb) (tenantId campaignId : String) :
    List WardenCampaignTarget :=
  db.targets.filter fun row =>
    decide (row.tenantId = tenantId ∧ row.campaignId = campaignId)

/-- The databases to which a campaign without targets is led. -/
inductive Enrolled (sha256 : String → String)
    (tenantId campaignId : String) : CampaignDb → Prop where
  | start {db : CampaignDb} (empty : db.targetsOf tenantId campaignId = []) :
      Enrolled sha256 tenantId campaignId db
  | added {db after : CampaignDb} {repositories : Repositories}
      {input : TargetAddition} {value : WardenCampaignTarget}
      (before : Enrolled sha256 tenantId campaignId db)
      (yields : Yields (addWardenCampaignTarget sha256 repositories input) db
        value after) :
      Enrolled sha256 tenantId campaignId after
  | moved {db after : CampaignDb} {input : TargetTransition}
      {value : WardenCampaignTarget}
      (before : Enrolled sha256 tenantId campaignId db)
      (yields : Yields (transitionWardenTarget sha256 input) db value after) :
      Enrolled sha256 tenantId campaignId after
  | other {db after : CampaignDb}
      (before : Enrolled sha256 tenantId campaignId db)
      (kept : after.targets = db.targets) :
      Enrolled sha256 tenantId campaignId after

/-- The targets of the campaign stand after those on which they depend. -/
def CampaignDb.Layered (db : CampaignDb) (tenantId campaignId : String) :
    Prop :=
  DependenciesFirst WardenCampaignTarget.id WardenCampaignTarget.dependsOn
    (db.targetsOf tenantId campaignId)

theorem layered_of_added {row : WardenCampaignTarget}
    (layered : db.Layered tenantId campaignId)
    (appended : after.targets = db.targets ++ [row])
    (known : ∀ dependency ∈ row.dependsOn,
      ∃ other, db.target? row.tenantId row.campaignId dependency =
        some other) : after.Layered tenantId campaignId := by
  rw [CampaignDb.Layered, CampaignDb.targetsOf, appended,
    List.filter_append, List.filter_cons, List.filter_nil]
  split
  · next here =>
      rw [decide_eq_true_eq] at here
      refine layered.concat fun dependency depends => ?_
      rcases known dependency depends with ⟨other, found⟩
      rcases target?_eq_some found with ⟨inside, named, sameTenant, same⟩
      rw [here.1] at sameTenant
      rw [here.2] at same
      exact List.mem_map.mpr ⟨other, List.mem_filter.mpr
        ⟨inside, decide_eq_true ⟨sameTenant, same⟩⟩, named⟩
  · rw [List.append_nil]
    exact layered

theorem Enrolled.layered
    (enrolled : Enrolled sha256 tenantId campaignId db) :
    db.Layered tenantId campaignId := by
  induction enrolled with
  | start empty =>
    rw [CampaignDb.Layered, empty]
    exact dependenciesFirst_nil
  | added before yields inductionHypothesis =>
    rcases addWardenCampaignTarget_spec yields with ⟨row, appended, known⟩
    exact layered_of_added inductionHypothesis appended known
  | @moved db after input value before yields inductionHypothesis =>
    rcases transitionWardenTarget_spec yields with
      ⟨_, current, _, _, _, _, _, updated⟩
    have same : ∀ row, decide ((input.change current row).tenantId =
        tenantId ∧ (input.change current row).campaignId = campaignId) =
          decide (row.tenantId = tenantId ∧ row.campaignId = campaignId) :=
      fun _ => rfl
    rw [CampaignDb.Layered, CampaignDb.targetsOf, updated,
      Table.filter_update same, Table.update]
    refine DependenciesFirst.map ?_ ?_ inductionHypothesis
    · intro row
      split
      · rfl
      · rfl
    · intro row
      split
      · rfl
      · rfl
  | other before kept inductionHypothesis =>
    rw [CampaignDb.Layered, CampaignDb.targetsOf, kept]
    exact inductionHypothesis

/-- A call which adds a target, or moves one. -/
inductive TargetCall where
  | add (repositories : Repositories) (input : TargetAddition)
  | move (input : TargetTransition)

/-- The database after a call; a failing one leaves it as it is. -/
def TargetCall.next (sha256 : String → String) (db : CampaignDb) :
    TargetCall → CampaignDb
  | add repositories input =>
    (outcome (addWardenCampaignTarget sha256 repositories input) db).2
  | move input => (outcome (transitionWardenTarget sha256 input) db).2

theorem Enrolled.calls (enrolled : Enrolled sha256 tenantId campaignId db)
    (calls : List TargetCall) :
    Enrolled sha256 tenantId campaignId
      (calls.foldl (TargetCall.next sha256) db) := by
  induction calls generalizing db with
  | nil => exact enrolled
  | cons call rest inductionHypothesis =>
    refine inductionHypothesis ?_
    cases call with
    | add repositories input =>
      rcases outcome_cases (undoes_addWardenCampaignTarget sha256
        repositories input) db with ⟨value, yields⟩ | same
      · exact .added enrolled yields
      · rw [TargetCall.next, same]
        exact enrolled
    | move input =>
      rcases outcome_cases (undoes_transitionWardenTarget sha256 input) db
        with ⟨value, yields⟩ | same
      · exact .moved enrolled yields
      · rw [TargetCall.next, same]
        exact enrolled

theorem targetsOf_nodup (db : CampaignDb) (tenantId campaignId : String) :
    ((db.targetsOf tenantId campaignId).map
      WardenCampaignTarget.id).Nodup :=
  db.targetKeys.sublist (List.filter_sublist.map _)

theorem list_perm (db : CampaignDb) (tenantId campaignId : String) :
    (listWardenCampaignTargets db tenantId campaignId).Perm
      (db.targetsOf tenantId campaignId) :=
  Collation.ordinal.perm_sortByThen _ _ _

/-! ## A sample campaign -/

/-- The sample campaign without its targets. -/
def sampleDraft : CampaignDb :=
  { sampleSystem.db with
    targets := []
    targetKeys := List.nodup_nil }

def sampleAddition (id : String) (dependsOn : List String) : TargetCall :=
  .add
    { connectedRepositories := [{ id := id, tenantId := "t" }]
      repositorySnapshots :=
        [{ id := id, repositoryId := id, tenantId := "t" }] }
    { id := id
      tenantId := "t"
      campaignId := "c"
      repositoryId := id
      snapshotId := id
      ownerPrincipalId := "p"
      dependsOn := some dependsOn
      maxAttempts := none
      enrollmentSource := none
      enrolledInstallationId := none
      eventId := id
      idempotencyKey := id
      correlationId := "r"
      createdAt := "1" }

theorem sampleDraft_enrolled (calls : List TargetCall) :
    Enrolled id "t" "c" (calls.foldl (TargetCall.next id) sampleDraft) :=
  Enrolled.calls (.start rfl) calls

end Mendpoint.Campaign
