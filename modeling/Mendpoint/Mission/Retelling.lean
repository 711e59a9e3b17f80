import Mendpoint.Mission.Story

/-!
# Runs of the writers of missions

Whatever the order of the calls, and whichever of them fail, the row of every
mission is what its events tell, from the scope which it was created with.
-/

namespace Mendpoint.Missions

open Mendpoint.Library
open Mendpoint.Library.Attempt
open Mendpoint.Library.Run
open Mendpoint.Mission (EventDetails)
open Mendpoint.Trust

/-! ## Calls -/

inductive Call where
  | create (input : CreateMission)
  | transition (input : TransitionMission)
  | bindScope (input : BindScope)
  | bindGraphVersion (input : BindVersion)
  | bindPolicyEnvelopeVersion (input : BindVersion)
  | advancePolicyEnvelopeVersion (input : AdvanceVersion)
  | linkFettlerCampaign (input : LinkCampaign)
  | linkRegaugeCampaign (input : LinkCampaign)

namespace Call

def attempt (sha256 : String → String) :
    Call → Attempt MissionDb String Mission
  | create input => createMission sha256 input
  | transition input => transitionMission sha256 input
  | bindScope input => bindMissionScope sha256 input
  | bindGraphVersion input => bindMissionGraphVersion sha256 input
  | bindPolicyEnvelopeVersion input =>
    bindMissionPolicyEnvelopeVersion sha256 input
  | advancePolicyEnvelopeVersion input =>
    advanceMissionPolicyEnvelopeVersion sha256 input
  | linkFettlerCampaign input => linkFettlerCampaignToMission sha256 input
  | linkRegaugeCampaign input => linkRegaugeCampaignToMission sha256 input

/-- The database after a call, whether it goes through or fails. -/
def next (sha256 : String → String) (db : MissionDb) (call : Call) :
    MissionDb :=
  (outcome (call.attempt sha256) db).2

/-- What a call would do has been done, and is still so. -/
def Current (db : MissionDb) : Call → Prop
  | create input =>
    ∃ row ∈ db.missions, row.id = input.id ∧ row.tenantId = input.tenantId
  | transition _ => False
  | bindScope input =>
    ∃ row ∈ db.mission? input.tenantId input.missionId,
      row.repositoryId = some (Text.trim input.repositoryId) ∧
      row.snapshotId = some (Text.trim input.snapshotId)
  | bindGraphVersion input =>
    ∃ row ∈ db.mission? input.tenantId input.missionId,
      row.graphVersionId = some (Text.trim input.value)
  | bindPolicyEnvelopeVersion input =>
    ∃ row ∈ db.mission? input.tenantId input.missionId,
      row.policyEnvelopeVersion = some (Text.trim input.value)
  | advancePolicyEnvelopeVersion input =>
    ∃ row ∈ db.mission? input.tenantId input.missionId,
      row.policyEnvelopeVersion =
        some (Text.trim input.nextPolicyEnvelopeVersion)
  | linkFettlerCampaign input =>
    ∃ row ∈ db.mission? input.tenantId input.missionId,
      row.fettlerCampaignId = some input.campaignId
  | linkRegaugeCampaign input =>
    ∃ row ∈ db.mission? input.tenantId input.missionId,
      row.regaugeCampaignId = some (Text.trim input.campaignId)

/-! ## What a call does -/

variable {sha256 : String → String} {call : Call} {db : MissionDb}

theorem cases_of_yields {after : MissionDb} {value : Mission}
    (yields : Yields (call.attempt sha256) db value after) :
    after = db ∨
      (∃ input objective, call = .create input ∧
        Created sha256 db after input objective) ∨
      ∃ row told, Wrote sha256 db after row told := by
  cases call with
  | create input =>
    rcases createMission_spec yields with ⟨same, _⟩ | ⟨objective, created⟩
    · exact Or.inl same
    · exact Or.inr (Or.inl ⟨input, objective, rfl, created⟩)
  | transition input =>
    rcases transitionMission_spec yields with ⟨row, _, wrote⟩
    exact Or.inr (Or.inr ⟨row, _, wrote⟩)
  | bindScope input =>
    rcases bindMissionScope_spec yields with same | ⟨row, _, wrote⟩
    · exact Or.inl same
    · exact Or.inr (Or.inr ⟨row, _, wrote⟩)
  | bindGraphVersion input =>
    rcases bindMissionExecutionVersion_spec yields with
      same | ⟨row, _, wrote⟩
    · exact Or.inl same
    · exact Or.inr (Or.inr ⟨row, _, wrote⟩)
  | bindPolicyEnvelopeVersion input =>
    rcases bindMissionExecutionVersion_spec yields with
      same | ⟨row, _, wrote⟩
    · exact Or.inl same
    · exact Or.inr (Or.inr ⟨row, _, wrote⟩)
  | advancePolicyEnvelopeVersion input =>
    rcases advanceMissionPolicyEnvelopeVersion_spec yields with
      same | ⟨row, _, wrote⟩
    · exact Or.inl same
    · exact Or.inr (Or.inr ⟨row, _, wrote⟩)
  | linkFettlerCampaign input =>
    rcases linkFettlerCampaignToMission_spec yields with
      same | ⟨row, _, wrote⟩
    · exact Or.inl same
    · exact Or.inr (Or.inr ⟨row, _, wrote⟩)
  | linkRegaugeCampaign input =>
    rcases linkRegaugeCampaignToMission_spec yields with
      same | ⟨row, _, wrote⟩
    · exact Or.inl same
    · exact Or.inr (Or.inr ⟨row, _, wrote⟩)

theorem undoes (sha256 : String → String) (call : Call) :
    Undoes (call.attempt sha256) := by
  cases call with
  | create input =>
    refine undoes_get_bind fun db => ?_
    refine undoes_lift_bind fun _ _ => undoes_lift_bind fun _ _ => ?_
    refine undoes_lift_bind fun _ _ => undoes_lift_bind fun _ _ => ?_
    refine undoes_lift_bind fun _ _ => undoes_lift_bind fun _ _ => ?_
    exact undoes_transaction _
  | transition input =>
    refine undoes_get_bind fun db => undoes_lift_bind fun _ _ => ?_
    exact undoes_transaction _
  | bindScope input =>
    refine undoes_get_bind fun db => undoes_lift_bind fun _ _ => ?_
    refine undoes_lift_bind fun _ _ => undoes_lift_bind fun _ _ => ?_
    refine undoes_lift_bind fun _ _ => undoes_lift_bind fun _ _ => ?_
    exact undoes_transaction _
  | bindGraphVersion input =>
    refine undoes_get_bind fun db => undoes_lift_bind fun _ _ => ?_
    exact undoes_lift_bind fun _ _ => undoes_transaction _
  | bindPolicyEnvelopeVersion input =>
    refine undoes_get_bind fun db => undoes_lift_bind fun _ _ => ?_
    exact undoes_lift_bind fun _ _ => undoes_transaction _
  | advancePolicyEnvelopeVersion input =>
    refine undoes_get_bind fun db => undoes_lift_bind fun _ _ => ?_
    refine undoes_lift_bind fun _ _ => undoes_lift_bind fun _ _ => ?_
    refine undoes_lift_bind fun _ _ => undoes_lift_bind fun _ _ => ?_
    exact undoes_lift_bind fun _ _ => undoes_transaction _
  | linkFettlerCampaign input =>
    refine undoes_get_bind fun db => undoes_lift_bind fun _ _ => ?_
    exact undoes_transaction _
  | linkRegaugeCampaign input =>
    refine undoes_get_bind fun db => undoes_lift_bind fun _ _ => ?_
    exact undoes_lift_bind fun _ _ => undoes_transaction _

theorem same_of_current {after : MissionDb} {value : Mission}
    (current : call.Current db)
    (yields : Yields (call.attempt sha256) db value after) : after = db := by
  cases call with
  | create input =>
    rcases createMission_spec yields with ⟨same, _⟩ | ⟨_, created⟩
    · exact same
    · rcases current with ⟨row, inside, sameId, _⟩
      exact absurd sameId (created.fresh row inside)
  | transition input => exact current.elim
  | bindScope input =>
    rcases current with ⟨row, found, isRepository, _⟩
    rcases bindMissionScope_spec yields with same | ⟨other, again, wrote⟩
    · exact same
    · cases Option.mem_unique found again
      have unset := wrote.allows.1.1
      rw [isRepository] at unset
      cases unset
  | bindGraphVersion input =>
    rcases current with ⟨row, found, isValue⟩
    rcases bindMissionExecutionVersion_spec yields with
      same | ⟨other, again, wrote⟩
    · exact same
    · cases Option.mem_unique found again
      have unset := wrote.allows.1
      rw [isValue] at unset
      cases unset
  | bindPolicyEnvelopeVersion input =>
    rcases current with ⟨row, found, isValue⟩
    rcases bindMissionExecutionVersion_spec yields with
      same | ⟨other, again, wrote⟩
    · exact same
    · cases Option.mem_unique found again
      have unset := wrote.allows.1
      rw [isValue] at unset
      cases unset
  | advancePolicyEnvelopeVersion input =>
    rcases current with ⟨row, found, isNext⟩
    rcases advanceMissionPolicyEnvelopeVersion_spec yields with
      same | ⟨other, again, wrote⟩
    · exact same
    · cases Option.mem_unique found again
      rcases wrote.allows.1 with ⟨_, isVersion, exceeds⟩
      rw [isNext] at isVersion
      exact absurd (Option.some.inj isVersion).symm exceeds.ne
  | linkFettlerCampaign input =>
    rcases current with ⟨row, found, isLinked⟩
    rcases linkFettlerCampaignToMission_spec yields with
      same | ⟨other, again, wrote⟩
    · exact same
    · cases Option.mem_unique found again
      have unset : row.fettlerCampaignId = none := wrote.allows
      rw [isLinked] at unset
      cases unset
  | linkRegaugeCampaign input =>
    rcases current with ⟨row, found, isLinked⟩
    rcases linkRegaugeCampaignToMission_spec yields with
      same | ⟨other, again, wrote⟩
    · exact same
    · cases Option.mem_unique found again
      have unset : row.regaugeCampaignId = none := wrote.allows
      rw [isLinked] at unset
      cases unset

theorem next_cases (sha256 : String → String) (db : MissionDb)
    (call : Call) :
    (∃ value, Yields (call.attempt sha256) db value
      (call.next sha256 db)) ∨ call.next sha256 db = db := by
  cases answered : outcome (call.attempt sha256) db with
  | mk answer after =>
    cases answer with
    | ok value =>
      refine Or.inl ⟨value, ?_⟩
      rw [next, Yields, answered]
    | error failure =>
      refine Or.inr ?_
      rw [next, answered]
      exact undoes sha256 call db failure after answered

theorem next_of_current (current : call.Current db) :
    call.next sha256 db = db := by
  rcases next_cases sha256 db call with ⟨value, yields⟩ | same
  · exact same_of_current current yields
  · exact same

theorem next_later (sha256 : String → String) (db : MissionDb)
    (call : Call) : MissionsLater db (call.next sha256 db) := by
  rcases next_cases sha256 db call with ⟨value, yields⟩ | same
  · rcases cases_of_yields yields with
      same | ⟨input, objective, _, created⟩ | ⟨row, told, wrote⟩
    · rw [same]
      exact .refl db
    · exact created.later
    · exact wrote.later
  · rw [same]
    exact .refl db

end Call

/-! ## Runs -/

/-- A database without missions, and without events of missions. -/
structure Blank (db : MissionDb) : Prop where
  missions : db.missions = []
  events : ∀ told ∈ db.domainEvents, told.aggregateType ≠ "mission"

/-- A call of a run has created a mission. -/
def CreatedIn (sha256 : String → String) (start : MissionDb)
    (calls : List Call) (input : CreateMission) : Prop :=
  ∃ first rest, calls = first ++ .create input :: rest ∧
    (∀ row ∈ (run (Call.next sha256) start first).missions,
      row.id ≠ input.id) ∧
    ∃ row ∈ (run (Call.next sha256) start
        (first ++ [.create input])).missions,
      row.id = input.id ∧ row.tenantId = input.tenantId

variable {sha256 : String → String}

theorem CreatedIn.append {start : MissionDb} {calls : List Call}
    {input : CreateMission} (created : CreatedIn sha256 start calls input)
    (more : List Call) : CreatedIn sha256 start (calls ++ more) input := by
  rcases created with ⟨first, rest, rfl, before, after⟩
  refine ⟨first, rest ++ more, ?_, before, after⟩
  rw [List.append_assoc, List.cons_append]

theorem Narrated.weaken {creates other : CreateMission → Prop}
    {db : MissionDb} (narrated : Narrated sha256 creates db)
    (weaker : ∀ input, creates input → other input) :
    Narrated sha256 other db where
  stories row inside := by
    rcases narrated.stories row inside with ⟨input, creator, rest⟩
    exact ⟨input, weaker input creator, rest⟩
  known := narrated.known
  digested := narrated.digested
  unshared := narrated.unshared

theorem narrated_run (collisionFree : Function.Injective sha256)
    {start : MissionDb} (blank : Blank start) (calls : List Call) :
    Narrated sha256 (CreatedIn sha256 start calls)
      (run (Call.next sha256) start calls) := by
  induction calls using List.reverseRecOn with
  | nil =>
    refine ⟨fun row inside => ?_, fun told inside mission => ?_,
      fun told inside mission => ?_, fun link left inside => ?_⟩
    · rw [run_nil, blank.missions] at inside
      cases inside
    · exact absurd mission (blank.events told inside)
    · exact absurd mission (blank.events told inside)
    · rw [run_nil, blank.missions] at inside
      cases inside
  | append_singleton calls call inductionHypothesis =>
    have older := inductionHypothesis.weaken fun input created =>
      created.append [call]
    have isNext : run (Call.next sha256) start (calls ++ [call]) =
        call.next sha256 (run (Call.next sha256) start calls) := by
      rw [run_append, run_cons, run_nil]
    rw [isNext]
    rcases Call.next_cases sha256
      (run (Call.next sha256) start calls) call with ⟨value, yields⟩ | same
    · rcases Call.cases_of_yields yields with
        same | ⟨input, objective, rfl, created⟩ | ⟨row, told, wrote⟩
      · rw [same]
        exact older
      · refine (older.created collisionFree created).weaken ?_
        rintro other (before | rfl)
        · exact before
        · refine ⟨calls, [], rfl, created.fresh,
            other.mission objective, ?_, rfl, rfl⟩
          rw [isNext, created.missions]
          exact List.mem_append_right _ (List.mem_singleton_self _)
      · exact older.wrote collisionFree wrote
    · rw [same]
      exact older

theorem later_run (sha256 : String → String) (start : MissionDb)
    (calls : List Call) :
    MissionsLater start (run (Call.next sha256) start calls) := by
  induction calls generalizing start with
  | nil => exact .refl start
  | cons call rest inductionHypothesis =>
    rw [run_cons]
    exact (Call.next_later sha256 start call).trans
      (inductionHypothesis (call.next sha256 start))

/-- What a run does to the missions and to their events. -/
structure Faithful (sha256 : String → String) (start : MissionDb)
    (calls : List Call) : Prop where
  told : ∀ row ∈ (run (Call.next sha256) start calls).missions,
    ∃ input, CreatedIn sha256 start calls input ∧ input.id = row.id ∧
      input.tenantId = row.tenantId ∧ ∃ story,
        Tells (run (Call.next sha256) start calls).domainEvents row
          input.repositoryId input.snapshotId story
  unshared : ∀ (link : CampaignLink),
    ∀ left ∈ (run (Call.next sha256) start calls).missions,
    ∀ right ∈ (run (Call.next sha256) start calls).missions,
      left.tenantId = right.tenantId → ∀ campaignId ∈ link.read left,
        link.read right = some campaignId → left.id = right.id
  later : ∀ first rest, calls = first ++ rest →
    MissionsLater (run (Call.next sha256) start first)
      (run (Call.next sha256) start calls)
  repeated : ∀ first call rest, calls = first ++ call :: rest →
    call.Current (run (Call.next sha256) start first) →
      call.next sha256 (run (Call.next sha256) start first) =
        run (Call.next sha256) start first
  failed : ∀ first call rest failure after, calls = first ++ call :: rest →
    Fails (call.attempt sha256) (run (Call.next sha256) start first) failure
      after → after = run (Call.next sha256) start first

/-! ## A sample -/

def sampleCreate (repositoryId : Option String) : CreateMission where
  id := "m"
  tenantId := "t"
  product := .regauge
  triggerKind := .migrationObjective
  objective := "o"
  ownerPrincipalId := "p"
  repositoryId := repositoryId
  snapshotId := none
  eventId := "e"
  idempotencyKey := "k"
  correlationId := "c"
  createdAt := "2026-01-01T00:00:00.000Z"

/-- A principal, a repository and no mission. -/
def sampleDb : MissionDb where
  principals :=
    [{ id := "p", tenantId := "t", kind := .human, revokedAt := none }]
  connectedRepositories := [{ id := "r", tenantId := "t" }]
  repositorySnapshots := []
  fettlerCampaigns := []
  policyEnvelopes := []
  dispatches := []
  missions := []
  domainEvents := []
  missionKeys := List.nodup_nil

theorem sampleDb_blank : Blank sampleDb where
  missions := rfl
  events told impossible := by cases impossible

/-! ## All runs -/

/--
From a database without missions, every run keeps missions and events in step:
the rows are the folds of their events from the scope of their creation,
revisions are counted, what is set stays set, campaigns are not shared, and
calls which fail or have taken effect change nothing.
-/
theorem missions_faithful (sha256 : String → String)
    (collisionFree : Function.Injective sha256) (start : MissionDb)
    (blank : Blank start) (calls : List Call) :
    Faithful sha256 start calls where
  told := (narrated_run collisionFree blank calls).stories
  unshared := (narrated_run collisionFree blank calls).unshared
  later first rest same := by
    rw [same, run_append]
    exact later_run sha256 _ rest
  repeated first call rest _ current := Call.next_of_current current
  failed first call rest failure after _ failed :=
    Call.undoes sha256 call _ failure after failed

theorem missions_sample :
    Faithful id sampleDb [.create (sampleCreate none)] :=
  missions_faithful id Function.injective_id sampleDb sampleDb_blank _

/-- The scope which a mission is created with is in none of its events. -/
theorem scope_not_told :
    ¬ ∃ scopeOf : List (String × Written) → Option String × Option String,
      ∀ start, Blank start → ∀ calls,
        ∀ row ∈ (run (Call.next id) start calls).missions,
          (row.repositoryId, row.snapshotId) =
            scopeOf (eventsOf (run (Call.next id) start calls).domainEvents
              row.tenantId row.id) := by
  rintro ⟨scopeOf, scoped_⟩
  have without := scoped_ sampleDb sampleDb_blank
    [.create (sampleCreate none)] ((sampleCreate none).mission "o")
    (List.mem_singleton_self _)
  have within := scoped_ sampleDb sampleDb_blank
    [.create (sampleCreate (some "r"))] ((sampleCreate (some "r")).mission "o")
    (List.mem_singleton_self _)
  have same : eventsOf (run (Call.next id) sampleDb
        [.create (sampleCreate none)]).domainEvents "t" "m" =
      eventsOf (run (Call.next id) sampleDb
        [.create (sampleCreate (some "r"))]).domainEvents "t" "m" :=
    rfl
  have scopes := without.trans ((congrArg scopeOf same).trans within.symm)
  cases scopes

end Mendpoint.Missions
