import Mendpoint.Campaign.Store
import Mendpoint.Library.CanonicalJson
import Mendpoint.Library.IsoTime
import Mendpoint.Library.Numbers

/-!
# Rollout plans

A plan puts the targets of a draft campaign into cohorts: the canary first,
then, round by round, targets whose dependencies are in earlier cohorts.  The
maintenance windows of a cohort's targets are intersected as texts.
-/

namespace Mendpoint.Campaign

open Mendpoint.Library
open Mendpoint.Library.Attempt
open Mendpoint.Library.Fallible
open Mendpoint.Library.IsoTime
open Mendpoint.Trust

/-! ## Profiles and decisions -/

inductive Risk where
  | low
  | medium
  | high
  | critical

inductive Environment where
  | development
  | test
  | staging
  | production

def Risk.order : Risk → Nat
  | .low => 0
  | .medium => 1
  | .high => 2
  | .critical => 3

def Risk.text : Risk → String
  | .low => "low"
  | .medium => "medium"
  | .high => "high"
  | .critical => "critical"

def Environment.order : Environment → Nat
  | .development => 0
  | .test => 1
  | .staging => 2
  | .production => 3

def Environment.text : Environment → String
  | .development => "development"
  | .test => "test"
  | .staging => "staging"
  | .production => "production"

/-- A window from its start on, and before its end. -/
structure MaintenanceWindow where
  start : String
  stop : String

structure WardenRolloutTargetProfile where
  targetId : String
  risk : Risk
  environment : Environment
  verificationConfidence : ℚ
  canaryEligible : Bool
  ownerGroup : String
  ownerMaxParallel : Int
  maintenanceWindow : MaintenanceWindow

structure WardenRolloutStopConditions where
  pauseFailureRate : ℚ
  abortFailureRate : ℚ
  minimumVerificationConfidence : ℚ
  abortOnCriticalFailure : Bool

inductive CohortKind where
  | canary
  | rollout
  deriving DecidableEq

structure Cohort where
  sequence : Nat
  kind : CohortKind
  targetIds : List String
  notBefore : String
  notAfter : String
  deriving DecidableEq

/-- What a plan has been made from, for one target. -/
structure TargetEvidence extends WardenRolloutTargetProfile where
  dependsOn : List String

/-- The part of a decision which its digest is about. -/
structure RolloutPayload where
  campaignId : String
  campaignRevision : Nat
  canaryTargetId : String
  maxCohortSize : Int
  targetEvidence : List TargetEvidence
  cohorts : List Cohort
  stopConditions : WardenRolloutStopConditions

structure WardenRolloutDecision extends RolloutPayload where
  id : String
  tenantId : String
  decisionSha256 : String
  createdByPrincipalId : String
  createdAt : String

/-- A stored decision, with the value whose text the row holds. -/
structure RolloutDecisionRow where
  id : String
  tenantId : String
  campaignId : String
  campaignRevision : Nat
  canaryTargetId : String
  maxCohortSize : Int
  decision : RolloutPayload
  decisionSha256 : String
  createdByPrincipalId : String
  createdAt : String

/-- The database with its decisions. -/
structure RolloutDb extends CampaignDb where
  rolloutDecisions : List RolloutDecisionRow

/-- What the host provides: digests, `localeCompare` and numerals. -/
structure RolloutHost where
  sha256 : String → String
  collation : Collation
  numerals : Numerals

def TargetEvidence.toJson (evidence : TargetEvidence) : Json :=
  .obj [
    ("targetId", .str evidence.targetId),
    ("risk", .str evidence.risk.text),
    ("environment", .str evidence.environment.text),
    ("verificationConfidence", .num evidence.verificationConfidence),
    ("canaryEligible", .bool evidence.canaryEligible),
    ("ownerGroup", .str evidence.ownerGroup),
    ("ownerMaxParallel", .num evidence.ownerMaxParallel),
    ("maintenanceWindow", .obj [
      ("start", .str evidence.maintenanceWindow.start),
      ("end", .str evidence.maintenanceWindow.stop)]),
    ("dependsOn", .arr (evidence.dependsOn.map .str))]

def CohortKind.text : CohortKind → String
  | .canary => "canary"
  | .rollout => "rollout"

def Cohort.toJson (cohort : Cohort) : Json :=
  .obj [
    ("sequence", .num cohort.sequence),
    ("kind", .str cohort.kind.text),
    ("targetIds", .arr (cohort.targetIds.map .str)),
    ("notBefore", .str cohort.notBefore),
    ("notAfter", .str cohort.notAfter)]

def RolloutPayload.toJson (payload : RolloutPayload) : Json :=
  .obj [
    ("campaignId", .str payload.campaignId),
    ("campaignRevision", .num payload.campaignRevision),
    ("canaryTargetId", .str payload.canaryTargetId),
    ("maxCohortSize", .num payload.maxCohortSize),
    ("targetEvidence", .arr (payload.targetEvidence.map
      TargetEvidence.toJson)),
    ("cohorts", .arr (payload.cohorts.map Cohort.toJson)),
    ("stopConditions", .obj [
      ("pauseFailureRate", .num payload.stopConditions.pauseFailureRate),
      ("abortFailureRate", .num payload.stopConditions.abortFailureRate),
      ("minimumVerificationConfidence",
        .num payload.stopConditions.minimumVerificationConfidence),
      ("abortOnCriticalFailure",
        .bool payload.stopConditions.abortOnCriticalFailure)]),
    ("requiresHumanApproval", .bool true)]

def canonicalRolloutPayload (host : RolloutHost) (payload : RolloutPayload) :
    String :=
  String.ofList (Json.chars host.numerals payload.toJson)

def rolloutDecision (host : RolloutHost) (row : RolloutDecisionRow) :
    Except String WardenRolloutDecision := do
  let expected := host.sha256 (canonicalRolloutPayload host row.decision)
  throwIf (expected ≠ row.decisionSha256) "warden_rollout_decision_corrupt"
  return {
    toRolloutPayload := row.decision
    id := row.id
    tenantId := row.tenantId
    decisionSha256 := row.decisionSha256
    createdByPrincipalId := row.createdByPrincipalId
    createdAt := row.createdAt }

/-! ## The checks of the input -/

def required (name value : String) : Except String String :=
  requiredText 256 name value

structure PlanInput extends EventDetails where
  id : String
  tenantId : String
  campaignId : String
  expectedCampaignRevision : Nat
  profiles : List WardenRolloutTargetProfile
  canaryTargetId : String
  maxCohortSize : Int
  stopConditions : WardenRolloutStopConditions

/-- Both bounds are ISO texts of instants, the first before the second. -/
def MaintenanceWindow.Valid (window : MaintenanceWindow) : Prop :=
  ∃ first ∈ Instant.parse? window.start,
    ∃ last ∈ Instant.parse? window.stop, first.ms < last.ms

instance (window : MaintenanceWindow) : Decidable window.Valid :=
  inferInstanceAs (Decidable
    (∃ first ∈ Instant.parse? window.start,
      ∃ last ∈ Instant.parse? window.stop, _ < _))

/-- The profiles by target, and the limits by owner. -/
structure ProfileTables where
  profiles : OrderedMap String WardenRolloutTargetProfile
  ownerLimits : OrderedMap String Int

def rate (value : ℚ) : Prop :=
  0 ≤ value ∧ value ≤ 1

instance (value : ℚ) : Decidable (rate value) :=
  inferInstanceAs (Decidable (_ ∧ _))

/-- A whole number from 1 to 100. -/
def countable (value : Int) : Prop :=
  SafeInteger.Safe value ∧ 1 ≤ value ∧ value ≤ 100

instance (value : Int) : Decidable (countable value) :=
  inferInstanceAs (Decidable (_ ∧ _))

def readProfile (targets : List WardenCampaignTarget)
    (tables : ProfileTables) (profile : WardenRolloutTargetProfile) :
    Except String ProfileTables := do
  throwIf (profile.targetId ∉ targets.map WardenCampaignTarget.id ∨
      tables.profiles.has profile.targetId = true)
    "warden_rollout_profile_invalid"
  throwIf (¬ (rate profile.verificationConfidence ∧
      countable profile.ownerMaxParallel))
    "warden_rollout_profile_invalid"
  let _ ← required "warden_owner_group" profile.ownerGroup
  throwIf (¬ profile.maintenanceWindow.Valid)
    "warden_maintenance_window_invalid"
  throwIf
    (∃ known ∈ tables.ownerLimits.get? profile.ownerGroup,
      known ≠ profile.ownerMaxParallel)
    "warden_owner_constraint_conflict"
  return {
    profiles := tables.profiles.set profile.targetId profile
    ownerLimits :=
      tables.ownerLimits.set profile.ownerGroup profile.ownerMaxParallel }

/-- The loop over the profiles of the input. -/
def readProfiles (targets : List WardenCampaignTarget) :
    ProfileTables → List WardenRolloutTargetProfile →
      Except String ProfileTables
  | tables, [] => .ok tables
  | tables, profile :: rest => do
      let next ← readProfile targets tables profile
      readProfiles targets next rest

/-! ## Cohorts -/

/-- A target of the campaign with its profile. -/
structure PlannedTarget where
  target : WardenCampaignTarget
  profile : WardenRolloutTargetProfile

namespace PlannedTarget

def id (item : PlannedTarget) : String :=
  item.target.id

def window (item : PlannedTarget) : MaintenanceWindow :=
  item.profile.maintenanceWindow

end PlannedTarget

/-- `left.localeCompare(right)`. -/
def localeCompare (collation : Collation) (left right : String) : Ordering :=
  if collation.le left right then
    if collation.le right left then .eq else .lt
  else .gt

def compareTargets (collation : Collation) (left right : PlannedTarget) :
    Ordering :=
  (compare left.profile.risk.order right.profile.risk.order).then <|
    (compare left.profile.environment.order
      right.profile.environment.order).then <|
    (compare right.profile.verificationConfidence
      left.profile.verificationConfidence).then <|
    (localeCompare collation left.window.start right.window.start).then <|
    (localeCompare collation left.window.stop right.window.stop).then <|
    (localeCompare collation left.profile.ownerGroup
      right.profile.ownerGroup).then <|
    localeCompare collation left.id right.id

/-- `.sort(compare)`. -/
def sortTargets (collation : Collation) (items : List PlannedTarget) :
    List PlannedTarget :=
  items.insertionSort fun left right =>
    compareTargets collation left right ≠ .gt

/-- What a round has selected, and the window of all of it. -/
structure Selection where
  selected : List PlannedTarget
  ownerCounts : OrderedMap String Nat
  notBefore : String
  notAfter : String

def Selection.empty : Selection where
  selected := []
  ownerCounts := OrderedMap.empty
  notBefore := ""
  notAfter := ""

/-- `left > right` for texts. -/
def textAfter (left right : String) : Bool :=
  !Text.codeUnitLe left right

def candidateStart (notBefore start : String) : String :=
  if textAfter notBefore start then notBefore else start

def candidateEnd (notAfter stop : String) : String :=
  if notAfter = "" ∨ textAfter notAfter stop = true then stop else notAfter

/-- One round of the loop over the ready targets; a full cohort stays. -/
def consider (maxCohortSize : Int) (selection : Selection)
    (item : PlannedTarget) : Selection :=
  let ownerCount := selection.ownerCounts.getD item.profile.ownerGroup 0
  let first := candidateStart selection.notBefore item.window.start
  let last := candidateEnd selection.notAfter item.window.stop
  if maxCohortSize ≤ selection.selected.length then selection
  else if item.profile.ownerMaxParallel ≤ ownerCount then selection
  else if Text.codeUnitLe last first then selection
  else
    { selected := selection.selected ++ [item]
      ownerCounts :=
        selection.ownerCounts.set item.profile.ownerGroup (ownerCount + 1)
      notBefore := first
      notAfter := last }

/-- The targets of the next cohort: at least the first which is ready. -/
def selectCohort (maxCohortSize : Int) (first : PlannedTarget)
    (ready : List PlannedTarget) : Selection :=
  let selection := ready.foldl (consider maxCohortSize) Selection.empty
  match selection.selected with
  | [] =>
    { selection with
      selected := [first]
      notBefore := first.window.start
      notAfter := first.window.stop }
  | _ :: _ => selection

def Selection.cohort (selection : Selection) (sequence : Nat) : Cohort where
  sequence := sequence
  kind := .rollout
  targetIds := selection.selected.map PlannedTarget.id
  notBefore := selection.notBefore
  notAfter := selection.notAfter

/-- The targets whose dependencies are all scheduled, in order. -/
def readyTargets (collation : Collation) (scheduled : List String)
    (remaining : List PlannedTarget) : List PlannedTarget :=
  sortTargets collation (remaining.filter fun item =>
    item.target.dependsOn.all fun dependency =>
      decide (dependency ∈ scheduled))

/-- The loop over the remaining targets; every round takes one at least. -/
def rolloutCohorts (collation : Collation) (maxCohortSize : Int) :
    Nat → Nat → List String → List PlannedTarget →
      Except String (List Cohort)
  | 0, _, _, _ => .ok []
  | rounds + 1, sequence, scheduled, remaining =>
    if remaining.isEmpty then .ok []
    else
      match readyTargets collation scheduled remaining with
      | [] => .error "warden_dependency_cycle"
      | first :: rest => do
          let selection := selectCohort maxCohortSize first (first :: rest)
          let ids := selection.selected.map PlannedTarget.id
          let others ← rolloutCohorts collation maxCohortSize rounds
            (sequence + 1) (scheduled ++ ids)
            (remaining.filter fun item => decide (item.id ∉ ids))
          return selection.cohort sequence :: others

def canaryCohort (canary : PlannedTarget) : Cohort where
  sequence := 0
  kind := .canary
  targetIds := [canary.id]
  notBefore := canary.window.start
  notAfter := canary.window.stop

/-- The canary and the cohorts of all other targets. -/
def planCohorts (collation : Collation) (maxCohortSize : Int)
    (planned : List PlannedTarget) (canary : PlannedTarget) :
    Except String (List Cohort) := do
  let remaining := planned.filter fun item => decide (item.id ≠ canary.id)
  let cohorts ← rolloutCohorts collation maxCohortSize remaining.length 1
    [canary.id] remaining
  return canaryCohort canary :: cohorts

def PlannedTarget.evidence (collation : Collation) (item : PlannedTarget) :
    TargetEvidence where
  toWardenRolloutTargetProfile := { item.profile with targetId := item.id }
  dependsOn := collation.sortBy (fun dependency => dependency)
    item.target.dependsOn

/-! ## Planning -/

/-- The decision which the checks in front of the transaction lead to. -/
def rolloutPayload (host : RolloutHost) (db : RolloutDb)
    (input : PlanInput) : Except String RolloutPayload := do
  let _ ← required "warden_rollout_decision_id" input.id
  assertPrincipal db.toCampaignDb input.tenantId input.actorPrincipalId
  throwIf
    (∀ principal ∈ db.principals,
      ¬ (principal.id = input.actorPrincipalId ∧
        principal.tenantId = input.tenantId ∧
        principal.revokedAt = none ∧ principal.kind = .human))
    "warden_human_planner_required"
  throwIf (Instant.parse? input.createdAt = none)
    "warden_rollout_created_at_invalid"
  throwIf (¬ countable input.maxCohortSize) "warden_cohort_size_invalid"
  let stop := input.stopConditions
  throwIf
    (¬ (rate stop.pauseFailureRate ∧ rate stop.abortFailureRate ∧
      rate stop.minimumVerificationConfidence) ∨
      stop.abortFailureRate ≤ stop.pauseFailureRate)
    "warden_stop_conditions_invalid"
  let parent ← demand (db.campaign? input.tenantId input.campaignId)
    "warden_campaign_not_found"
  throwIf (parent.status ≠ .draft) "warden_campaign_not_draft"
  throwIf (parent.revision ≠ input.expectedCampaignRevision)
    "warden_revision_conflict"
  let targets := listWardenCampaignTargets db.toCampaignDb input.tenantId
    input.campaignId
  throwIf (targets = []) "warden_rollout_targets_required"
  throwIf (input.profiles.length ≠ targets.length)
    "warden_rollout_profiles_incomplete"
  let tables ← readProfiles targets
    { profiles := OrderedMap.empty, ownerLimits := OrderedMap.empty }
    input.profiles
  let planned ← targets.mapM fun target => do
    let profile ← demand (tables.profiles.get? target.id) "TypeError"
    return { target := target, profile := profile : PlannedTarget }
  let canary ← demand
    (planned.find? fun item => decide (item.id = input.canaryTargetId))
    "warden_canary_ineligible"
  throwIf
    (canary.profile.canaryEligible = false ∨
      canary.profile.verificationConfidence <
        stop.minimumVerificationConfidence)
    "warden_canary_ineligible"
  throwIf (canary.target.dependsOn ≠ []) "warden_canary_has_dependencies"
  throwIf
    (∃ item ∈ planned, item.profile.verificationConfidence <
      stop.minimumVerificationConfidence)
    "warden_verification_confidence_below_threshold"
  let cohorts ← planCohorts host.collation input.maxCohortSize planned canary
  return {
    campaignId := input.campaignId
    campaignRevision := parent.revision
    canaryTargetId := canary.id
    maxCohortSize := input.maxCohortSize
    targetEvidence := (host.collation.sortBy PlannedTarget.id planned).map
      (PlannedTarget.evidence host.collation)
    cohorts := cohorts
    stopConditions := stop }

/-- The row of a new decision. -/
def PlanInput.row (input : PlanInput) (payload : RolloutPayload)
    (decisionSha256 : String) : RolloutDecisionRow where
  id := input.id
  tenantId := input.tenantId
  campaignId := input.campaignId
  campaignRevision := payload.campaignRevision
  canaryTargetId := payload.canaryTargetId
  maxCohortSize := input.maxCohortSize
  decision := payload
  decisionSha256 := decisionSha256
  createdByPrincipalId := input.actorPrincipalId
  createdAt := input.createdAt

def PlanInput.event (input : PlanInput) (payload : RolloutPayload)
    (decisionSha256 : String) : EventInput :=
  input.toEventDetails.event input.tenantId input.campaignId
    "warden.rollout.planned"
    (.obj [
      ("decisionId", .str input.id),
      ("decisionSha256", .str decisionSha256),
      ("campaignRevision", .int payload.campaignRevision),
      ("canaryTargetId", .str payload.canaryTargetId),
      ("cohortCount", .int payload.cohorts.length),
      ("maxCohortSize", .int input.maxCohortSize),
      ("requiresHumanApproval", .bool true)])

def planWardenRollout (host : RolloutHost) (input : PlanInput) :
    Attempt RolloutDb String WardenRolloutDecision := do
  let db ← get
  let payload ← rolloutPayload host db input
  let decisionSha256 := host.sha256 (canonicalRolloutPayload host payload)
  transaction do
    match db.rolloutDecisions.find? fun row => decide (row.id = input.id) with
    | some existing =>
      throwIf (existing.tenantId ≠ input.tenantId ∨
          existing.decisionSha256 ≠ decisionSha256)
        "warden_rollout_decision_id_conflict"
      rolloutDecision host existing
    | none =>
      let recorded ← record host.sha256 db.toCampaignDb
        (input.event payload decisionSha256)
      let row := input.row payload decisionSha256
      set ({ toCampaignDb := recorded
             rolloutDecisions := db.rolloutDecisions ++ [row] : RolloutDb })
      rolloutDecision host row

end Mendpoint.Campaign
