import Mathlib.Data.List.Dedup
import Mendpoint.Library.Collation
import Mendpoint.Library.IsoTime
import Mendpoint.Library.JsonText
import Mendpoint.Library.OrderedMap

/-!
# Staged pull request plans

Verified units are grouped into waves: a unit comes after the units on which it
depends, and a wave holds at most one unit of a repository.  Values which the
types of the source exclude, such as an unknown provider, are not represented.
SHA-256 and the order of `localeCompare` are parameters.
-/

namespace Mendpoint.StagedPr

open Mendpoint.Library
open Mendpoint.Library.IsoTime

/-! ## Input -/

inductive Provider where
  | github
  | gitlab
  | bitbucket
  | azureDevops
  deriving DecidableEq

namespace Provider

def text : Provider → String
  | github => "github"
  | gitlab => "gitlab"
  | bitbucket => "bitbucket"
  | azureDevops => "azure_devops"

end Provider

inductive VerificationStatus where
  | verified
  | failed
  | unknown
  deriving DecidableEq

structure Verification where
  status : VerificationStatus
  artifactDigest : String
  verifiedRevision : String
  evidenceRefs : List String
  deriving DecidableEq

/-- A change of one repository, which one pull request will deliver. -/
structure VerifiedUnit where
  id : String
  title : String
  repositoryId : String
  provider : Provider
  baseBranch : String
  headBranch : String
  sourceRevision : String
  candidateRevision : String
  dependsOn : List String
  authorId : String
  evidenceRefs : List String
  verification : Verification
  deriving DecidableEq

inductive CampaignState where
  | ready
  | draft
  | running
  | paused
  | completed
  deriving DecidableEq

/-- What a plan keeps of its campaign. -/
structure PlannedCampaign where
  id : String
  revision : Int
  blueprintId : String
  blueprintDigest : String
  deriving DecidableEq

structure Campaign extends PlannedCampaign where
  state : CampaignState

inductive AdvanceOn where
  | merged
  | approved
  deriving DecidableEq

namespace AdvanceOn

def text : AdvanceOn → String
  | merged => "merged"
  | approved => "approved"

end AdvanceOn

/-- A closed pull request and a partly merged wave always halt. -/
structure Policy where
  maxDraftPullRequestsPerWave : Int
  advanceOn : AdvanceOn
  requiredCheckNames : List String
  reviewerIds : List String
  minimumApprovals : Int
  prohibitAuthorApproval : Bool
  requireConversationResolution : Bool
  deriving DecidableEq

structure PlanningInput where
  plannedAt : String
  campaign : Campaign
  policy : Policy
  units : List VerifiedUnit

/-! ## Plans -/

/-- What the delivery of a pull request may do on its own. -/
structure Delivery where
  draft : Bool
  autoMerge : Bool
  autoDeploy : Bool
  deriving DecidableEq

structure PullRequest where
  id : String
  unitId : String
  title : String
  repositoryId : String
  provider : Provider
  baseBranch : String
  headBranch : String
  sourceRevision : String
  candidateRevision : String
  dependsOn : List String
  authorId : String
  evidenceRefs : List String
  artifactDigest : String
  requiredCheckNames : List String
  reviewerIds : List String
  minimumApprovals : Int
  delivery : Delivery
  deriving DecidableEq

structure Wave where
  id : String
  ordinal : Nat
  prerequisiteWaveIds : List String
  pullRequests : List PullRequest
  deriving DecidableEq

structure Automation where
  mayCreateDraftAfterReconciliation : Bool
  mayMarkReadyForReview : Bool
  mayApprove : Bool
  mayMerge : Bool
  mayDeploy : Bool
  deriving DecidableEq

/-- What the digest of a plan covers. -/
structure PlanBody where
  schemaVersion : String
  plannedAt : String
  campaign : PlannedCampaign
  policy : Policy
  waves : List Wave
  automation : Automation
  deriving DecidableEq

structure Plan extends PlanBody where
  id : String
  digest : String
  deriving DecidableEq

/-! ## Digests -/

def texts (items : List String) : Written :=
  .arr (items.map .str)

def Delivery.written (delivery : Delivery) : Written :=
  .obj [
    ("draft", .bool delivery.draft),
    ("autoMerge", .bool delivery.autoMerge),
    ("autoDeploy", .bool delivery.autoDeploy)]

def PullRequest.written (pullRequest : PullRequest) : Written :=
  .obj [
    ("id", .str pullRequest.id),
    ("unitId", .str pullRequest.unitId),
    ("title", .str pullRequest.title),
    ("repositoryId", .str pullRequest.repositoryId),
    ("provider", .str pullRequest.provider.text),
    ("baseBranch", .str pullRequest.baseBranch),
    ("headBranch", .str pullRequest.headBranch),
    ("sourceRevision", .str pullRequest.sourceRevision),
    ("candidateRevision", .str pullRequest.candidateRevision),
    ("dependsOn", texts pullRequest.dependsOn),
    ("authorId", .str pullRequest.authorId),
    ("evidenceRefs", texts pullRequest.evidenceRefs),
    ("artifactDigest", .str pullRequest.artifactDigest),
    ("requiredCheckNames", texts pullRequest.requiredCheckNames),
    ("reviewerIds", texts pullRequest.reviewerIds),
    ("minimumApprovals", .int pullRequest.minimumApprovals),
    ("delivery", pullRequest.delivery.written)]

def Wave.written (wave : Wave) : Written :=
  .obj [
    ("id", .str wave.id),
    ("ordinal", .int wave.ordinal),
    ("prerequisiteWaveIds", texts wave.prerequisiteWaveIds),
    ("pullRequests", .arr (wave.pullRequests.map PullRequest.written))]

def PlannedCampaign.written (campaign : PlannedCampaign) : Written :=
  .obj [
    ("id", .str campaign.id),
    ("revision", .int campaign.revision),
    ("blueprintId", .str campaign.blueprintId),
    ("blueprintDigest", .str campaign.blueprintDigest)]

def Policy.written (policy : Policy) : Written :=
  .obj [
    ("maxDraftPullRequestsPerWave", .int policy.maxDraftPullRequestsPerWave),
    ("advanceOn", .str policy.advanceOn.text),
    ("requiredCheckNames", texts policy.requiredCheckNames),
    ("reviewerIds", texts policy.reviewerIds),
    ("minimumApprovals", .int policy.minimumApprovals),
    ("prohibitAuthorApproval", .bool policy.prohibitAuthorApproval),
    ("requireConversationResolution",
      .bool policy.requireConversationResolution),
    ("closedWithoutMerge", .str "halt"),
    ("partialWaveMerge", .str "halt")]

def Automation.written (automation : Automation) : Written :=
  .obj [
    ("mayCreateDraftAfterReconciliation",
      .bool automation.mayCreateDraftAfterReconciliation),
    ("mayMarkReadyForReview", .bool automation.mayMarkReadyForReview),
    ("mayApprove", .bool automation.mayApprove),
    ("mayMerge", .bool automation.mayMerge),
    ("mayDeploy", .bool automation.mayDeploy)]

def PlanBody.written (body : PlanBody) : Written :=
  .obj [
    ("schemaVersion", .str body.schemaVersion),
    ("plannedAt", .str body.plannedAt),
    ("campaign", body.campaign.written),
    ("policy", body.policy.written),
    ("waves", .arr (body.waves.map Wave.written)),
    ("automation", body.automation.written)]

section Planning

variable (collation : Collation) (sha256 : String → String)

mutual

/-- The value with the keys of its objects in the order of a collation. -/
def stableValue : Written → Written
  | .arr items => .arr (stableItems items)
  | .obj fields => .obj (collation.sortBy Prod.fst (stableFields fields))
  | other => other

def stableItems : List Written → List Written
  | [] => []
  | first :: rest => stableValue first :: stableItems rest

def stableFields : List (String × Written) → List (String × Written)
  | [] => []
  | (key, first) :: rest => (key, stableValue first) :: stableFields rest

end

/-- The digest of a plan. -/
def digestOf (body : PlanBody) : String :=
  "sha256:" ++ sha256 (stableValue collation body.written).stringify

/-- `tfpr_` and the first 24 characters behind the name of the hash. -/
def planId (digest : String) : String :=
  "tfpr_" ++ String.ofList ((digest.toList.drop 7).take 24)

/-! ## Checks -/

/-- A reason, where a check fails. -/
def requires (holds : Prop) [Decidable holds] (reason : String) :
    List String :=
  if holds then [] else [reason]

def validText (value : String) : Prop :=
  value ≠ "" ∧ value = Text.trim value ∧
    (Text.codeUnits value).length ≤ 1000

instance (value : String) : Decidable (validText value) :=
  inferInstanceAs (Decidable (_ ∧ _))

def uniqueText (values : List String) : Prop :=
  values ≠ [] ∧ (∀ value ∈ values, validText value) ∧ values.Nodup

instance (values : List String) : Decidable (uniqueText values) :=
  inferInstanceAs (Decidable (_ ∧ _))

/-- Lower-case hexadecimal digits of a given number. -/
def isHex (count : Nat) (chars : List Char) : Prop :=
  chars.length = count ∧
    (chars.all fun char =>
      char.isDigit || ('a' ≤ char && char ≤ 'f')) = true

instance (count : Nat) (chars : List Char) : Decidable (isHex count chars) :=
  inferInstanceAs (Decidable (_ ∧ _))

/-- `REVISION` -/
def isRevision (text : String) : Prop :=
  isHex 40 text.toList

/-- `DIGEST` -/
def isDigest (text : String) : Prop :=
  text.toList.take 7 = "sha256:".toList ∧ isHex 64 (text.toList.drop 7)

instance (text : String) : Decidable (isRevision text) :=
  inferInstanceAs (Decidable (isHex _ _))

instance (text : String) : Decidable (isDigest text) :=
  inferInstanceAs (Decidable (_ ∧ _))

def isSafeInteger (value : Int) : Prop :=
  value.natAbs ≤ 9007199254740991

instance (value : Int) : Decidable (isSafeInteger value) :=
  inferInstanceAs (Decidable (_ ≤ _))

/-- Reviewers who have not written a unit. -/
def independentReviewers (policy : Policy) (authorId : String) :
    List String :=
  policy.reviewerIds.filter fun reviewerId => decide (reviewerId ≠ authorId)

/-- The checks of the campaign and of the policy. -/
def inputReasons (input : PlanningInput) : List String :=
  let policy := input.policy
  requires ((Instant.parse? input.plannedAt).isSome = true)
      "planned_at_invalid" ++
    requires (validText input.campaign.id) "campaign_id_required" ++
    requires (validText input.campaign.blueprintId)
      "blueprint_id_required" ++
    requires (isSafeInteger input.campaign.revision ∧
      1 ≤ input.campaign.revision) "campaign_revision_invalid" ++
    requires (isDigest input.campaign.blueprintDigest)
      "blueprint_digest_invalid" ++
    requires (input.campaign.state = .ready) "campaign_ready_required" ++
    requires (isSafeInteger policy.maxDraftPullRequestsPerWave ∧
      1 ≤ policy.maxDraftPullRequestsPerWave ∧
      policy.maxDraftPullRequestsPerWave ≤ 20)
      "pull_request_wave_limit_invalid" ++
    requires (uniqueText policy.requiredCheckNames)
      "required_checks_invalid" ++
    requires (uniqueText policy.reviewerIds) "reviewers_invalid" ++
    (if isSafeInteger policy.minimumApprovals ∧
        1 ≤ policy.minimumApprovals then
      requires (policy.minimumApprovals ≤
        policy.reviewerIds.dedup.length)
        "review_approval_count_unreachable"
    else ["minimum_approvals_invalid"]) ++
    requires (policy.prohibitAuthorApproval = true)
      "author_approval_prohibition_required" ++
    requires (policy.requireConversationResolution = true)
      "conversation_resolution_required" ++
    requires (input.units ≠ [] ∧ input.units.length ≤ 500)
      "unit_count_invalid"

/-- The checks of a unit which do not look at other units. -/
def unitReasons (policy : Policy) (unit : VerifiedUnit) : List String :=
  requires (validText unit.title) ("unit_title_required:" ++ unit.id) ++
    requires (validText unit.repositoryId)
      ("unit_repository_required:" ++ unit.id) ++
    requires (validText unit.baseBranch)
      ("unit_base_branch_required:" ++ unit.id) ++
    requires (validText unit.headBranch)
      ("unit_head_branch_required:" ++ unit.id) ++
    requires (validText unit.authorId)
      ("unit_author_required:" ++ unit.id) ++
    requires (unit.baseBranch ≠ unit.headBranch)
      ("unit_branch_conflict:" ++ unit.id) ++
    requires (isRevision unit.sourceRevision)
      ("source_revision_invalid:" ++ unit.id) ++
    requires (isRevision unit.candidateRevision)
      ("candidate_revision_invalid:" ++ unit.id) ++
    requires (unit.sourceRevision ≠ unit.candidateRevision)
      ("candidate_revision_unchanged:" ++ unit.id) ++
    requires unit.dependsOn.Nodup
      ("unit_dependencies_conflict:" ++ unit.id) ++
    requires (uniqueText unit.evidenceRefs)
      ("unit_evidence_required:" ++ unit.id) ++
    requires (unit.verification.status = .verified)
      ("unit_not_verified:" ++ unit.id) ++
    requires (isDigest unit.verification.artifactDigest)
      ("unit_artifact_digest_invalid:" ++ unit.id) ++
    requires (unit.verification.verifiedRevision = unit.candidateRevision)
      ("verified_revision_mismatch:" ++ unit.id) ++
    requires (uniqueText unit.verification.evidenceRefs)
      ("unit_verification_evidence_required:" ++ unit.id) ++
    requires (policy.prohibitAuthorApproval = true →
      policy.minimumApprovals ≤
        (independentReviewers policy unit.authorId).length)
      ("unit_review_approval_count_unreachable:" ++ unit.id)

/-- The units which have been read, and what was wrong with them. -/
structure Intake where
  byId : OrderedMap String VerifiedUnit
  branches : List String
  reasons : List String

def Intake.empty : Intake where
  byId := OrderedMap.empty
  branches := []
  reasons := []

def branchKey (unit : VerifiedUnit) : String :=
  unit.provider.text ++ ":" ++ unit.repositoryId ++ ":" ++ unit.headBranch

def Intake.add (policy : Policy) (intake : Intake) (unit : VerifiedUnit) :
    Intake :=
  if validText unit.id then
    { byId :=
        if intake.byId.has unit.id then intake.byId
        else intake.byId.set unit.id unit
      branches := intake.branches ++ [branchKey unit]
      reasons := intake.reasons ++
        requires (intake.byId.has unit.id = false)
          ("unit_id_conflict:" ++ unit.id) ++
        requires (branchKey unit ∉ intake.branches)
          ("unit_head_branch_conflict:" ++ unit.id) ++
        unitReasons policy unit }
  else { intake with reasons := intake.reasons ++ ["unit_id_invalid"] }

def intake (policy : Policy) (units : List VerifiedUnit) : Intake :=
  units.foldl (Intake.add policy) .empty

/-- The checks of a unit against one unit on which it depends. -/
def dependencyReasons (byId : OrderedMap String VerifiedUnit)
    (unit : VerifiedUnit) (dependencyId : String) : List String :=
  let dependency := byId.get? dependencyId
  requires (dependency.isSome = true)
      ("unit_dependency_missing:" ++ unit.id ++ ":" ++ dependencyId) ++
    requires (dependencyId ≠ unit.id)
      ("unit_dependency_self:" ++ unit.id) ++
    requires (∀ other ∈ dependency, other.repositoryId = unit.repositoryId →
      unit.sourceRevision = other.candidateRevision)
      ("same_repository_revision_chain_invalid:" ++ unit.id ++ ":" ++
        dependencyId)

def chainReasons (byId : OrderedMap String VerifiedUnit) : List String :=
  byId.values.flatMap fun unit =>
    unit.dependsOn.flatMap (dependencyReasons byId unit)

/-! ## Waves -/

/-- The first units of new repositories, up to a number of repositories. -/
def takeWave (maximum : Int) : List String → List VerifiedUnit →
    List VerifiedUnit
  | _, [] => []
  | repositories, unit :: rest =>
    if unit.repositoryId ∈ repositories ∨
        maximum ≤ repositories.length then
      takeWave maximum repositories rest
    else unit :: takeWave maximum (unit.repositoryId :: repositories) rest

/-- The units which one round of the loop puts into a wave. -/
def nextWave (maximum : Int) (completed : List String)
    (remaining : List VerifiedUnit) : List VerifiedUnit :=
  takeWave maximum [] (collation.sortBy VerifiedUnit.id
    (remaining.filter fun unit =>
      unit.dependsOn.all fun dependency => decide (dependency ∈ completed)))

/-- The rounds of the loop; there are no more than units which remain. -/
def dependencyWavesFrom (maximum : Int) : Nat → List String →
    List VerifiedUnit → Except String (List (List VerifiedUnit))
  | 0, _, _ => .ok []
  | _ + 1, _, [] => .ok []
  | rounds + 1, completed, first :: rest =>
    let remaining := first :: rest
    let wave := nextWave collation maximum completed remaining
    if wave = [] then
      .error ("unit_dependency_cycle:" ++
        Text.join "," (Text.sortTexts (remaining.map VerifiedUnit.id)))
    else do
      let waves ← dependencyWavesFrom maximum rounds
        (completed ++ wave.map VerifiedUnit.id)
        (remaining.filter fun unit =>
          decide (unit.id ∉ wave.map VerifiedUnit.id))
      return wave :: waves

def dependencyWaves (units : List VerifiedUnit) (maximum : Int) :
    Except String (List (List VerifiedUnit)) :=
  dependencyWavesFrom collation maximum units.length [] units

/-! ## Planning -/

def normalizedPolicy (policy : Policy) : Policy where
  maxDraftPullRequestsPerWave := policy.maxDraftPullRequestsPerWave
  advanceOn := policy.advanceOn
  requiredCheckNames := Text.sortTexts policy.requiredCheckNames
  reviewerIds := Text.sortTexts policy.reviewerIds
  minimumApprovals := policy.minimumApprovals
  prohibitAuthorApproval := true
  requireConversationResolution := true

def pullRequestOf (policy : Policy) (unit : VerifiedUnit) : PullRequest where
  id := "draft-pr-" ++ unit.id
  unitId := unit.id
  title := unit.title
  repositoryId := unit.repositoryId
  provider := unit.provider
  baseBranch := unit.baseBranch
  headBranch := unit.headBranch
  sourceRevision := unit.sourceRevision
  candidateRevision := unit.candidateRevision
  dependsOn := Text.sortTexts unit.dependsOn
  authorId := unit.authorId
  evidenceRefs := Text.sortTexts
    (unit.evidenceRefs ++ unit.verification.evidenceRefs).dedup
  artifactDigest := unit.verification.artifactDigest
  requiredCheckNames := policy.requiredCheckNames
  reviewerIds := policy.reviewerIds
  minimumApprovals := policy.minimumApprovals
  delivery := {
    draft := true
    autoMerge := false
    autoDeploy := false }

def waveId (ordinal : Nat) : String :=
  "wave-" ++ Text.padStart 3 '0' (toString ordinal)

def waveOf (policy : Policy) (wave : List VerifiedUnit) (index : Nat) :
    Wave where
  id := waveId (index + 1)
  ordinal := index + 1
  prerequisiteWaveIds := if index = 0 then [] else [waveId index]
  pullRequests := wave.map (pullRequestOf policy)

def planBody (input : PlanningInput) (waves : List (List VerifiedUnit)) :
    PlanBody :=
  let policy := normalizedPolicy input.policy
  { schemaVersion := "2026-08-02.v1"
    plannedAt := input.plannedAt
    campaign := input.campaign.toPlannedCampaign
    policy := policy
    waves := waves.zipIdx.map fun entry => waveOf policy entry.1 entry.2
    automation := {
      mayCreateDraftAfterReconciliation := true
      mayMarkReadyForReview := false
      mayApprove := false
      mayMerge := false
      mayDeploy := false } }

/-- The reasons of an abstention, each once and in order. -/
def abstain (reasons : List String) : List String :=
  Text.sortTexts reasons.dedup

/-- The plan, or the reasons for which there is none. -/
def planStagedPullRequestBatches (input : PlanningInput) :
    Except (List String) Plan :=
  let taken := intake input.policy input.units
  let reasons :=
    inputReasons input ++ taken.reasons ++ chainReasons taken.byId
  if reasons ≠ [] then .error (abstain reasons)
  else
    match dependencyWaves collation taken.byId.values
        input.policy.maxDraftPullRequestsPerWave with
    | .error reason => .error (abstain [reason])
    | .ok waves =>
      let body := planBody input waves
      let digest := digestOf collation sha256 body
      .ok { toPlanBody := body, id := planId digest, digest := digest }

end Planning

end Mendpoint.StagedPr
