import Mendpoint.StagedPr.Plan

/-!
# Resuming a staged plan

A plan is reconciled with what a host reports about its pull requests and
repositories.  The answer proposes drafts for the first wave which is not yet
through its gate, or waits, halts, or is complete.
-/

namespace Mendpoint.StagedPr

open Mendpoint.Library

/-! ## Observations -/

inductive ApprovalState where
  | approved
  | changesRequested
  | dismissed
  deriving DecidableEq

structure Approval where
  reviewerId : String
  headRevision : String
  state : ApprovalState

inductive CheckStatus where
  | queued
  | running
  | success
  | failure
  | cancelled
  deriving DecidableEq

structure Check where
  name : String
  headRevision : String
  status : CheckStatus

inductive PullRequestState where
  | draft
  | opened
  | merged
  | closed
  deriving DecidableEq

structure Observation where
  unitId : String
  provider : Provider
  repositoryId : String
  state : PullRequestState
  isDraft : Bool
  baseRevision : String
  headRevision : String
  approvals : List Approval
  checks : List Check
  unresolvedConversationCount : Int
  evidenceRefs : List String

structure Head where
  repositoryId : String
  revision : String
  evidenceRefs : List String

structure Snapshot where
  planDigest : String
  campaignRevision : Int
  repositoryHeads : List Head
  pullRequests : List Observation

/-! ## Decisions -/

/-- A draft which may be opened, after its revisions are checked again. -/
structure DraftAction where
  waveId : String
  unitId : String
  provider : Provider
  repositoryId : String
  baseBranch : String
  headBranch : String
  expectedBaseRevision : String
  expectedHeadRevision : String
  planDigest : String
  evidenceRefs : List String
  delivery : Delivery

inductive ResumeAnswer where
  | resume
  | wait
  | halted
  | complete
  deriving DecidableEq

structure ResumeDecision where
  decision : ResumeAnswer
  waveId : Option String
  reasons : List String
  actions : List DraftAction

/-- Reasons of a set, in order. -/
def sortedReasons (reasons : List String) : List String :=
  Text.sortTexts reasons.dedup

def halted (reasons : List String) : ResumeDecision where
  decision := .halted
  waveId := none
  reasons := sortedReasons reasons
  actions := []

/-! ## Integrity -/

def plannedPullRequests (plan : Plan) : OrderedMap String PullRequest :=
  .ofList ((plan.waves.flatMap Wave.pullRequests).map fun pullRequest =>
    (pullRequest.unitId, pullRequest))

/-- The checks of an observation against its planned pull request. -/
def observationReasons (expected : PullRequest) (item : Observation) :
    List String :=
  requires (item.provider = expected.provider ∧
      item.repositoryId = expected.repositoryId)
      ("pr_scope_drift:" ++ item.unitId) ++
    requires (item.baseRevision = expected.sourceRevision)
      ("pr_base_revision_drift:" ++ item.unitId) ++
    requires (item.headRevision = expected.candidateRevision)
      ("pr_head_revision_drift:" ++ item.unitId) ++
    requires (item.evidenceRefs ≠ [])
      ("pr_observation_evidence_required:" ++ item.unitId) ++
    requires (¬ ((item.state = .draft ∨ item.state = .opened) ∧
      (item.isDraft = false ∨ item.state = .opened)))
      ("draft_mode_violated:" ++ item.unitId) ++
    requires (isSafeInteger item.unresolvedConversationCount ∧
      0 ≤ item.unresolvedConversationCount)
      ("conversation_count_invalid:" ++ item.unitId)

/-- What has been read under its keys, and what was wrong with it. -/
structure Reading (α : Type) where
  found : OrderedMap String α
  reasons : List String

def Reading.empty {α : Type} : Reading α where
  found := OrderedMap.empty
  reasons := []

def readObservation (planned : OrderedMap String PullRequest)
    (reading : Reading Observation) (item : Observation) :
    Reading Observation :=
  match planned.get? item.unitId with
  | none => { reading with
      reasons := reading.reasons ++
        ["unplanned_pr_observation:" ++ item.unitId] }
  | some expected => {
      found := reading.found.set item.unitId item
      reasons := reading.reasons ++
        requires (reading.found.has item.unitId = false)
          ("duplicate_pr_observation:" ++ item.unitId) ++
        observationReasons expected item }

def observed (plan : Plan) (snapshot : Snapshot) : Reading Observation :=
  snapshot.pullRequests.foldl (readObservation (plannedPullRequests plan))
    .empty

def readHead (reading : Reading Head) (head : Head) : Reading Head where
  found := reading.found.set head.repositoryId head
  reasons := reading.reasons ++
    requires (reading.found.has head.repositoryId = false)
      ("repository_head_conflict:" ++ head.repositoryId) ++
    requires (isRevision head.revision ∧ head.evidenceRefs ≠ [])
      ("repository_head_evidence_invalid:" ++ head.repositoryId)

def heads (snapshot : Snapshot) : Reading Head :=
  snapshot.repositoryHeads.foldl readHead .empty

/-! ## Gates -/

/-- Names of the checks which have succeeded at the planned revision. -/
def successfulChecks (pullRequest : PullRequest)
    (observation : Observation) : List String :=
  (observation.checks.filter fun check =>
    decide (check.headRevision = pullRequest.candidateRevision ∧
      check.status = .success)).map Check.name

/-- Reviewers who have approved the planned revision, each once. -/
def approvals (plan : Plan) (pullRequest : PullRequest)
    (observation : Observation) : List String :=
  ((observation.approvals.filter fun approval =>
    decide (approval.state = .approved ∧
      approval.headRevision = pullRequest.candidateRevision ∧
      approval.reviewerId ∈ pullRequest.reviewerIds ∧
      (plan.policy.prohibitAuthorApproval = true →
        approval.reviewerId ≠ pullRequest.authorId))).map
    Approval.reviewerId).dedup

def policyReasons (plan : Plan) (pullRequest : PullRequest)
    (observation : Observation) : List String :=
  requires (∀ name ∈ pullRequest.requiredCheckNames,
      name ∈ successfulChecks pullRequest observation)
      ("checks_incomplete:" ++ pullRequest.unitId) ++
    requires (pullRequest.minimumApprovals ≤
      (approvals plan pullRequest observation).length)
      ("reviews_incomplete:" ++ pullRequest.unitId) ++
    requires (plan.policy.requireConversationResolution = true →
      observation.unresolvedConversationCount = 0)
      ("conversations_unresolved:" ++ pullRequest.unitId)

/-- The state with which a wave may be left. -/
def stateSatisfied (advanceOn : AdvanceOn) (state : PullRequestState) :
    Prop :=
  match advanceOn with
  | .merged => state = .merged
  | .approved => state = .merged ∨ state = .draft

instance (advanceOn : AdvanceOn) (state : PullRequestState) :
    Decidable (stateSatisfied advanceOn state) :=
  match advanceOn with
  | .merged => inferInstanceAs (Decidable (_ = _))
  | .approved => inferInstanceAs (Decidable (_ ∨ _))

section Waves

variable (plan : Plan) (found : OrderedMap String Observation)
  (headsFound : OrderedMap String Head)

def explicitFailures (pullRequest : PullRequest) : List String :=
  match found.get? pullRequest.unitId with
  | none => []
  | some observation =>
    requires (∀ check ∈ observation.checks,
      ¬ (check.headRevision = pullRequest.candidateRevision ∧
        check.name ∈ pullRequest.requiredCheckNames ∧
        (check.status = .failure ∨ check.status = .cancelled)))
      ("check_failed:" ++ pullRequest.unitId) ++
    requires (∀ approval ∈ observation.approvals,
      ¬ (approval.headRevision = pullRequest.candidateRevision ∧
        approval.state = .changesRequested))
      ("review_changes_requested:" ++ pullRequest.unitId)

def gateReasons (pullRequest : PullRequest) : List String :=
  match found.get? pullRequest.unitId with
  | none => ["pr_not_opened:" ++ pullRequest.unitId]
  | some observation =>
    policyReasons plan pullRequest observation ++
      requires (stateSatisfied plan.policy.advanceOn observation.state)
        ("advance_state_incomplete:" ++ pullRequest.unitId)

/-- The observations of a wave, in the order of its pull requests. -/
def waveObservations (wave : Wave) : List Observation :=
  wave.pullRequests.filterMap fun pullRequest =>
    found.get? pullRequest.unitId

def mergedCount (wave : Wave) : Nat :=
  (waveObservations found wave).countP fun observation =>
    decide (observation.state = .merged)

/-- Observed units of later waves. -/
def outOfSequence (later : List Wave) : List String :=
  Text.sortTexts (found.keys.filter fun unitId =>
    decide (unitId ∈
      (later.flatMap Wave.pullRequests).map PullRequest.unitId))

def missing (wave : Wave) : List PullRequest :=
  wave.pullRequests.filter fun pullRequest =>
    !found.has pullRequest.unitId

def driftReasons (pullRequest : PullRequest) : List String :=
  match headsFound.get? pullRequest.repositoryId with
  | none => ["repository_head_missing:" ++ pullRequest.repositoryId]
  | some head =>
    requires (head.revision = pullRequest.sourceRevision)
      ("repository_revision_drift:" ++ pullRequest.repositoryId)

def draftAction (wave : Wave) (pullRequest : PullRequest) : DraftAction where
  waveId := wave.id
  unitId := pullRequest.unitId
  provider := pullRequest.provider
  repositoryId := pullRequest.repositoryId
  baseBranch := pullRequest.baseBranch
  headBranch := pullRequest.headBranch
  expectedBaseRevision := pullRequest.sourceRevision
  expectedHeadRevision := pullRequest.candidateRevision
  planDigest := plan.digest
  evidenceRefs := pullRequest.evidenceRefs
  delivery := {
    draft := true
    autoMerge := false
    autoDeploy := false }

/-- A wave which is not through its gate. -/
def resumeWave (wave : Wave) (later : List Wave) : ResumeDecision :=
  if outOfSequence found later ≠ [] then
    halted ((outOfSequence found later).map fun unitId =>
      "future_wave_observation:" ++ unitId)
  else if missing found wave ≠ [] then
    if (missing found wave).flatMap (driftReasons headsFound) ≠ [] then
      halted ((missing found wave).flatMap (driftReasons headsFound))
    else {
      decision := .resume
      waveId := some wave.id
      reasons := []
      actions := (missing found wave).map (draftAction plan wave) }
  else {
    decision := .wait
    waveId := some wave.id
    reasons := sortedReasons
      (wave.pullRequests.flatMap (gateReasons plan found))
    actions := [] }

def resumeWaves : List Wave → ResumeDecision
  | [] => {
      decision := .complete
      waveId := none
      reasons := []
      actions := [] }
  | wave :: later =>
    match (waveObservations found wave).find? fun observation =>
        decide (observation.state = .closed) with
    | some observation =>
      halted ["closed_without_merge:" ++ observation.unitId]
    | none =>
      if 0 < mergedCount found wave ∧
          mergedCount found wave < wave.pullRequests.length then
        halted ["partial_wave_merge:" ++ wave.id]
      else if wave.pullRequests.flatMap (explicitFailures found) ≠ []
      then
        halted (wave.pullRequests.flatMap (explicitFailures found))
      else if wave.pullRequests.flatMap (gateReasons plan found) = []
      then resumeWaves later
      else resumeWave plan found headsFound wave later

end Waves

section Reconciling

variable (collation : Collation) (sha256 : String → String)

def integrityReasons (plan : Plan) (snapshot : Snapshot) : List String :=
  let calculatedDigest := digestOf collation sha256 plan.toPlanBody
  requires (calculatedDigest = plan.digest ∧
      plan.id = planId calculatedDigest) "plan_integrity_invalid" ++
    requires (snapshot.planDigest = plan.digest) "plan_digest_drift" ++
    requires (snapshot.campaignRevision = plan.campaign.revision)
      "campaign_revision_drift" ++
    (observed plan snapshot).reasons ++
    (heads snapshot).reasons

def reconcileStagedPullRequestResume (plan : Plan) (snapshot : Snapshot) :
    ResumeDecision :=
  if integrityReasons collation sha256 plan snapshot ≠ [] then
    halted (integrityReasons collation sha256 plan snapshot)
  else
    resumeWaves plan (observed plan snapshot).found (heads snapshot).found
      plan.waves

end Reconciling

end Mendpoint.StagedPr
