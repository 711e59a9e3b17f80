import Mendpoint.Library.Run
import Mendpoint.StagedPr.Reconcile

/-!
# Delivering a plan

Proposed drafts are opened, reviewed and merged wave by wave.  A plan whose
waves are left when they are merged is delivered to its end exactly when, in
the order of the waves, every unit of a repository starts where the unit before
it has ended.
-/

namespace Mendpoint.StagedPr

open Mendpoint.Library
open Relation

/-! ## The host -/

/-- What the host reports about its repositories and pull requests. -/
structure Host where
  heads : List Head
  pullRequests : List Observation

def Host.snapshot (plan : Plan) (host : Host) : Snapshot where
  planDigest := plan.digest
  campaignRevision := plan.campaign.revision
  repositoryHeads := host.heads
  pullRequests := host.pullRequests

/-- The draft which an action opens. -/
def opened (action : DraftAction) (evidenceRefs : List String) :
    Observation where
  unitId := action.unitId
  provider := action.provider
  repositoryId := action.repositoryId
  state := .draft
  isDraft := action.delivery.draft
  baseRevision := action.expectedBaseRevision
  headRevision := action.expectedHeadRevision
  approvals := []
  checks := []
  unresolvedConversationCount := 0
  evidenceRefs := evidenceRefs

/-- A pull request which has all its checks and enough approvals. -/
def Reviewed (plan : Plan) (pullRequest : PullRequest)
    (observation : Observation) : Prop :=
  PassesGate plan pullRequest { observation with state := .merged }

def withReview (unitId : String) (approvals : List Approval)
    (checks : List Check) (observation : Observation) : Observation :=
  if observation.unitId = unitId then
    { observation with
      approvals := approvals
      checks := checks }
  else observation

def mergeOf (wave : Wave) (observation : Observation) : Observation :=
  if observation.unitId ∈ wave.pullRequests.map PullRequest.unitId then
    { observation with state := .merged }
  else observation

/-- Merging a pull request moves the head of its repository. -/
def moveHead (wave : Wave) (head : Head) : Head :=
  match wave.pullRequests.find? fun pullRequest =>
      decide (pullRequest.repositoryId = head.repositoryId) with
  | some pullRequest =>
    { head with revision := pullRequest.candidateRevision }
  | none => head

section Steps

variable (collation : Collation) (sha256 : String → String) (plan : Plan)

def answer (host : Host) : ResumeDecision :=
  reconcileStagedPullRequestResume collation sha256 plan (host.snapshot plan)

/-- What happens to a plan which is delivered without a failure. -/
inductive Advance : Host → Host → Prop where
  | opens {host : Host} {action : DraftAction} (evidenceRefs : List String)
      (proposed : action ∈ (answer collation sha256 plan host).actions)
      (evidence : evidenceRefs ≠ []) :
      Advance host { host with
        pullRequests :=
          host.pullRequests ++ [opened action evidenceRefs] }
  | reviews {host : Host} {pullRequest : PullRequest}
      {observation : Observation} (approvals : List Approval)
      (checks : List Check)
      (inPlan : pullRequest ∈ plan.waves.flatMap Wave.pullRequests)
      (shown : observation ∈ host.pullRequests)
      (named : observation.unitId = pullRequest.unitId)
      (fresh : observation.state = .draft ∧ observation.approvals = [])
      (reviewed : Reviewed plan pullRequest { observation with
        approvals := approvals
        checks := checks }) :
      Advance host { host with
        pullRequests := host.pullRequests.map
          (withReview pullRequest.unitId approvals checks) }
  | merges {host : Host} {wave : Wave} (inPlan : wave ∈ plan.waves)
      (ready : ∀ pullRequest ∈ wave.pullRequests,
        ∃ observation ∈ host.pullRequests,
          observation.unitId = pullRequest.unitId ∧
          observation.state = .draft ∧
          Reviewed plan pullRequest observation) :
      Advance host {
        heads := host.heads.map (moveHead wave)
        pullRequests := host.pullRequests.map (mergeOf wave) }

end Steps

/-! ## Revisions -/

/-- The pull requests of a repository, wave by wave. -/
def delivered (waves : List Wave) (repositoryId : String) :
    List PullRequest :=
  (waves.flatMap Wave.pullRequests).filter fun pullRequest =>
    decide (pullRequest.repositoryId = repositoryId)

/-- The head of a repository when some waves of a plan are merged. -/
def HeadAt (plan : Plan) (merged : List Wave) (head : Head) : Prop :=
  match (delivered merged head.repositoryId).getLast? with
  | some last => head.revision = last.candidateRevision
  | none => ∀ first ∈ (delivered plan.waves head.repositoryId).head?,
      head.revision = first.sourceRevision

/-- Every repository of the plan has one head, at its first revision. -/
structure Starts (plan : Plan) (host : Host) : Prop where
  unopened : host.pullRequests = []
  once : (host.heads.map Head.repositoryId).Nodup
  evidence : ∀ head ∈ host.heads,
    isRevision head.revision ∧ head.evidenceRefs ≠ []
  first : ∀ head ∈ host.heads, HeadAt plan [] head
  all : ∀ pullRequest ∈ plan.waves.flatMap Wave.pullRequests,
    pullRequest.repositoryId ∈ host.heads.map Head.repositoryId

/-- A pull request starts where the one before it has ended. -/
def ChainedAt (merged : List Wave) (pullRequest : PullRequest) : Prop :=
  ∀ previous ∈ (delivered merged pullRequest.repositoryId).getLast?,
    previous.candidateRevision = pullRequest.sourceRevision

def ChainedWaves (waves : List Wave) : Prop :=
  ∀ merged wave later, waves = merged ++ wave :: later →
    ∀ pullRequest ∈ wave.pullRequests, ChainedAt merged pullRequest

theorem delivered_append (first second : List Wave) (repositoryId : String) :
    delivered (first ++ second) repositoryId =
      delivered first repositoryId ++ delivered second repositoryId := by
  rw [delivered, List.flatMap_append, List.filter_append]
  rfl

variable {pullRequest : PullRequest} {wave : Wave} {plan : Plan}
  {merged : List Wave}

theorem filter_repository {pullRequests : List PullRequest}
    (nodup : (pullRequests.map PullRequest.repositoryId).Nodup)
    (member : pullRequest ∈ pullRequests) :
    (pullRequests.filter fun other =>
      decide (other.repositoryId = pullRequest.repositoryId)) =
      [pullRequest] := by
  induction pullRequests with
  | nil => cases member
  | cons first rest inductionHypothesis =>
    rw [List.map_cons, List.nodup_cons] at nodup
    rcases List.mem_cons.mp member with rfl | later
    · rw [List.filter_cons, if_pos (decide_eq_true rfl)]
      congr 1
      rw [List.filter_eq_nil_iff]
      intro other inside same
      apply nodup.1
      rw [← of_decide_eq_true same]
      exact List.mem_map_of_mem inside
    · have different : ¬ decide
          (first.repositoryId = pullRequest.repositoryId) = true := by
        intro same
        apply nodup.1
        rw [of_decide_eq_true same]
        exact List.mem_map_of_mem later
      rw [List.filter_cons, if_neg different]
      exact inductionHypothesis nodup.2 later

theorem delivered_singleton
    (nodup : (wave.pullRequests.map PullRequest.repositoryId).Nodup)
    (member : pullRequest ∈ wave.pullRequests) :
    delivered [wave] pullRequest.repositoryId = [pullRequest] := by
  rw [delivered, List.flatMap_cons, List.flatMap_nil, List.append_nil]
  exact filter_repository nodup member

theorem headAt_iff {later : List Wave}
    (split : plan.waves = merged ++ wave :: later)
    (nodup : (wave.pullRequests.map PullRequest.repositoryId).Nodup)
    (member : pullRequest ∈ wave.pullRequests) {head : Head}
    (there : head.repositoryId = pullRequest.repositoryId)
    (headAt : HeadAt plan merged head) :
    head.revision = pullRequest.sourceRevision ↔
      ChainedAt merged pullRequest := by
  rw [HeadAt, there] at headAt
  rw [ChainedAt]
  cases last : (delivered merged pullRequest.repositoryId).getLast? with
  | some previous =>
    rw [last] at headAt
    rw [headAt]
    constructor
    · rintro same _ found
      cases found
      exact same
    · exact fun chained => chained previous rfl
  | none =>
    rw [last] at headAt
    constructor
    · exact fun _ _ found => nomatch found
    · intro _
      apply headAt
      rw [split, delivered_append, List.getLast?_eq_none_iff.mp last,
        List.nil_append, ← List.singleton_append, delivered_append,
        delivered_singleton nodup member]
      rfl

theorem chainedWaves_concat (chained : ChainedWaves merged)
    (last : ∀ pullRequest ∈ wave.pullRequests, ChainedAt merged pullRequest) :
    ChainedWaves (merged ++ [wave]) := by
  intro before next later split
  rcases List.eq_nil_or_concat later with rfl | ⟨front, final, rfl⟩
  · rcases List.append_inj' split rfl with ⟨rfl, same⟩
    rw [← List.head_eq_of_cons_eq same]
    exact last
  · rw [List.concat_eq_append, ← List.cons_append, ← List.append_assoc]
      at split
    rcases List.append_inj' split rfl with ⟨rfl, _⟩
    exact chained before next front rfl

theorem headAt_moveHead
    (nodup : (wave.pullRequests.map PullRequest.repositoryId).Nodup)
    {head : Head} (headAt : HeadAt plan merged head) :
    HeadAt plan (merged ++ [wave]) (moveHead wave head) := by
  rw [HeadAt, moveHead]
  cases found : wave.pullRequests.find? fun pullRequest =>
      decide (pullRequest.repositoryId = head.repositoryId) with
  | some pullRequest =>
    have kept := List.find?_some found
    have same := of_decide_eq_true kept
    have last : delivered [wave] head.repositoryId = [pullRequest] := by
      rw [← same]
      exact delivered_singleton nodup (List.mem_of_find?_eq_some found)
    simp only [delivered_append, last, List.getLast?_concat]
  | none =>
    have nothing : delivered [wave] head.repositoryId = [] := by
      rw [delivered, List.flatMap_cons, List.flatMap_nil, List.append_nil,
        List.filter_eq_nil_iff]
      exact List.find?_eq_none.mp found
    simp only [delivered_append, nothing, List.append_nil]
    exact headAt

/-! ## Progress -/

/-- What the planner promises about delivering a plan. -/
structure Deliverable (collation : Collation) (sha256 : String → String)
    (plan : Plan) : Prop where
  sound : plan.Sound collation sha256
  merged : plan.policy.advanceOn = .merged
  nonempty : ∀ wave ∈ plan.waves, wave.pullRequests ≠ []
  repositories : ∀ wave ∈ plan.waves,
    (wave.pullRequests.map PullRequest.repositoryId).Nodup
  candidates : ∀ pullRequest ∈ plan.waves.flatMap Wave.pullRequests,
    isRevision pullRequest.candidateRevision
  minimum : ∀ pullRequest ∈ plan.waves.flatMap Wave.pullRequests,
    1 ≤ pullRequest.minimumApprovals
  reviewers : ∀ pullRequest ∈ plan.waves.flatMap Wave.pullRequests,
    ∃ reviewers : Finset String,
      pullRequest.minimumApprovals ≤ reviewers.card ∧
      ∀ reviewerId ∈ reviewers, reviewerId ∈ pullRequest.reviewerIds ∧
        reviewerId ≠ pullRequest.authorId

/-- A draft as it was opened, or with its review. -/
structure InReview (plan : Plan) (pullRequest : PullRequest)
    (observation : Observation) : Prop where
  draft : observation.state = .draft
  review : observation.approvals = [] ∧ observation.checks = [] ∧
      observation.unresolvedConversationCount = 0 ∨
    Reviewed plan pullRequest observation

/-- Some waves are merged, and the next one may be partly opened. -/
structure Progress (plan : Plan) (done later : List Wave) (host : Host) :
    Prop where
  split : plan.waves = done ++ later
  once : (host.pullRequests.map Observation.unitId).Nodup
  belong : ∀ item ∈ host.pullRequests,
    ∃ expected ∈ plan.waves.flatMap Wave.pullRequests, Belongs expected item
  merged : ∀ pullRequest ∈ done.flatMap Wave.pullRequests,
    ∃ observation ∈ host.pullRequests,
      observation.unitId = pullRequest.unitId ∧
      observation.state = .merged ∧
      Reviewed plan pullRequest observation
  current : ∀ observation ∈ host.pullRequests,
    (∃ pullRequest ∈ done.flatMap Wave.pullRequests,
      observation.unitId = pullRequest.unitId) ∨
    ∃ wave ∈ later.head?, ∃ pullRequest ∈ wave.pullRequests,
      observation.unitId = pullRequest.unitId ∧
      InReview plan pullRequest observation ∧
      ChainedAt done pullRequest
  chained : ChainedWaves done
  heads : (host.heads.map Head.repositoryId).Nodup
  evidence : ∀ head ∈ host.heads,
    isRevision head.revision ∧ head.evidenceRefs ≠ []
  headAt : ∀ head ∈ host.heads, HeadAt plan done head
  all : ∀ pullRequest ∈ plan.waves.flatMap Wave.pullRequests,
    pullRequest.repositoryId ∈ host.heads.map Head.repositoryId

theorem Reviewed.passes {observation : Observation}
    (reviewed : Reviewed plan pullRequest observation)
    (merged : observation.state = .merged) :
    PassesGate plan pullRequest observation where
  head := reviewed.head
  checks := reviewed.checks
  reviewers := reviewed.reviewers
  noChangesRequested := reviewed.noChangesRequested
  conversations := reviewed.conversations
  noFailure := reviewed.noFailure
  state := by
    rw [merged]
    exact reviewed.state

theorem Reviewed.approved {plan : Plan} {pullRequest : PullRequest}
    {observation : Observation}
    (reviewed : Reviewed plan pullRequest observation)
    (minimum : 1 ≤ pullRequest.minimumApprovals) :
    observation.approvals ≠ [] := by
  intro none'
  rcases reviewed.reviewers with ⟨reviewers, enough, approved⟩
  have some' : 0 < reviewers.card := by omega
  rcases Finset.card_pos.mp some' with ⟨reviewerId, member⟩
  rcases (approved reviewerId member).2.2 with ⟨approval, inside, _⟩
  rw [show _ = [] from none'] at inside
  cases inside

theorem progress_start {start : Host} (starts : Starts plan start) :
    Progress plan [] plan.waves start where
  split := rfl
  once := by
    rw [starts.unopened]
    exact List.nodup_nil
  belong := by
    rw [starts.unopened]
    exact List.forall_mem_nil _
  merged := fun _ member => nomatch member
  current := by
    rw [starts.unopened]
    exact List.forall_mem_nil _
  chained := by
    intro before wave later split
    exact absurd split.symm (List.append_ne_nil_of_right_ne_nil _
      (List.cons_ne_nil _ _))
  heads := starts.once
  evidence := starts.evidence
  headAt := starts.first
  all := starts.all

namespace Progress

variable {collation : Collation} {sha256 : String → String} {plan : Plan}
  {done later : List Wave} {wave : Wave} {host : Host}

theorem consistent (progress : Progress plan done later host) :
    Consistent plan (host.snapshot plan) where
  digest := rfl
  revision := rfl
  once := progress.once
  belong := progress.belong
  heads := progress.heads
  headEvidence := progress.evidence

theorem apart (progress : Progress plan done later host)
    (deliverable : Deliverable collation sha256 plan)
    {first second : PullRequest}
    (inDone : first ∈ done.flatMap Wave.pullRequests)
    (inLater : second ∈ later.flatMap Wave.pullRequests) :
    first.unitId ≠ second.unitId := by
  have nodup := deliverable.sound.unitIds
  rw [progress.split, List.flatMap_append, List.map_append,
    List.nodup_append] at nodup
  exact nodup.2.2 _ (List.mem_map_of_mem inDone) _
    (List.mem_map_of_mem inLater)

theorem inPlan_later (progress : Progress plan done later host)
    (member : pullRequest ∈ later.flatMap Wave.pullRequests) :
    pullRequest ∈ plan.waves.flatMap Wave.pullRequests := by
  rw [progress.split, List.flatMap_append]
  exact List.mem_append_right _ member

theorem mem_cons (member : pullRequest ∈ wave.pullRequests) :
    pullRequest ∈ (wave :: later).flatMap Wave.pullRequests :=
  List.mem_flatMap.mpr ⟨wave, List.mem_cons_self, member⟩

theorem inReview (progress : Progress plan done (wave :: later) host)
    (deliverable : Deliverable collation sha256 plan)
    (member : pullRequest ∈ wave.pullRequests) {observation : Observation}
    (shown : observation ∈ host.pullRequests)
    (named : observation.unitId = pullRequest.unitId) :
    InReview plan pullRequest observation ∧ ChainedAt done pullRequest := by
  rcases progress.current observation shown with
    ⟨other, inDone, same⟩ |
      ⟨current, isCurrent, other, inWave, same, review, chained⟩
  · exact absurd (same.symm.trans named)
      (progress.apart deliverable inDone (mem_cons member))
  · cases isCurrent
    have equal : other = pullRequest :=
      List.inj_on_of_nodup_map deliverable.sound.unitIds
        (progress.inPlan_later (mem_cons inWave))
        (progress.inPlan_later (mem_cons member)) (same.symm.trans named)
    rw [← equal]
    exact ⟨review, chained⟩

theorem through (progress : Progress plan done later host)
    (deliverable : Deliverable collation sha256 plan) {before : Wave}
    (member : before ∈ done) :
    Through plan (observed plan (host.snapshot plan)).found before := by
  have inPlan : before ∈ plan.waves := by
    rw [progress.split]
    exact List.mem_append_left _ member
  rw [progress.consistent.through_iff deliverable.sound inPlan]
  have inDone : ∀ pullRequest ∈ before.pullRequests,
      pullRequest ∈ done.flatMap Wave.pullRequests :=
    fun pullRequest inWave => List.mem_flatMap.mpr ⟨before, member, inWave⟩
  constructor
  · intro pullRequest inWave
    rcases progress.merged pullRequest (inDone pullRequest inWave) with
      ⟨observation, shown, named, merged, reviewed⟩
    exact ⟨observation, shown, named, reviewed.passes merged⟩
  · rintro ⟨_, pullRequest, inWave, unmerged⟩
    rcases progress.merged pullRequest (inDone pullRequest inWave) with
      ⟨observation, shown, named, merged, _⟩
    exact unmerged observation shown named merged

theorem resumeWaves_append {found : OrderedMap String Observation}
    {headsFound : OrderedMap String Head}
    (through : ∀ before ∈ done, Through plan found before) :
    resumeWaves plan found headsFound (done ++ later) =
      resumeWaves plan found headsFound later := by
  induction done with
  | nil => rfl
  | cons before rest inductionHypothesis =>
    rw [List.forall_mem_cons] at through
    rcases @resumeWaves_cons plan found headsFound before
        (rest ++ later) with ⟨_, same⟩ | ⟨notThrough, _⟩
    · rw [List.cons_append, same]
      exact inductionHypothesis through.2
    · exact absurd through.1 notThrough

theorem answer_eq (progress : Progress plan done later host)
    (deliverable : Deliverable collation sha256 plan) :
    answer collation sha256 plan host =
      resumeWaves plan (observed plan (host.snapshot plan)).found
        (StagedPr.heads (host.snapshot plan)).found later := by
  have none' := (integrityReasons_eq_nil deliverable.sound).mpr
    progress.consistent
  rw [answer, reconcileStagedPullRequestResume,
    if_neg (not_not.mpr none'), progress.split]
  exact resumeWaves_append fun before member =>
    progress.through deliverable member

theorem finds (progress : Progress plan done later host)
    (deliverable : Deliverable collation sha256 plan) :
    FindsBy Observation.unitId (observed plan (host.snapshot plan)).found
      host.pullRequests :=
  progress.consistent.finds deliverable.sound

theorem mergedCount_eq_zero
    (progress : Progress plan done (wave :: later) host)
    (deliverable : Deliverable collation sha256 plan) :
    mergedCount (observed plan (host.snapshot plan)).found wave = 0 := by
  rw [mergedCount, List.countP_eq_zero]
  intro observation inWave
  rcases List.mem_filterMap.mp inWave with ⟨pullRequest, member, there⟩
  rcases (progress.finds deliverable _ _).mp there with ⟨shown, named⟩
  have review := (progress.inReview deliverable member shown named).1
  rw [review.draft]
  exact Bool.false_ne_true

theorem explicitFailures_eq_nil
    (progress : Progress plan done (wave :: later) host)
    (deliverable : Deliverable collation sha256 plan)
    (member : pullRequest ∈ wave.pullRequests) :
    explicitFailures (observed plan (host.snapshot plan)).found
      pullRequest = [] := by
  rw [explicitFailures]
  cases there : (observed plan (host.snapshot plan)).found.get?
      pullRequest.unitId with
  | none => rfl
  | some observation =>
    rcases (progress.finds deliverable _ _).mp there with ⟨shown, named⟩
    have review := (progress.inReview deliverable member shown named).1
    simp only [List.append_eq_nil_iff, requires_eq_nil]
    rcases review.review with ⟨unapproved, unchecked, _⟩ | reviewed
    · rw [unapproved, unchecked]
      exact ⟨List.forall_mem_nil _, List.forall_mem_nil _⟩
    · exact ⟨reviewed.noFailure, reviewed.noChangesRequested⟩

theorem gateReasons_ne_nil
    (progress : Progress plan done (wave :: later) host)
    (deliverable : Deliverable collation sha256 plan)
    (member : pullRequest ∈ wave.pullRequests) :
    gateReasons plan (observed plan (host.snapshot plan)).found
      pullRequest ≠ [] := by
  rw [gateReasons]
  cases there : (observed plan (host.snapshot plan)).found.get?
      pullRequest.unitId with
  | none => exact List.cons_ne_nil _ _
  | some observation =>
    rcases (progress.finds deliverable _ _).mp there with ⟨shown, named⟩
    have review := (progress.inReview deliverable member shown named).1
    intro none'
    simp only [List.append_eq_nil_iff, requires_eq_nil] at none'
    have state := none'.2
    rw [deliverable.merged, review.draft] at state
    cases state

theorem outOfSequence_eq_nil
    (progress : Progress plan done (wave :: later) host)
    (deliverable : Deliverable collation sha256 plan) :
    outOfSequence (observed plan (host.snapshot plan)).found later = [] := by
  have unseen : (observed plan (host.snapshot plan)).found.keys.filter
      (fun unitId => decide (unitId ∈
        (later.flatMap Wave.pullRequests).map PullRequest.unitId)) = [] := by
    rw [List.filter_eq_nil_iff]
    intro unitId seen inLater
    rcases List.mem_map.mp (of_decide_eq_true inLater) with
      ⟨future, member, rfl⟩
    rcases (OrderedMap.mem_keys_iff _ _).mp seen with ⟨observation, there⟩
    rcases (progress.finds deliverable _ _).mp there with ⟨shown, named⟩
    have nodup := deliverable.sound.unitIds
    rw [progress.split, List.flatMap_append, List.flatMap_cons,
      List.map_append, List.map_append, List.nodup_append,
      List.nodup_append] at nodup
    have inFuture := List.mem_map_of_mem (f := PullRequest.unitId) member
    rcases progress.current observation shown with
      ⟨other, inDone, same⟩ |
        ⟨current, isCurrent, other, inWave, same, _⟩
    · exact nodup.2.2 _ (List.mem_map_of_mem inDone) _
        (List.mem_append_right _ inFuture) (same.symm.trans named)
    · cases isCurrent
      exact nodup.2.1.2.2 _ (List.mem_map_of_mem inWave) _ inFuture
        (same.symm.trans named)
  rw [outOfSequence, unseen]
  rfl

theorem answer_current (progress : Progress plan done (wave :: later) host)
    (deliverable : Deliverable collation sha256 plan) :
    answer collation sha256 plan host =
      resumeWave plan (observed plan (host.snapshot plan)).found
        (StagedPr.heads (host.snapshot plan)).found wave later := by
  have inPlan : wave ∈ plan.waves := by
    rw [progress.split]
    exact List.mem_append_right _ List.mem_cons_self
  rw [progress.answer_eq deliverable, resumeWaves]
  have notClosed : (waveObservations
      (observed plan (host.snapshot plan)).found wave).find?
      (fun observation => decide (observation.state = .closed)) = none := by
    rw [List.find?_eq_none]
    intro observation inWave
    rcases List.mem_filterMap.mp inWave with ⟨pullRequest, member, there⟩
    rcases (progress.finds deliverable _ _).mp there with ⟨shown, named⟩
    have review := (progress.inReview deliverable member shown named).1
    rw [review.draft]
    exact Bool.false_ne_true
  have noFailure : wave.pullRequests.flatMap (explicitFailures
      (observed plan (host.snapshot plan)).found) = [] :=
    List.flatMap_eq_nil_iff.mpr fun _ member =>
      progress.explicitFailures_eq_nil deliverable member
  have notMet : wave.pullRequests.flatMap (gateReasons plan
      (observed plan (host.snapshot plan)).found) ≠ [] := by
    intro none'
    rcases List.exists_mem_of_ne_nil _ (deliverable.nonempty wave inPlan)
      with ⟨pullRequest, member⟩
    exact progress.gateReasons_ne_nil deliverable member
      (List.flatMap_eq_nil_iff.mp none' pullRequest member)
  rw [notClosed, progress.mergedCount_eq_zero deliverable]
  simp only [Nat.lt_irrefl, false_and, if_false, noFailure, ne_eq,
    not_true_eq_false, notMet]

theorem driftReasons_eq_nil
    (progress : Progress plan done (wave :: later) host)
    (deliverable : Deliverable collation sha256 plan)
    (member : pullRequest ∈ wave.pullRequests) :
    driftReasons (StagedPr.heads (host.snapshot plan)).found
      pullRequest = [] ↔ ChainedAt done pullRequest := by
  have inPlan : wave ∈ plan.waves := by
    rw [progress.split]
    exact List.mem_append_right _ List.mem_cons_self
  have findsHeads := progress.consistent.findsHeads deliverable.sound
  rcases List.mem_map.mp (progress.all pullRequest
      (progress.inPlan_later (mem_cons member))) with ⟨head, shown, named⟩
  have there := (findsHeads pullRequest.repositoryId head).mpr
    ⟨shown, named⟩
  rw [driftReasons, there]
  simp only [requires_eq_nil]
  exact headAt_iff progress.split (deliverable.repositories wave inPlan)
    member named (progress.headAt head shown)

theorem complete (progress : Progress plan done [] host)
    (deliverable : Deliverable collation sha256 plan) :
    (answer collation sha256 plan host).decision = .complete := by
  rw [progress.answer_eq deliverable]
  rfl

theorem mem_missing_iff (progress : Progress plan done later host)
    (deliverable : Deliverable collation sha256 plan) {next : Wave} :
    pullRequest ∈ missing (observed plan (host.snapshot plan)).found next ↔
      pullRequest ∈ next.pullRequests ∧
      ∀ observation ∈ host.pullRequests,
        observation.unitId ≠ pullRequest.unitId :=
  mem_missing (progress.consistent.finds deliverable.sound)

theorem answer_chained
    (progress : Progress plan done (wave :: later) host)
    (deliverable : Deliverable collation sha256 plan)
    (chained : ∀ pullRequest ∈ wave.pullRequests,
      ChainedAt done pullRequest) :
    (answer collation sha256 plan host).decision ≠ .halted ∧
      (answer collation sha256 plan host).actions =
        (missing (observed plan (host.snapshot plan)).found wave).map
          (draftAction plan wave) := by
  have noDrift : (missing (observed plan (host.snapshot plan)).found
      wave).flatMap (driftReasons
        (StagedPr.heads (host.snapshot plan)).found) = [] := by
    rw [List.flatMap_eq_nil_iff]
    intro pullRequest isMissing
    have member := ((progress.mem_missing_iff deliverable).mp isMissing).1
    exact (progress.driftReasons_eq_nil deliverable member).mpr
      (chained pullRequest member)
  rw [progress.answer_current deliverable, resumeWave,
    progress.outOfSequence_eq_nil deliverable, noDrift]
  simp only [ne_eq, not_true_eq_false, if_false]
  split
  · refine ⟨?_, rfl⟩
    intro impossible
    cases impossible
  · next none' =>
      rw [not_not.mp none']
      refine ⟨?_, rfl⟩
      intro impossible
      cases impossible

theorem of_proposed (progress : Progress plan done later host)
    (deliverable : Deliverable collation sha256 plan) {action : DraftAction}
    (proposed : action ∈ (answer collation sha256 plan host).actions) :
    ∃ wave rest pullRequest, later = wave :: rest ∧
      pullRequest ∈ wave.pullRequests ∧
      (∀ observation ∈ host.pullRequests,
        observation.unitId ≠ pullRequest.unitId) ∧
      ChainedAt done pullRequest ∧
      action = draftAction plan wave pullRequest := by
  cases later with
  | nil =>
    rw [progress.answer_eq deliverable] at proposed
    cases proposed
  | cons wave rest =>
    rw [progress.answer_current deliverable] at proposed
    have stops := @stops_resumeWave plan
      (observed plan (host.snapshot plan)).found
      (StagedPr.heads (host.snapshot plan)).found wave rest
    generalize resumeWave plan
      (observed plan (host.snapshot plan)).found
      (StagedPr.heads (host.snapshot plan)).found wave rest =
        decision at stops proposed
    cases stops with
    | halted reasons => cases proposed
    | wait reasons none' => cases proposed
    | resume some' noDrift =>
      rcases List.mem_map.mp proposed with
        ⟨pullRequest, isMissing, rfl⟩
      rcases (progress.mem_missing_iff deliverable).mp isMissing with
        ⟨member, unseen⟩
      have none' := List.flatMap_eq_nil_iff.mp noDrift pullRequest
        isMissing
      exact ⟨wave, rest, pullRequest, rfl, member, unseen,
        (progress.driftReasons_eq_nil deliverable member).mp none',
        rfl⟩

end Progress

end Mendpoint.StagedPr
