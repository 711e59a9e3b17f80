import Mendpoint.StagedPr.Gates

/-!
# What a decision says

A draft is proposed only for the first wave which is not through its gate, and
a plan is complete exactly when all its gates are met.
-/

namespace Mendpoint.StagedPr

open Mendpoint.Library

/-! ## Checks of the code and of the gate -/

section Checks

variable {plan : Plan} {pullRequest : PullRequest} {observation : Observation}

theorem observationReasons_eq_nil {expected : PullRequest}
    {item : Observation} (named : item.unitId = expected.unitId) :
    observationReasons expected item = [] ↔ Belongs expected item := by
  rw [observationReasons]
  simp only [List.append_eq_nil_iff, requires_eq_nil]
  constructor
  · rintro ⟨⟨⟨⟨⟨scope, base⟩, head⟩, evidence⟩, draft⟩, conversations⟩
    exact ⟨named, scope, base, head, evidence, draft, conversations⟩
  · intro belongs
    exact ⟨⟨⟨⟨⟨belongs.scope, belongs.base⟩, belongs.head⟩,
      belongs.evidence⟩, belongs.draft⟩, belongs.conversations⟩

theorem mem_successfulChecks {name : String} :
    name ∈ successfulChecks pullRequest observation ↔
      ∃ check ∈ observation.checks, check.name = name ∧
        check.headRevision = pullRequest.candidateRevision ∧
        check.status = .success := by
  rw [successfulChecks, List.mem_map]
  constructor
  · rintro ⟨check, kept, named⟩
    rw [List.mem_filter, decide_eq_true_iff] at kept
    exact ⟨check, kept.1, named, kept.2⟩
  · rintro ⟨check, member, named, succeeded⟩
    refine ⟨check, ?_, named⟩
    rw [List.mem_filter, decide_eq_true_iff]
    exact ⟨member, succeeded⟩

theorem mem_approvals (authors : plan.policy.prohibitAuthorApproval = true)
    {reviewerId : String} :
    reviewerId ∈ approvals plan pullRequest observation ↔
      reviewerId ∈ pullRequest.reviewerIds ∧
        reviewerId ≠ pullRequest.authorId ∧
        ∃ approval ∈ observation.approvals,
          approval.reviewerId = reviewerId ∧
          approval.headRevision = pullRequest.candidateRevision ∧
          approval.state = .approved := by
  rw [approvals, List.mem_dedup, List.mem_map]
  constructor
  · rintro ⟨approval, kept, rfl⟩
    rw [List.mem_filter, decide_eq_true_iff] at kept
    rcases kept with ⟨member, state, head, listed, other⟩
    exact ⟨listed, other authors, approval, member, rfl, head, state⟩
  · rintro ⟨listed, other, approval, member, rfl, head, state⟩
    refine ⟨approval, ?_, rfl⟩
    rw [List.mem_filter, decide_eq_true_iff]
    exact ⟨member, state, head, listed, fun _ => other⟩

theorem le_length_approvals
    (authors : plan.policy.prohibitAuthorApproval = true) {minimum : Int} :
    minimum ≤ (approvals plan pullRequest observation).length ↔
      ∃ reviewers : Finset String, minimum ≤ reviewers.card ∧
        ∀ reviewerId ∈ reviewers,
          reviewerId ∈ pullRequest.reviewerIds ∧
          reviewerId ≠ pullRequest.authorId ∧
          ∃ approval ∈ observation.approvals,
            approval.reviewerId = reviewerId ∧
            approval.headRevision = pullRequest.candidateRevision ∧
            approval.state = .approved := by
  constructor
  · intro enough
    refine ⟨(approvals plan pullRequest observation).toFinset, ?_, ?_⟩
    · have nodup : (approvals plan pullRequest observation).Nodup :=
        List.nodup_dedup _
      rw [List.toFinset_card_of_nodup nodup]
      exact enough
    · intro reviewerId member
      exact (mem_approvals authors).mp (List.mem_toFinset.mp member)
  · rintro ⟨reviewers, enough, approved⟩
    have within : reviewers ⊆
        (approvals plan pullRequest observation).toFinset := by
      intro reviewerId member
      rw [List.mem_toFinset]
      exact (mem_approvals authors).mpr (approved reviewerId member)
    have few := Finset.card_le_card within
    have most := List.toFinset_card_le
      (approvals plan pullRequest observation)
    omega

theorem policyReasons_eq_nil
    (resolution : plan.policy.requireConversationResolution = true) :
    policyReasons plan pullRequest observation = [] ↔
      (∀ name ∈ pullRequest.requiredCheckNames,
        name ∈ successfulChecks pullRequest observation) ∧
      pullRequest.minimumApprovals ≤
        (approvals plan pullRequest observation).length ∧
      observation.unresolvedConversationCount = 0 := by
  rw [policyReasons]
  simp only [List.append_eq_nil_iff, requires_eq_nil, resolution,
    forall_const, and_assoc]

theorem passesGate_iff
    (authors : plan.policy.prohibitAuthorApproval = true)
    (resolution : plan.policy.requireConversationResolution = true)
    (head : observation.headRevision = pullRequest.candidateRevision)
    {found : OrderedMap String Observation}
    (there : found.get? pullRequest.unitId = some observation) :
    gateReasons plan found pullRequest = [] ∧
        explicitFailures found pullRequest = [] ↔
      PassesGate plan pullRequest observation := by
  rw [gateReasons, explicitFailures, there]
  simp only [List.append_eq_nil_iff, requires_eq_nil,
    policyReasons_eq_nil resolution, le_length_approvals authors,
    mem_successfulChecks]
  constructor
  · rintro ⟨⟨⟨checks, reviewers, conversations⟩, state⟩, noFailure,
      noChangesRequested⟩
    exact ⟨head, checks, reviewers, noChangesRequested, conversations,
      noFailure, state⟩
  · intro passes
    exact ⟨⟨⟨passes.checks, passes.reviewers, passes.conversations⟩,
      passes.state⟩, passes.noFailure, passes.noChangesRequested⟩

end Checks

/-! ## Snapshots -/

section Snapshots

variable {collation : Collation} {sha256 : String → String} {plan : Plan}
  {snapshot : Snapshot}

theorem Plan.Sound.planned (sound : plan.Sound collation sha256) :
    FindsBy PullRequest.unitId (plannedPullRequests plan)
      (plan.waves.flatMap Wave.pullRequests) :=
  findsBy_ofList sound.unitIds

theorem integrityReasons_eq_nil (sound : plan.Sound collation sha256) :
    integrityReasons collation sha256 plan snapshot = [] ↔
      Consistent plan snapshot := by
  rw [integrityReasons]
  simp only [List.append_eq_nil_iff, requires_eq_nil]
  have observations := (foldl_readObservation (plannedPullRequests plan)
    snapshot.pullRequests).1
  have expected : ∀ item : Observation,
      (∃ expected ∈ (plannedPullRequests plan).get? item.unitId,
        observationReasons expected item = []) ↔
      ∃ expected ∈ plan.waves.flatMap Wave.pullRequests,
        Belongs expected item := by
    intro item
    constructor
    · rintro ⟨expected, found, passed⟩
      rcases (sound.planned _ _).mp found with ⟨member, named⟩
      exact ⟨expected, member,
        (observationReasons_eq_nil named.symm).mp passed⟩
    · rintro ⟨expected, member, belongs⟩
      exact ⟨expected, (sound.planned _ _).mpr ⟨member, belongs.unit.symm⟩,
        (observationReasons_eq_nil belongs.unit).mpr belongs⟩
  simp only [expected] at observations
  rw [observed, heads, observations, (foldl_readHead _).1]
  constructor
  · rintro ⟨⟨⟨⟨_, digest⟩, revision⟩, once, belong⟩, heads, evidence⟩
    exact ⟨digest, revision, once, belong, heads, evidence⟩
  · intro consistent
    exact ⟨⟨⟨⟨sound.integrity, consistent.digest⟩, consistent.revision⟩,
      consistent.once, consistent.belong⟩, consistent.heads,
      consistent.headEvidence⟩

theorem Consistent.finds (sound : plan.Sound collation sha256)
    (consistent : Consistent plan snapshot) :
    FindsBy Observation.unitId (observed plan snapshot).found
      snapshot.pullRequests := by
  apply (foldl_readObservation _ _).2
  have none' := (integrityReasons_eq_nil sound).mpr consistent
  rw [integrityReasons] at none'
  simp only [List.append_eq_nil_iff] at none'
  exact none'.1.2

theorem Consistent.findsHeads (sound : plan.Sound collation sha256)
    (consistent : Consistent plan snapshot) :
    FindsBy Head.repositoryId (StagedPr.heads snapshot).found
      snapshot.repositoryHeads := by
  apply (foldl_readHead _).2
  have none' := (integrityReasons_eq_nil sound).mpr consistent
  rw [integrityReasons] at none'
  simp only [List.append_eq_nil_iff] at none'
  exact none'.2

theorem Consistent.belongs (sound : plan.Sound collation sha256)
    (consistent : Consistent plan snapshot) {pullRequest : PullRequest}
    (member : pullRequest ∈ plan.waves.flatMap Wave.pullRequests)
    {item : Observation} (inside : item ∈ snapshot.pullRequests)
    (named : item.unitId = pullRequest.unitId) : Belongs pullRequest item := by
  rcases consistent.belong item inside with ⟨expected, planned, belongs⟩
  have same : expected = pullRequest :=
    List.inj_on_of_nodup_map sound.unitIds planned member
      (belongs.unit.symm.trans named)
  rw [← same]
  exact belongs

theorem Consistent.gateMet_iff (sound : plan.Sound collation sha256)
    (consistent : Consistent plan snapshot) {pullRequest : PullRequest}
    (member : pullRequest ∈ plan.waves.flatMap Wave.pullRequests) :
    gateReasons plan (observed plan snapshot).found pullRequest = [] ∧
        explicitFailures (observed plan snapshot).found pullRequest = [] ↔
      GateMet plan snapshot pullRequest := by
  have finds := consistent.finds sound
  constructor
  · intro none'
    cases there : (observed plan snapshot).found.get?
        pullRequest.unitId with
    | none =>
      rw [gateReasons, there] at none'
      cases none'.1
    | some observation =>
      rcases (finds _ _).mp there with ⟨inside, named⟩
      have belongs := consistent.belongs sound member inside named
      exact ⟨observation, inside, named,
        (passesGate_iff sound.authors sound.resolution belongs.head
          there).mp none'⟩
  · rintro ⟨observation, inside, named, passes⟩
    have there := (finds _ _).mpr ⟨inside, named⟩
    exact (passesGate_iff sound.authors sound.resolution passes.head
      there).mpr passes

end Snapshots

/-! ## Waves -/

section Waves

variable {plan : Plan} {found : OrderedMap String Observation}
  {headsFound : OrderedMap String Head}

/-- The loop goes on behind a wave. -/
structure Through (plan : Plan) (found : OrderedMap String Observation)
    (wave : Wave) : Prop where
  notClosed : (waveObservations found wave).find? (fun observation =>
    decide (observation.state = .closed)) = none
  whole : ¬ (0 < mergedCount found wave ∧
    mergedCount found wave < wave.pullRequests.length)
  noFailure : wave.pullRequests.flatMap (explicitFailures found) = []
  gate : wave.pullRequests.flatMap (gateReasons plan found) = []

/-- How the loop leaves a wave through which it does not go. -/
inductive Stops (plan : Plan) (found : OrderedMap String Observation)
    (headsFound : OrderedMap String Head) (wave : Wave) (later : List Wave) :
    ResumeDecision → Prop where
  | halted (reasons : List String) :
      Stops plan found headsFound wave later (halted reasons)
  | wait (reasons : List String)
      (none' : missing found wave = []) :
      Stops plan found headsFound wave later {
        decision := .wait
        waveId := some wave.id
        reasons := reasons
        actions := [] }
  | resume (some' : missing found wave ≠ [])
      (noDrift : (missing found wave).flatMap (driftReasons headsFound) = []) :
      Stops plan found headsFound wave later {
        decision := .resume
        waveId := some wave.id
        reasons := []
        actions := (missing found wave).map (draftAction plan wave) }

theorem stops_resumeWave (wave : Wave) (later : List Wave) :
    Stops plan found headsFound wave later
      (resumeWave plan found headsFound wave later) := by
  rw [resumeWave]
  split
  · exact .halted _
  · split
    · next some' =>
        split
        · exact .halted _
        · next noDrift => exact .resume some' (not_not.mp noDrift)
    · next none' => exact .wait _ (not_not.mp none')

theorem resumeWaves_cons (wave : Wave) (later : List Wave) :
    Through plan found wave ∧
        resumeWaves plan found headsFound (wave :: later) =
          resumeWaves plan found headsFound later ∨
      ¬ Through plan found wave ∧
        Stops plan found headsFound wave later
          (resumeWaves plan found headsFound (wave :: later)) := by
  rw [resumeWaves]
  split
  · next closed found' =>
      refine Or.inr ⟨fun through => ?_, .halted _⟩
      rw [through.notClosed] at found'
      cases found'
  · next notClosed =>
      split
      · next partly =>
          exact Or.inr ⟨fun through => through.whole partly, .halted _⟩
      · next whole =>
          split
          · next failures =>
              exact Or.inr ⟨fun through => failures through.noFailure,
                .halted _⟩
          · next noFailure =>
              split
              · next gate =>
                  exact Or.inl ⟨⟨notClosed, whole, not_not.mp noFailure,
                    gate⟩, rfl⟩
              · next notMet =>
                  exact Or.inr ⟨fun through => notMet through.gate,
                    stops_resumeWave wave later⟩

theorem resumeWaves_cases (waves : List Wave) :
    (∀ wave ∈ waves, Through plan found wave) ∧
        resumeWaves plan found headsFound waves =
          resumeWaves plan found headsFound [] ∨
      ∃ earlier wave later, waves = earlier ++ wave :: later ∧
        (∀ before ∈ earlier, Through plan found before) ∧
        ¬ Through plan found wave ∧
        Stops plan found headsFound wave later
          (resumeWaves plan found headsFound waves) := by
  induction waves with
  | nil => exact Or.inl ⟨List.forall_mem_nil _, rfl⟩
  | cons wave later inductionHypothesis =>
    rcases @resumeWaves_cons plan found headsFound wave later with
      ⟨through, same⟩ | ⟨notThrough, stops⟩
    · rw [same]
      rcases inductionHypothesis with ⟨all, complete⟩ |
        ⟨earlier, stop, rest, split, before, notThrough, stops⟩
      · refine Or.inl ⟨?_, complete⟩
        exact List.forall_mem_cons.mpr ⟨through, all⟩
      · refine Or.inr ⟨wave :: earlier, stop, rest, ?_, ?_, notThrough,
          stops⟩
        · rw [split]
          rfl
        · exact List.forall_mem_cons.mpr ⟨through, before⟩
    · exact Or.inr ⟨[], wave, later, rfl, List.forall_mem_nil _,
        notThrough, stops⟩

end Waves

/-! ## Decisions -/

section Decisions

variable {collation : Collation} {sha256 : String → String} {plan : Plan}
  {snapshot : Snapshot}

theorem mergedCount_eq (found : OrderedMap String Observation)
    (wave : Wave) :
    mergedCount found wave = wave.pullRequests.countP fun pullRequest =>
      (found.get? pullRequest.unitId).any fun observation =>
        decide (observation.state = .merged) := by
  rw [mergedCount, waveObservations, List.countP_filterMap]
  congr 1
  funext pullRequest
  cases found.get? pullRequest.unitId with
  | none => rfl
  | some observation => rfl

theorem partlyMerged_iff {found : OrderedMap String Observation}
    (finds : FindsBy Observation.unitId found snapshot.pullRequests)
    (wave : Wave) :
    0 < mergedCount found wave ∧
        mergedCount found wave < wave.pullRequests.length ↔
      PartlyMerged snapshot wave := by
  have merged : ∀ pullRequest : PullRequest,
      (found.get? pullRequest.unitId).any (fun observation =>
        decide (observation.state = .merged)) = true ↔
      ∃ observation ∈ snapshot.pullRequests,
        observation.unitId = pullRequest.unitId ∧
        observation.state = .merged := by
    intro pullRequest
    rw [Option.any_eq_true]
    constructor
    · rintro ⟨observation, there, state⟩
      rcases (finds _ _).mp there with ⟨inside, named⟩
      exact ⟨observation, inside, named, of_decide_eq_true state⟩
    · rintro ⟨observation, inside, named, state⟩
      exact ⟨observation, (finds _ _).mpr ⟨inside, named⟩,
        decide_eq_true state⟩
  rw [mergedCount_eq, List.countP_pos_iff, PartlyMerged]
  rw [Nat.lt_iff_le_and_ne, and_iff_right List.countP_le_length, Ne,
    List.countP_eq_length]
  simp only [merged, not_forall, not_exists, not_and, exists_prop]

theorem Consistent.through_iff (sound : plan.Sound collation sha256)
    (consistent : Consistent plan snapshot) {wave : Wave}
    (member : wave ∈ plan.waves) :
    Through plan (observed plan snapshot).found wave ↔
      (∀ pullRequest ∈ wave.pullRequests,
        GateMet plan snapshot pullRequest) ∧
      ¬ PartlyMerged snapshot wave := by
  have finds := consistent.finds sound
  have inPlan : ∀ pullRequest ∈ wave.pullRequests,
      pullRequest ∈ plan.waves.flatMap Wave.pullRequests :=
    fun pullRequest inside =>
      List.mem_flatMap.mpr ⟨wave, member, inside⟩
  rw [← partlyMerged_iff finds wave]
  constructor
  · intro through
    refine ⟨fun pullRequest inside => ?_, through.whole⟩
    apply (consistent.gateMet_iff sound (inPlan pullRequest inside)).mp
    exact ⟨List.flatMap_eq_nil_iff.mp through.gate pullRequest inside,
      List.flatMap_eq_nil_iff.mp through.noFailure pullRequest inside⟩
  · rintro ⟨met, whole⟩
    have passed := fun pullRequest inside =>
      (consistent.gateMet_iff sound (inPlan pullRequest inside)).mpr
        (met pullRequest inside)
    refine ⟨?_, whole, ?_, ?_⟩
    · rw [List.find?_eq_none]
      intro observation inWave
      rcases List.mem_filterMap.mp inWave with
        ⟨pullRequest, inside, there⟩
      rcases met pullRequest inside with ⟨other, shown, named, passes⟩
      have same := (finds _ _).mpr ⟨shown, named⟩
      rw [there] at same
      cases same
      intro closed
      have state := passes.state
      rw [of_decide_eq_true closed] at state
      cases advanceOn : plan.policy.advanceOn with
      | merged =>
        rw [advanceOn] at state
        cases state
      | approved =>
        rw [advanceOn] at state
        rcases state with merged | draft
        · cases merged
        · cases draft
    · exact List.flatMap_eq_nil_iff.mpr fun pullRequest inside =>
        (passed pullRequest inside).2
    · exact List.flatMap_eq_nil_iff.mpr fun pullRequest inside =>
        (passed pullRequest inside).1

/-- A decision which keeps to the gates of a plan. -/
structure KeepsGates (plan : Plan) (snapshot : Snapshot)
    (decision : ResumeDecision) : Prop where
  actions : ∀ action ∈ decision.actions, ∃ earlier wave later,
    plan.waves = earlier ++ wave :: later ∧
    action.waveId = wave.id ∧
    (∃ pullRequest ∈ wave.pullRequests,
      action.unitId = pullRequest.unitId) ∧
    (¬ ∀ pullRequest ∈ wave.pullRequests,
      GateMet plan snapshot pullRequest) ∧
    (∀ before ∈ earlier, ∀ pullRequest ∈ before.pullRequests,
      GateMet plan snapshot pullRequest) ∧
    ∀ observation ∈ snapshot.pullRequests,
      observation.unitId ≠ action.unitId
  complete : decision.decision = .complete ↔
    Consistent plan snapshot ∧ ∀ wave ∈ plan.waves,
      (∀ pullRequest ∈ wave.pullRequests,
        GateMet plan snapshot pullRequest) ∧
      ¬ PartlyMerged snapshot wave
  others : decision.decision ≠ .resume → decision.actions = []

theorem mem_missing {found : OrderedMap String Observation}
    (finds : FindsBy Observation.unitId found snapshot.pullRequests)
    {wave : Wave} {pullRequest : PullRequest} :
    pullRequest ∈ missing found wave ↔ pullRequest ∈ wave.pullRequests ∧
      ∀ observation ∈ snapshot.pullRequests,
        observation.unitId ≠ pullRequest.unitId := by
  rw [missing, List.mem_filter, Bool.not_eq_true', OrderedMap.has,
    Option.isSome_eq_false_iff, Option.isNone_iff_eq_none,
    finds.get?_eq_none, List.mem_map]
  simp only [not_exists, not_and, Ne]

theorem Plan.Sound.keepsGates (sound : plan.Sound collation sha256) :
    KeepsGates plan snapshot
      (reconcileStagedPullRequestResume collation sha256 plan snapshot) := by
  rw [reconcileStagedPullRequestResume]
  split
  · next inconsistent =>
      rw [Ne, integrityReasons_eq_nil sound] at inconsistent
      constructor
      · exact fun action member => nomatch member
      · constructor
        · exact fun impossible => nomatch impossible
        · exact fun both => absurd both.1 inconsistent
      · exact fun _ => rfl
  · next none' =>
      have consistent := (integrityReasons_eq_nil sound).mp (not_not.mp none')
      have finds := consistent.finds sound
      rcases @resumeWaves_cases plan (observed plan snapshot).found
          (heads snapshot).found plan.waves with
        ⟨all, complete⟩ |
          ⟨earlier, wave, later, split, before, notThrough, stops⟩
      · rw [complete]
        constructor
        · exact fun action member => nomatch member
        · constructor
          · exact fun _ => ⟨consistent, fun wave member =>
              (consistent.through_iff sound member).mp (all wave member)⟩
          · exact fun _ => rfl
        · exact fun _ => rfl
      · have inPlan : wave ∈ plan.waves := by
          rw [split]
          exact List.mem_append_right _ List.mem_cons_self
        have notComplete : ¬ (Consistent plan snapshot ∧
            ∀ wave ∈ plan.waves,
              (∀ pullRequest ∈ wave.pullRequests,
                GateMet plan snapshot pullRequest) ∧
              ¬ PartlyMerged snapshot wave) := fun both =>
          notThrough ((consistent.through_iff sound inPlan).mpr
            (both.2 wave inPlan))
        generalize resumeWaves plan (observed plan snapshot).found
          (heads snapshot).found plan.waves = decision at stops
        cases stops with
        | halted reasons =>
          constructor
          · exact fun action member => nomatch member
          · constructor
            · exact fun impossible => nomatch impossible
            · exact fun both => absurd both notComplete
          · exact fun _ => rfl
        | wait reasons _ =>
          constructor
          · exact fun action member => nomatch member
          · constructor
            · exact fun impossible => nomatch impossible
            · exact fun both => absurd both notComplete
          · exact fun _ => rfl
        | resume some' noDrift =>
          constructor
          · intro action member
            rcases List.mem_map.mp member with
              ⟨pullRequest, isMissing, rfl⟩
            rcases (mem_missing finds).mp isMissing with
              ⟨inWave, unseen⟩
            refine ⟨earlier, wave, later, split, rfl,
              ⟨pullRequest, inWave, rfl⟩, ?_, ?_, unseen⟩
            · intro met
              rcases met pullRequest inWave with
                ⟨observation, shown, named, _⟩
              exact unseen observation shown named
            · intro wave' inEarlier
              have there : wave' ∈ plan.waves := by
                rw [split]
                exact List.mem_append_left _ inEarlier
              exact ((consistent.through_iff sound there).mp
                (before wave' inEarlier)).1
          · constructor
            · exact fun impossible => nomatch impossible
            · exact fun both => absurd both notComplete
          · exact fun other => absurd rfl other

/--
For a plan of the planner a decision proposes drafts only of units which are
not observed, in the first wave whose gate is not met; it is complete exactly
when a consistent snapshot shows every wave through its gate, none of them
partly merged.
-/
theorem resume_keeps_gates (collation : Collation) (sha256 : String → String)
    (input : PlanningInput) (plan : Plan) (snapshot : Snapshot)
    (accepted : planStagedPullRequestBatches collation sha256 input =
      .ok plan) :
    KeepsGates plan snapshot
      (reconcileStagedPullRequestResume collation sha256 plan snapshot) := by
  rcases planned_of_ok accepted with ⟨waves, planned⟩
  exact planned.sound.keepsGates

end Decisions

/-! ### One unit -/

/-- A revision of one digit. -/
def revision (digit : Char) : String :=
  String.ofList (List.replicate 40 digit)

def unitOf (id : String) (source candidate : Char) : VerifiedUnit where
  id := id
  title := "Update the client"
  repositoryId := "api"
  provider := .github
  baseBranch := "main"
  headBranch := "mendpoint/" ++ id
  sourceRevision := revision source
  candidateRevision := revision candidate
  dependsOn := []
  authorId := "agent"
  evidenceRefs := ["artifact"]
  verification := {
    status := .verified
    artifactDigest := "sha256:" ++ String.ofList (List.replicate 64 '0')
    verifiedRevision := revision candidate
    evidenceRefs := ["eval"] }

def inputOf (units : List VerifiedUnit) : PlanningInput where
  plannedAt := "2026-08-02T12:00:00.000Z"
  campaign := {
    id := "campaign"
    revision := 1
    blueprintId := "blueprint"
    blueprintDigest := "sha256:" ++ String.ofList (List.replicate 64 '0')
    state := .ready }
  policy := {
    maxDraftPullRequestsPerWave := 2
    advanceOn := .merged
    requiredCheckNames := ["build"]
    reviewerIds := ["reviewer"]
    minimumApprovals := 1
    prohibitAuthorApproval := true
    requireConversationResolution := true }
  units := units

/-- One digest for every text. -/
def sameHash (_ : String) : String :=
  String.ofList (List.replicate 64 '0')

def planOf (units : List VerifiedUnit) (waves : List (List VerifiedUnit)) :
    Plan where
  toPlanBody := planBody (inputOf units) waves
  id := "tfpr_" ++ String.ofList (List.replicate 24 '0')
  digest := "sha256:" ++ String.ofList (List.replicate 64 '0')

def onlyUnit : VerifiedUnit :=
  unitOf "client" 'a' 'b'

def onlyPlan : Plan :=
  planOf [onlyUnit] [[onlyUnit]]

theorem onlyPlan_accepted :
    planStagedPullRequestBatches Collation.ordinal sameHash
      (inputOf [onlyUnit]) = .ok onlyPlan := by
  decide +kernel

/-- The pull request of the unit, reviewed, checked and merged. -/
def onlyMerged : Observation where
  unitId := "client"
  provider := .github
  repositoryId := "api"
  state := .merged
  isDraft := true
  baseRevision := revision 'a'
  headRevision := revision 'b'
  approvals := [{
    reviewerId := "reviewer"
    headRevision := revision 'b'
    state := .approved }]
  checks := [{
    name := "build"
    headRevision := revision 'b'
    status := .success }]
  unresolvedConversationCount := 0
  evidenceRefs := ["scm"]

def onlySnapshot (planDigest : String) : Snapshot where
  planDigest := planDigest
  campaignRevision := 1
  repositoryHeads := []
  pullRequests := [onlyMerged]

theorem resume_keeps_gates_onlyUnit :
    KeepsGates onlyPlan (onlySnapshot onlyPlan.digest)
      (reconcileStagedPullRequestResume Collation.ordinal sameHash onlyPlan
        (onlySnapshot onlyPlan.digest)) :=
  resume_keeps_gates Collation.ordinal sameHash (inputOf [onlyUnit])
    onlyPlan (onlySnapshot onlyPlan.digest) onlyPlan_accepted

/-- A snapshot of another plan is not complete, though its gates are met. -/
theorem complete_drifted :
    planStagedPullRequestBatches Collation.ordinal sameHash
        (inputOf [onlyUnit]) = .ok onlyPlan ∧
      (∀ wave ∈ onlyPlan.waves, ∀ pullRequest ∈ wave.pullRequests,
        GateMet onlyPlan (onlySnapshot "sha256:") pullRequest) ∧
      (reconcileStagedPullRequestResume Collation.ordinal sameHash onlyPlan
        (onlySnapshot "sha256:")).decision ≠ .complete := by
  refine ⟨onlyPlan_accepted, ?_, by decide +kernel⟩
  intro wave inPlan pullRequest inWave
  rw [List.mem_singleton.mp inPlan] at inWave
  rw [List.mem_singleton.mp inWave]
  refine ⟨onlyMerged, List.mem_singleton_self _, rfl, ?_⟩
  have there : (OrderedMap.empty.set "client" onlyMerged).get?
      (pullRequestOf (normalizedPolicy (inputOf []).policy)
        onlyUnit).unitId = some onlyMerged := rfl
  apply (passesGate_iff rfl rfl rfl there).mp
  decide +kernel

end Mendpoint.StagedPr
