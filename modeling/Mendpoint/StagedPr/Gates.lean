import Mathlib.Data.Finset.Card
import Mendpoint.StagedPr.Resume
import Mendpoint.StagedPr.Waves

/-!
# Gates

What a snapshot has to show before a wave is left, in the words of reviewers
and checks, and what a decision says about it.
-/

namespace Mendpoint.StagedPr

open Mendpoint.Library

/-! ## Readings -/

theorem readObservation_reasons {planned : OrderedMap String PullRequest}
    {reading : Reading Observation} {item : Observation} :
    (readObservation planned reading item).reasons = [] ↔
      reading.reasons = [] ∧ reading.found.get? item.unitId = none ∧
        ∃ expected ∈ planned.get? item.unitId,
          observationReasons expected item = [] := by
  rw [readObservation]
  cases found : planned.get? item.unitId with
  | none =>
    simp only [List.append_eq_nil_iff, List.cons_ne_nil, and_false,
      Option.mem_def, reduceCtorEq, false_and, exists_false]
  | some expected =>
    simp only [List.append_eq_nil_iff, requires_eq_nil, OrderedMap.has,
      Option.isSome_eq_false_iff, Option.isNone_iff_eq_none,
      Option.mem_def, Option.some.injEq, exists_eq_left', and_assoc]

theorem readObservation_found {planned : OrderedMap String PullRequest}
    {reading : Reading Observation} {item : Observation}
    (none' : (readObservation planned reading item).reasons = []) :
    (readObservation planned reading item).found =
      reading.found.set item.unitId item := by
  rcases (readObservation_reasons.mp none').2.2 with ⟨expected, found, _⟩
  rw [readObservation, Option.mem_def.mp found]

/-- What a faultless reading has found under each key. -/
def FindsBy {α : Type} (key : α → String) (found : OrderedMap String α)
    (items : List α) : Prop :=
  ∀ name item, found.get? name = some item ↔ item ∈ items ∧ key item = name

variable {α : Type} {key : α → String} {items : List α}

theorem FindsBy.set {found : OrderedMap String α} {item : α}
    (finds : FindsBy key found items) (new : found.get? (key item) = none) :
    FindsBy key (found.set (key item) item) (items ++ [item]) := by
  intro name other
  rw [OrderedMap.get?_set, List.mem_append, List.mem_singleton]
  split
  · next same =>
      constructor
      · intro equal
        cases equal
        exact ⟨Or.inr rfl, same⟩
      · rintro ⟨old | rfl, named⟩
        · have there := (finds name other).mpr ⟨old, named⟩
          rw [same] at new
          rw [new] at there
          cases there
        · rfl
  · next different =>
      rw [finds name other]
      constructor
      · rintro ⟨old, named⟩
        exact ⟨Or.inl old, named⟩
      · rintro ⟨old | rfl, named⟩
        · exact ⟨old, named⟩
        · exact absurd named different

theorem FindsBy.get?_eq_none {found : OrderedMap String α}
    (finds : FindsBy key found items) {name : String} :
    found.get? name = none ↔ name ∉ items.map key := by
  rw [List.mem_map]
  constructor
  · rintro absent ⟨item, member, named⟩
    have there := (finds name item).mpr ⟨member, named⟩
    rw [absent] at there
    cases there
  · intro absent
    cases there : found.get? name with
    | none => rfl
    | some item =>
      rcases (finds name item).mp there with ⟨member, named⟩
      exact absurd ⟨item, member, named⟩ absent

theorem nodup_map_concat {item : α} :
    ((items ++ [item]).map key).Nodup ↔
      (items.map key).Nodup ∧ key item ∉ items.map key := by
  rw [List.map_append, List.map_singleton, List.nodup_append]
  constructor
  · rintro ⟨nodup, _, apart⟩
    exact ⟨nodup, fun member =>
      apart _ member _ (List.mem_singleton_self _) rfl⟩
  · rintro ⟨nodup, new⟩
    refine ⟨nodup, List.nodup_singleton _, ?_⟩
    rintro name member other inside rfl
    rw [List.mem_singleton.mp inside] at member
    exact new member

theorem foldl_readObservation (planned : OrderedMap String PullRequest)
    (items : List Observation) :
    ((items.foldl (readObservation planned) .empty).reasons = [] ↔
      (items.map Observation.unitId).Nodup ∧ ∀ item ∈ items,
        ∃ expected ∈ planned.get? item.unitId,
          observationReasons expected item = []) ∧
    ((items.foldl (readObservation planned) .empty).reasons = [] →
      FindsBy Observation.unitId
        (items.foldl (readObservation planned) .empty).found items) := by
  induction items using List.reverseRecOn with
  | nil =>
    refine ⟨⟨fun _ => ⟨List.nodup_nil, fun _ member => nomatch member⟩,
      fun _ => rfl⟩, fun _ name item => ?_⟩
    exact ⟨fun found => (nomatch found), fun member => nomatch member.1⟩
  | append_singleton items item inductionHypothesis =>
    rcases inductionHypothesis with ⟨exactly, finds⟩
    rw [List.foldl_append, List.foldl_cons, List.foldl_nil]
    constructor
    · rw [readObservation_reasons, nodup_map_concat,
        List.forall_mem_append, List.forall_mem_singleton]
      constructor
      · rintro ⟨before, new, expected⟩
        rcases exactly.mp before with ⟨nodup, others⟩
        exact ⟨⟨nodup, (finds before).get?_eq_none.mp new⟩, others,
          expected⟩
      · rintro ⟨⟨nodup, new⟩, others, expected⟩
        have before := exactly.mpr ⟨nodup, others⟩
        exact ⟨before, (finds before).get?_eq_none.mpr new, expected⟩
    · intro none'
      rw [readObservation_found none']
      rcases readObservation_reasons.mp none' with ⟨before, new, _⟩
      exact (finds before).set new

theorem readHead_reasons {reading : Reading Head} {head : Head} :
    (readHead reading head).reasons = [] ↔
      reading.reasons = [] ∧ reading.found.get? head.repositoryId = none ∧
        isRevision head.revision ∧ head.evidenceRefs ≠ [] := by
  rw [readHead]
  simp only [List.append_eq_nil_iff, requires_eq_nil, OrderedMap.has,
    Option.isSome_eq_false_iff, Option.isNone_iff_eq_none, and_assoc]

theorem foldl_readHead (items : List Head) :
    ((items.foldl readHead .empty).reasons = [] ↔
      (items.map Head.repositoryId).Nodup ∧ ∀ item ∈ items,
        isRevision item.revision ∧ item.evidenceRefs ≠ []) ∧
    ((items.foldl readHead .empty).reasons = [] →
      FindsBy Head.repositoryId (items.foldl readHead .empty).found
        items) := by
  induction items using List.reverseRecOn with
  | nil =>
    refine ⟨⟨fun _ => ⟨List.nodup_nil, fun _ member => nomatch member⟩,
      fun _ => rfl⟩, fun _ name item => ?_⟩
    exact ⟨fun found => (nomatch found), fun member => nomatch member.1⟩
  | append_singleton items item inductionHypothesis =>
    rcases inductionHypothesis with ⟨exactly, finds⟩
    rw [List.foldl_append, List.foldl_cons, List.foldl_nil]
    constructor
    · rw [readHead_reasons, nodup_map_concat, List.forall_mem_append,
        List.forall_mem_singleton]
      constructor
      · rintro ⟨before, new, valid⟩
        rcases exactly.mp before with ⟨nodup, others⟩
        exact ⟨⟨nodup, (finds before).get?_eq_none.mp new⟩, others, valid⟩
      · rintro ⟨⟨nodup, new⟩, others, valid⟩
        have before := exactly.mpr ⟨nodup, others⟩
        exact ⟨before, (finds before).get?_eq_none.mpr new, valid⟩
    · intro none'
      rcases readHead_reasons.mp none' with ⟨before, new, _⟩
      exact (finds before).set new

theorem findsBy_ofList (nodup : (items.map key).Nodup) :
    FindsBy key (OrderedMap.ofList (items.map fun item => (key item, item)))
      items := by
  induction items using List.reverseRecOn with
  | nil => exact fun _ _ => ⟨fun found => (nomatch found), fun member =>
    nomatch member.1⟩
  | append_singleton items item inductionHypothesis =>
    rcases nodup_map_concat.mp nodup with ⟨before, new⟩
    have finds := inductionHypothesis before
    rw [List.map_append, OrderedMap.ofList, OrderedMap.setAll,
      List.foldl_append]
    exact finds.set (finds.get?_eq_none.mpr new)

/-! ## What a gate asks for -/

/-- What an observation has to show of a pull request. -/
structure PassesGate (plan : Plan) (pullRequest : PullRequest)
    (observation : Observation) : Prop where
  head : observation.headRevision = pullRequest.candidateRevision
  checks : ∀ name ∈ pullRequest.requiredCheckNames,
    ∃ check ∈ observation.checks, check.name = name ∧
      check.headRevision = pullRequest.candidateRevision ∧
      check.status = .success
  reviewers : ∃ reviewers : Finset String,
    pullRequest.minimumApprovals ≤ reviewers.card ∧
    ∀ reviewerId ∈ reviewers, reviewerId ∈ pullRequest.reviewerIds ∧
      reviewerId ≠ pullRequest.authorId ∧
      ∃ approval ∈ observation.approvals,
        approval.reviewerId = reviewerId ∧
        approval.headRevision = pullRequest.candidateRevision ∧
        approval.state = .approved
  noChangesRequested : ∀ approval ∈ observation.approvals,
    ¬ (approval.headRevision = pullRequest.candidateRevision ∧
      approval.state = .changesRequested)
  conversations : observation.unresolvedConversationCount = 0
  noFailure : ∀ check ∈ observation.checks,
    ¬ (check.headRevision = pullRequest.candidateRevision ∧
      check.name ∈ pullRequest.requiredCheckNames ∧
      (check.status = .failure ∨ check.status = .cancelled))
  state : stateSatisfied plan.policy.advanceOn observation.state

/-- A snapshot shows that a pull request has passed its gate. -/
def GateMet (plan : Plan) (snapshot : Snapshot) (pullRequest : PullRequest) :
    Prop :=
  ∃ observation ∈ snapshot.pullRequests,
    observation.unitId = pullRequest.unitId ∧
    PassesGate plan pullRequest observation

/-- An observation belongs to a planned pull request at its revisions. -/
structure Belongs (expected : PullRequest) (item : Observation) : Prop where
  unit : item.unitId = expected.unitId
  scope : item.provider = expected.provider ∧
    item.repositoryId = expected.repositoryId
  base : item.baseRevision = expected.sourceRevision
  head : item.headRevision = expected.candidateRevision
  evidence : item.evidenceRefs ≠ []
  draft : ¬ ((item.state = .draft ∨ item.state = .opened) ∧
    (item.isDraft = false ∨ item.state = .opened))
  conversations : isSafeInteger item.unresolvedConversationCount ∧
    0 ≤ item.unresolvedConversationCount

/-- A snapshot of a plan, whose observations belong to it. -/
structure Consistent (plan : Plan) (snapshot : Snapshot) : Prop where
  digest : snapshot.planDigest = plan.digest
  revision : snapshot.campaignRevision = plan.campaign.revision
  once : (snapshot.pullRequests.map Observation.unitId).Nodup
  belong : ∀ item ∈ snapshot.pullRequests,
    ∃ expected ∈ plan.waves.flatMap Wave.pullRequests, Belongs expected item
  heads : (snapshot.repositoryHeads.map Head.repositoryId).Nodup
  headEvidence : ∀ head ∈ snapshot.repositoryHeads,
    isRevision head.revision ∧ head.evidenceRefs ≠ []

/-- Some pull requests of a wave are merged, and some are not. -/
def PartlyMerged (snapshot : Snapshot) (wave : Wave) : Prop :=
  (∃ pullRequest ∈ wave.pullRequests, ∃ observation ∈ snapshot.pullRequests,
    observation.unitId = pullRequest.unitId ∧
    observation.state = .merged) ∧
  ∃ pullRequest ∈ wave.pullRequests, ∀ observation ∈ snapshot.pullRequests,
    observation.unitId = pullRequest.unitId →
    observation.state ≠ .merged

/-- What the planner promises about a plan. -/
structure Plan.Sound (collation : Collation) (sha256 : String → String)
    (plan : Plan) : Prop where
  unitIds : ((plan.waves.flatMap Wave.pullRequests).map
    PullRequest.unitId).Nodup
  integrity : digestOf collation sha256 plan.toPlanBody = plan.digest ∧
    plan.id = planId (digestOf collation sha256 plan.toPlanBody)
  authors : plan.policy.prohibitAuthorApproval = true
  resolution : plan.policy.requireConversationResolution = true

section Planned

variable {collation : Collation} {sha256 : String → String}
  {input : PlanningInput} {plan : Plan} {waves : List (List VerifiedUnit)}

theorem flatMap_waveOf (policy : Policy) (waves : List (List VerifiedUnit))
    (start : Nat) :
    ((waves.zipIdx start).map fun entry =>
      waveOf policy entry.1 entry.2).flatMap Wave.pullRequests =
    waves.flatten.map (pullRequestOf policy) := by
  induction waves generalizing start with
  | nil => rfl
  | cons wave rest inductionHypothesis =>
    rw [List.zipIdx_cons, List.map_cons, List.flatMap_cons,
      inductionHypothesis, List.flatten_cons, List.map_append]
    rfl

theorem Planned.pullRequests
    (planned : Planned collation sha256 input plan waves) :
    plan.waves.flatMap Wave.pullRequests =
      waves.flatten.map (pullRequestOf (normalizedPolicy input.policy)) := by
  rw [planned.body, planBody]
  exact flatMap_waveOf _ _ _

theorem Planned.sound
    (planned : Planned collation sha256 input plan waves) :
    plan.Sound collation sha256 where
  unitIds := by
    rw [planned.pullRequests, List.map_map]
    exact planned.ids
  integrity := by
    rw [← planned.digest]
    exact ⟨rfl, planned.id⟩
  authors := by
    rw [planned.body]
    rfl
  resolution := by
    rw [planned.body]
    rfl

end Planned

end Mendpoint.StagedPr
