import Mathlib.Algebra.GroupWithZero.Nat
import Mathlib.Algebra.Order.BigOperators.Group.List
import Mendpoint.StagedPr.Delivery

/-!
# Deliveries come to an end

Every step of a delivery keeps its progress, no delivery goes on for ever, and
it ends with a complete plan exactly when the revisions of every repository are
chained.
-/

namespace Mendpoint.StagedPr

open Mendpoint.Library
open Relation

namespace Progress

variable {collation : Collation} {sha256 : String → String} {plan : Plan}
  {done later : List Wave} {wave : Wave} {host : Host}

/-! ## Steps -/

theorem unitId_withReview (unitId : String) (approvals : List Approval)
    (checks : List Check) (observation : Observation) :
    (withReview unitId approvals checks observation).unitId =
      observation.unitId := by
  rw [withReview]
  split <;> rfl

theorem unitId_mergeOf (next : Wave) (observation : Observation) :
    (mergeOf next observation).unitId = observation.unitId := by
  rw [mergeOf]
  split <;> rfl

theorem repositoryId_moveHead (next : Wave) (head : Head) :
    (moveHead next head).repositoryId = head.repositoryId := by
  rw [moveHead]
  split <;> rfl

theorem belongs_withReview {expected : PullRequest} {item : Observation}
    (belongs : Belongs expected item) (unitId : String)
    (approvals : List Approval) (checks : List Check) :
    Belongs expected (withReview unitId approvals checks item) := by
  rw [withReview]
  split
  · exact { belongs with }
  · exact belongs

theorem belongs_mergeOf {expected : PullRequest} {item : Observation}
    (belongs : Belongs expected item) (next : Wave) :
    Belongs expected (mergeOf next item) := by
  rw [mergeOf]
  split
  · refine { belongs with draft := ?_ }
    rintro ⟨draft | opened, _⟩
    · cases draft
    · cases opened
  · exact belongs

theorem opens (progress : Progress plan done later host)
    (deliverable : Deliverable collation sha256 plan) {action : DraftAction}
    {evidenceRefs : List String}
    (proposed : action ∈ (answer collation sha256 plan host).actions)
    (evidence : evidenceRefs ≠ []) :
    Progress plan done later { host with
      pullRequests := host.pullRequests ++ [opened action evidenceRefs] } := by
  rcases progress.of_proposed deliverable proposed with
    ⟨wave, rest, pullRequest, rfl, member, unseen, chained, rfl⟩
  refine { progress with
    once := ?_
    belong := ?_
    merged := ?_
    current := ?_ }
  · rw [nodup_map_concat]
    refine ⟨progress.once, fun seen => ?_⟩
    rcases List.mem_map.mp seen with ⟨observation, shown, named⟩
    exact unseen observation shown named
  · rw [List.forall_mem_append, List.forall_mem_singleton]
    refine ⟨progress.belong, pullRequest,
      progress.inPlan_later (mem_cons member), ?_⟩
    refine ⟨rfl, ⟨rfl, rfl⟩, rfl, rfl, evidence, ?_, ?_⟩
    · rintro ⟨_, notDraft | opened⟩
      · cases notDraft
      · cases opened
    · exact ⟨Nat.zero_le _, Int.le_refl _⟩
  · intro other inDone
    rcases progress.merged other inDone with ⟨observation, shown, facts⟩
    exact ⟨observation, List.mem_append_left _ shown, facts⟩
  · rw [List.forall_mem_append, List.forall_mem_singleton]
    refine ⟨progress.current, Or.inr ⟨wave, rfl, pullRequest, member, rfl,
      ⟨rfl, Or.inl ⟨rfl, rfl, rfl⟩⟩, chained⟩⟩

theorem reviews (progress : Progress plan done later host)
    (deliverable : Deliverable collation sha256 plan)
    {pullRequest : PullRequest} {observation : Observation}
    {approvals : List Approval} {checks : List Check}
    (inPlan : pullRequest ∈ plan.waves.flatMap Wave.pullRequests)
    (shown : observation ∈ host.pullRequests)
    (named : observation.unitId = pullRequest.unitId)
    (fresh : observation.state = .draft ∧ observation.approvals = [])
    (reviewed : Reviewed plan pullRequest { observation with
      approvals := approvals
      checks := checks }) :
    Progress plan done later { host with
      pullRequests := host.pullRequests.map
        (withReview pullRequest.unitId approvals checks) } := by
  have unique : ∀ other ∈ host.pullRequests,
      other.unitId = pullRequest.unitId → other = observation := by
    intro other inside same
    exact List.inj_on_of_nodup_map progress.once inside shown
      (same.trans named.symm)
  refine { progress with
    once := ?_
    belong := ?_
    merged := ?_
    current := ?_ }
  · rw [List.map_map]
    rw [show Observation.unitId ∘
      withReview pullRequest.unitId approvals checks = Observation.unitId
      from funext (unitId_withReview _ _ _)]
    exact progress.once
  · rw [List.forall_mem_map]
    intro item inside
    rcases progress.belong item inside with ⟨expected, planned, belongs⟩
    exact ⟨expected, planned, belongs_withReview belongs _ _ _⟩
  · intro other inDone
    rcases progress.merged other inDone with
      ⟨item, inside, sameUnit, merged, otherReviewed⟩
    refine ⟨item, ?_, sameUnit, merged, otherReviewed⟩
    rw [List.mem_map]
    refine ⟨item, inside, ?_⟩
    rw [withReview]
    split
    · next same =>
        rw [unique item inside same, fresh.1] at merged
        cases merged
    · rfl
  · rw [List.forall_mem_map]
    intro item inside
    rw [unitId_withReview]
    rcases progress.current item inside with inDone |
      ⟨current, isCurrent, other, inWave, sameUnit, review, chained⟩
    · exact Or.inl inDone
    · refine Or.inr ⟨current, isCurrent, other, inWave, sameUnit, ?_,
        chained⟩
      rw [withReview]
      split
      · next same =>
          have isOne := unique item inside same
          subst isOne
          have inLater : other ∈ later.flatMap Wave.pullRequests :=
            List.mem_flatMap.mpr
              ⟨current, List.mem_of_mem_head? isCurrent, inWave⟩
          have equal : other = pullRequest :=
            List.inj_on_of_nodup_map deliverable.sound.unitIds
              (progress.inPlan_later inLater) inPlan
              (sameUnit.symm.trans named)
          rw [equal]
          exact ⟨fresh.1, Or.inr reviewed⟩
      · exact review

variable {next : Wave} {observation : Observation}

theorem state_mergeOf
    (merged : observation.state = .merged ∨ observation.unitId ∈
      next.pullRequests.map PullRequest.unitId) :
    (mergeOf next observation).state = .merged := by
  rw [mergeOf]
  split
  · rfl
  · next outside => exact merged.resolve_right outside

theorem reviewed_mergeOf {pullRequest : PullRequest}
    (reviewed : Reviewed plan pullRequest observation) :
    Reviewed plan pullRequest (mergeOf next observation) := by
  rw [mergeOf]
  split
  · exact reviewed
  · exact reviewed

theorem ready_next (progress : Progress plan done later host)
    (deliverable : Deliverable collation sha256 plan)
    (inPlan : next ∈ plan.waves)
    (ready : ∀ pullRequest ∈ next.pullRequests, ∃ observation ∈
      host.pullRequests, observation.unitId = pullRequest.unitId ∧
      observation.state = .draft ∧ Reviewed plan pullRequest observation) :
    ∃ rest, later = next :: rest := by
  rcases List.exists_mem_of_ne_nil _ (deliverable.nonempty next inPlan) with
    ⟨pullRequest, member⟩
  rcases ready pullRequest member with ⟨observation, shown, named, draft, _⟩
  rcases progress.current observation shown with
    ⟨other, inDone, same⟩ | ⟨wave, isCurrent, other, inWave, same, _⟩
  · rcases progress.merged other inDone with
      ⟨item, inside, sameUnit, merged, _⟩
    have equal : item = observation :=
      List.inj_on_of_nodup_map progress.once inside shown
        (sameUnit.trans same.symm)
    rw [equal, draft] at merged
    cases merged
  · cases later with
    | nil => cases isCurrent
    | cons first rest =>
      cases isCurrent
      have equal : other = pullRequest :=
        List.inj_on_of_nodup_map deliverable.sound.unitIds
          (progress.inPlan_later (mem_cons inWave))
          (List.mem_flatMap.mpr ⟨next, inPlan, member⟩)
          (same.symm.trans named)
      rw [equal] at inWave
      refine ⟨rest, ?_⟩
      rw [progress.split] at inPlan
      rcases List.mem_append.mp inPlan with inDone | inLater
      · have inBoth : pullRequest ∈ done.flatMap Wave.pullRequests :=
          List.mem_flatMap.mpr ⟨next, inDone, member⟩
        exact absurd rfl (progress.apart deliverable inBoth
          (mem_cons inWave))
      · rcases List.mem_cons.mp inLater with rfl | inRest
        · rfl
        · have nodup := deliverable.sound.unitIds
          rw [progress.split, List.flatMap_append, List.flatMap_cons,
            List.map_append, List.map_append, List.nodup_append,
            List.nodup_append] at nodup
          have inBoth : pullRequest ∈ rest.flatMap Wave.pullRequests :=
            List.mem_flatMap.mpr ⟨next, inRest, member⟩
          exact absurd rfl (nodup.2.1.2.2 _ (List.mem_map_of_mem inWave)
            _ (List.mem_map_of_mem inBoth))

theorem merges (progress : Progress plan done (wave :: later) host)
    (deliverable : Deliverable collation sha256 plan)
    (ready : ∀ pullRequest ∈ wave.pullRequests,
      ∃ observation ∈ host.pullRequests,
        observation.unitId = pullRequest.unitId ∧
        observation.state = .draft ∧
        Reviewed plan pullRequest observation) :
    Progress plan (done ++ [wave]) later {
      heads := host.heads.map (moveHead wave)
      pullRequests := host.pullRequests.map (mergeOf wave) } := by
  have inPlan : wave ∈ plan.waves := by
    rw [progress.split]
    exact List.mem_append_right _ List.mem_cons_self
  have waves : (done ++ [wave]).flatMap Wave.pullRequests =
      done.flatMap Wave.pullRequests ++ wave.pullRequests := by
    rw [List.flatMap_append, List.flatMap_singleton]
  have repositories : (host.heads.map (moveHead wave)).map
      Head.repositoryId = host.heads.map Head.repositoryId := by
    rw [List.map_map]
    exact List.map_congr_left fun head _ => repositoryId_moveHead wave head
  constructor
  · rw [progress.split, List.append_assoc]
    rfl
  · rw [List.map_map, show Observation.unitId ∘ mergeOf wave =
      Observation.unitId from funext (unitId_mergeOf wave)]
    exact progress.once
  · rw [List.forall_mem_map]
    intro item inside
    rcases progress.belong item inside with ⟨expected, planned, belongs⟩
    exact ⟨expected, planned, belongs_mergeOf belongs wave⟩
  · rw [waves, List.forall_mem_append]
    constructor
    · intro pullRequest inDone
      rcases progress.merged pullRequest inDone with
        ⟨observation, shown, named, merged, reviewed⟩
      refine ⟨mergeOf wave observation, List.mem_map_of_mem shown, ?_,
        state_mergeOf (Or.inl merged), reviewed_mergeOf reviewed⟩
      rw [unitId_mergeOf]
      exact named
    · intro pullRequest inWave
      rcases ready pullRequest inWave with
        ⟨observation, shown, named, _, reviewed⟩
      have inside : observation.unitId ∈
          wave.pullRequests.map PullRequest.unitId := by
        rw [named]
        exact List.mem_map_of_mem inWave
      refine ⟨mergeOf wave observation, List.mem_map_of_mem shown, ?_,
        state_mergeOf (Or.inr inside), reviewed_mergeOf reviewed⟩
      rw [unitId_mergeOf]
      exact named
  · rw [List.forall_mem_map]
    intro item inside
    rw [unitId_mergeOf, waves]
    left
    rcases progress.current item inside with
      ⟨other, inDone, same⟩ | ⟨current, isCurrent, other, inWave, same, _⟩
    · exact ⟨other, List.mem_append_left _ inDone, same⟩
    · cases isCurrent
      exact ⟨other, List.mem_append_right _ inWave, same⟩
  · apply chainedWaves_concat progress.chained
    intro pullRequest inWave
    rcases ready pullRequest inWave with ⟨observation, shown, named, _⟩
    exact (progress.inReview deliverable inWave shown named).2
  · rw [repositories]
    exact progress.heads
  · rw [List.forall_mem_map]
    intro head shown
    rw [moveHead]
    split
    · next pullRequest found =>
        refine ⟨deliverable.candidates pullRequest ?_,
          (progress.evidence head shown).2⟩
        exact List.mem_flatMap.mpr
          ⟨wave, inPlan, List.mem_of_find?_eq_some found⟩
    · exact progress.evidence head shown
  · rw [List.forall_mem_map]
    intro head shown
    exact headAt_moveHead (deliverable.repositories wave inPlan)
      (progress.headAt head shown)
  · rw [repositories]
    exact progress.all

theorem advance (progress : Progress plan done later host)
    (deliverable : Deliverable collation sha256 plan) {after : Host}
    (advances : Advance collation sha256 plan host after) :
    ∃ done' later', Progress plan done' later' after := by
  cases advances with
  | opens evidenceRefs proposed evidence =>
    exact ⟨done, later, progress.opens deliverable proposed evidence⟩
  | reviews approvals checks inPlan shown named fresh reviewed =>
    exact ⟨done, later, progress.reviews deliverable inPlan shown named
      fresh reviewed⟩
  | merges inPlan ready =>
    rcases progress.ready_next deliverable inPlan ready with ⟨rest, rfl⟩
    exact ⟨_, rest, progress.merges deliverable ready⟩

end Progress

/-! ## Work -/

/-- How far a pull request has come. -/
def stage (observation : Observation) : Nat :=
  if observation.state = .merged then 3
  else if observation.approvals = [] then 1
  else 2

def work (host : Host) : Nat :=
  (host.pullRequests.map stage).sum

theorem stage_bounds (observation : Observation) :
    1 ≤ stage observation ∧ stage observation ≤ 3 := by
  rw [stage]
  split
  · omega
  · split
    · omega
    · omega

theorem stage_mergeOf (next : Wave) (observation : Observation) :
    stage observation ≤ stage (mergeOf next observation) := by
  rw [mergeOf]
  split
  · exact (stage_bounds observation).2
  · exact Nat.le_refl _

namespace Progress

variable {collation : Collation} {sha256 : String → String} {plan : Plan}
  {done later : List Wave} {wave : Wave} {host : Host}

theorem work_lt (progress : Progress plan done later host)
    (deliverable : Deliverable collation sha256 plan) {after : Host}
    (advances : Advance collation sha256 plan host after) :
    work host < work after := by
  cases advances with
  | opens evidenceRefs proposed evidence =>
    rw [work, work, List.map_append, List.sum_append, List.map_singleton,
      List.sum_singleton]
    exact Nat.lt_add_of_pos_right (stage_bounds _).1
  | @reviews pullRequest observation approvals checks inPlan shown named
      fresh reviewed =>
      rw [work, work, List.map_map]
      have approved := reviewed.approved
        (deliverable.minimum pullRequest inPlan)
      have before : stage observation = 1 := by
        rw [stage, if_neg, if_pos fresh.2]
        rw [fresh.1]
        exact fun impossible => nomatch impossible
      have after : stage (withReview pullRequest.unitId approvals checks
          observation) = 2 := by
        rw [withReview, if_pos named, stage, if_neg, if_neg approved]
        show observation.state ≠ _
        rw [fresh.1]
        exact fun impossible => nomatch impossible
      apply List.sum_lt_sum
      · intro item inside
        by_cases same : item.unitId = pullRequest.unitId
        · have isOne : item = observation :=
            List.inj_on_of_nodup_map progress.once inside shown
              (same.trans named.symm)
          rw [isOne, Function.comp_apply, before, after]
          omega
        · rw [Function.comp_apply, withReview, if_neg same]
      · refine ⟨observation, shown, ?_⟩
        rw [Function.comp_apply, before, after]
        omega
  | @merges next inPlan ready =>
    rw [work, work, List.map_map]
    apply List.sum_lt_sum
    · exact fun item _ => stage_mergeOf next item
    · rcases List.exists_mem_of_ne_nil _
        (deliverable.nonempty next inPlan) with ⟨pullRequest, member⟩
      rcases ready pullRequest member with
        ⟨observation, shown, named, draft, _⟩
      refine ⟨observation, shown, ?_⟩
      have inside : observation.unitId ∈
          next.pullRequests.map PullRequest.unitId := by
        rw [named]
        exact List.mem_map_of_mem member
      have merged : stage (mergeOf next observation) = 3 := by
        rw [stage, if_pos (state_mergeOf (Or.inr inside))]
      rw [Function.comp_apply, merged, stage, draft]
      simp only [reduceCtorEq, if_false]
      split
      · omega
      · omega

theorem work_le (progress : Progress plan done later host) :
    work host ≤ (plan.waves.flatMap Wave.pullRequests).length * 3 := by
  have few : host.pullRequests.length ≤
      (plan.waves.flatMap Wave.pullRequests).length := by
    have subset : host.pullRequests.map Observation.unitId ⊆
        (plan.waves.flatMap Wave.pullRequests).map PullRequest.unitId := by
      intro unitId shown
      rcases List.mem_map.mp shown with ⟨item, inside, rfl⟩
      rcases progress.belong item inside with ⟨expected, planned, belongs⟩
      rw [belongs.unit]
      exact List.mem_map_of_mem planned
    have lengths := (progress.once.subperm subset).length_le
    rw [List.length_map, List.length_map] at lengths
    exact lengths
  have each : ∀ size ∈ host.pullRequests.map stage, size ≤ 3 := by
    rw [List.forall_mem_map]
    exact fun item _ => (stage_bounds item).2
  have most := List.sum_le_card_nsmul _ 3 each
  rw [List.length_map] at most
  exact Nat.le_trans most (Nat.mul_le_mul_right 3 few)

/-! ## Going on -/

theorem exists_review (progress : Progress plan done (wave :: later) host)
    (deliverable : Deliverable collation sha256 plan)
    {pullRequest : PullRequest} (member : pullRequest ∈ wave.pullRequests)
    {observation : Observation} (shown : observation ∈ host.pullRequests)
    (named : observation.unitId = pullRequest.unitId)
    (conversations : observation.unresolvedConversationCount = 0) :
    ∃ approvals checks, Reviewed plan pullRequest { observation with
      approvals := approvals
      checks := checks } := by
  have inPlan := progress.inPlan_later (mem_cons member)
  have belongs := progress.consistent.belongs deliverable.sound inPlan shown
    named
  rcases deliverable.reviewers pullRequest inPlan with
    ⟨reviewers, enough, independent⟩
  refine ⟨reviewers.toList.map fun reviewerId => {
      reviewerId := reviewerId
      headRevision := pullRequest.candidateRevision
      state := .approved },
    pullRequest.requiredCheckNames.map fun name => {
      name := name
      headRevision := pullRequest.candidateRevision
      status := .success }, ?_⟩
  constructor
  · exact belongs.head
  · intro name required
    exact ⟨_, List.mem_map_of_mem required, rfl, rfl, rfl⟩
  · refine ⟨reviewers, enough, fun reviewerId listed => ?_⟩
    rcases independent reviewerId listed with ⟨named', other⟩
    refine ⟨named', other, _, List.mem_map_of_mem ?_, rfl, rfl, rfl⟩
    exact Finset.mem_toList.mpr listed
  · intro approval given
    rcases List.mem_map.mp given with ⟨reviewerId, _, rfl⟩
    exact fun requested => nomatch requested.2
  · exact conversations
  · intro check given
    rcases List.mem_map.mp given with ⟨name, _, rfl⟩
    rintro ⟨_, _, failed | cancelled⟩
    · cases failed
    · cases cancelled
  · rw [deliverable.merged]
    rfl

theorem goesOn (progress : Progress plan done (wave :: later) host)
    (deliverable : Deliverable collation sha256 plan)
    (chained : ∀ pullRequest ∈ wave.pullRequests,
      ChainedAt done pullRequest) :
    ∃ after, Advance collation sha256 plan host after := by
  have inPlan : wave ∈ plan.waves := by
    rw [progress.split]
    exact List.mem_append_right _ List.mem_cons_self
  by_cases unopened : ∃ pullRequest ∈ wave.pullRequests,
      ∀ observation ∈ host.pullRequests,
        observation.unitId ≠ pullRequest.unitId
  · rcases unopened with ⟨pullRequest, member, unseen⟩
    have isMissing := (progress.mem_missing_iff deliverable).mpr
      ⟨member, unseen⟩
    have proposed : draftAction plan wave pullRequest ∈
        (answer collation sha256 plan host).actions := by
      rw [(progress.answer_chained deliverable chained).2]
      exact List.mem_map_of_mem isMissing
    exact ⟨_, .opens ["scm"] proposed (List.cons_ne_nil _ _)⟩
  · simp only [not_exists, not_and, not_forall, exists_prop, not_not]
      at unopened
    by_cases ready : ∀ pullRequest ∈ wave.pullRequests,
        ∃ observation ∈ host.pullRequests,
          observation.unitId = pullRequest.unitId ∧
          observation.state = .draft ∧
          Reviewed plan pullRequest observation
    · exact ⟨_, .merges inPlan ready⟩
    · simp only [not_forall] at ready
      rcases ready with ⟨pullRequest, member, unready⟩
      rcases unopened pullRequest member with ⟨observation, shown, named⟩
      have review := (progress.inReview deliverable member shown named).1
      rcases review.review with ⟨unapproved, _, conversations⟩ | reviewed
      · rcases progress.exists_review deliverable member shown named
          conversations with ⟨approvals, checks, reviewed⟩
        exact ⟨_, .reviews approvals checks
          (progress.inPlan_later (mem_cons member)) shown named
          ⟨review.draft, unapproved⟩ reviewed⟩
      · exact absurd ⟨observation, shown, named, review.draft, reviewed⟩
          unready

theorem not_complete (progress : Progress plan done (wave :: later) host)
    (deliverable : Deliverable collation sha256 plan) :
    (answer collation sha256 plan host).decision ≠ .complete := by
  rw [progress.answer_current deliverable]
  have stops := @stops_resumeWave plan
    (observed plan (host.snapshot plan)).found
    (StagedPr.heads (host.snapshot plan)).found wave later
  generalize resumeWave plan (observed plan (host.snapshot plan)).found
    (StagedPr.heads (host.snapshot plan)).found wave later =
      decision at stops
  cases stops with
  | halted reasons => exact fun impossible => nomatch impossible
  | wait reasons none' => exact fun impossible => nomatch impossible
  | resume some' noDrift => exact fun impossible => nomatch impossible

end Progress

/-! ## Runs -/

section Runs

variable {collation : Collation} {sha256 : String → String} {plan : Plan}
  {start : Host}

/-- A delivery which never halts, and which ends when it is complete. -/
structure Driven (collation : Collation) (sha256 : String → String)
    (plan : Plan) (start : Host) : Prop where
  neverHalted : ∀ host,
    ReflTransGen (Advance collation sha256 plan) start host →
    (answer collation sha256 plan host).decision ≠ .halted
  goesOn : ∀ host,
    ReflTransGen (Advance collation sha256 plan) start host →
    (answer collation sha256 plan host).decision = .complete ∨
      ∃ after, Advance collation sha256 plan host after
  ends : Acc (flip (Advance collation sha256 plan)) start

theorem progress_of_reachable
    (deliverable : Deliverable collation sha256 plan)
    (starts : Starts plan start) {host : Host}
    (reached : ReflTransGen (Advance collation sha256 plan) start host) :
    ∃ done later, Progress plan done later host := by
  apply Transition.invariant_of_reachable _ _ reached
  · rintro host after ⟨done, later, progress⟩ advances
    exact progress.advance deliverable advances
  · exact ⟨[], plan.waves, progress_start starts⟩

theorem acc_advance (deliverable : Deliverable collation sha256 plan)
    (starts : Starts plan start) :
    Acc (flip (Advance collation sha256 plan)) start := by
  apply Transition.acc_of_bounded
    (fun host => ∃ done later, Progress plan done later host) work
    ((plan.waves.flatMap Wave.pullRequests).length * 3)
  · rintro host after ⟨done, later, progress⟩ advances
    exact progress.advance deliverable advances
  · rintro host after ⟨done, later, progress⟩ advances
    exact progress.work_lt deliverable advances
  · rintro host ⟨done, later, progress⟩
    exact progress.work_le
  · exact ⟨[], plan.waves, progress_start starts⟩

theorem driven_iff_chainedWaves
    (deliverable : Deliverable collation sha256 plan)
    (starts : Starts plan start) :
    Driven collation sha256 plan start ↔ ChainedWaves plan.waves := by
  constructor
  · intro driven
    rcases Transition.exists_end driven.ends with ⟨host, reached, ended⟩
    rcases progress_of_reachable deliverable starts reached with
      ⟨done, later, progress⟩
    rcases driven.goesOn host reached with complete | ⟨after, advances⟩
    · cases later with
      | nil =>
        rw [progress.split, List.append_nil]
        exact progress.chained
      | cons wave rest =>
        exact absurd complete (progress.not_complete deliverable)
    · exact absurd advances (ended after)
  · intro chained
    constructor
    · intro host reached
      rcases progress_of_reachable deliverable starts reached with
        ⟨done, later, progress⟩
      cases later with
      | nil =>
        rw [progress.complete deliverable]
        exact fun impossible => nomatch impossible
      | cons wave rest =>
        exact (progress.answer_chained deliverable
          (chained done wave rest progress.split)).1
    · intro host reached
      rcases progress_of_reachable deliverable starts reached with
        ⟨done, later, progress⟩
      cases later with
      | nil => exact Or.inl (progress.complete deliverable)
      | cons wave rest =>
        exact Or.inr (progress.goesOn deliverable
          (chained done wave rest progress.split))
    · exact acc_advance deliverable starts

end Runs

/-! ## Accepted plans -/

section Accepted

variable {collation : Collation} {sha256 : String → String}
  {input : PlanningInput} {plan : Plan} {waves : List (List VerifiedUnit)}

theorem Planned.wave (planned : Planned collation sha256 input plan waves)
    {wave : Wave} (member : wave ∈ plan.waves) :
    ∃ units ∈ waves, wave.pullRequests =
      units.map (pullRequestOf (normalizedPolicy input.policy)) := by
  rw [planned.body] at member
  rcases List.mem_map.mp member with ⟨⟨units, index⟩, indexed, rfl⟩
  exact ⟨units, List.fst_mem_of_mem_zipIdx indexed, rfl⟩

theorem Planned.unit (planned : Planned collation sha256 input plan waves)
    {pullRequest : PullRequest}
    (member : pullRequest ∈ plan.waves.flatMap Wave.pullRequests) :
    ∃ unit, unitReasons input.policy unit = [] ∧
      pullRequest = pullRequestOf (normalizedPolicy input.policy) unit := by
  rw [planned.pullRequests] at member
  rcases List.mem_map.mp member with ⟨unit, inside, rfl⟩
  rcases List.mem_flatten.mp inside with ⟨units, inWaves, inWave⟩
  exact ⟨unit, planned.units units inWaves unit inWave, rfl⟩

theorem Planned.deliverable
    (planned : Planned collation sha256 input plan waves)
    (merged : input.policy.advanceOn = .merged) :
    Deliverable collation sha256 plan where
  sound := planned.sound
  merged := by
    rw [planned.body]
    exact merged
  nonempty wave member := by
    rcases planned.wave member with ⟨units, inWaves, same⟩
    rw [same]
    intro empty
    exact (dependencyWavesFrom_wave planned.ordered inWaves).1
      (List.map_eq_nil_iff.mp empty)
  repositories wave member := by
    rcases planned.wave member with ⟨units, inWaves, same⟩
    rw [same, List.map_map]
    exact (dependencyWavesFrom_wave planned.ordered inWaves).2
  candidates pullRequest member := by
    rcases planned.unit member with ⟨unit, passed, rfl⟩
    rw [unitReasons] at passed
    simp only [List.append_eq_nil_iff, requires_eq_nil] at passed
    exact passed.1.1.1.1.1.1.1.1.2
  minimum pullRequest member := by
    rcases planned.unit member with ⟨unit, _, rfl⟩
    have checked := planned.checked
    rw [inputReasons] at checked
    simp only [List.append_eq_nil_iff, requires_eq_nil] at checked
    have minimum := checked.1.1.1.2
    split at minimum
    · next valid => exact valid.2
    · cases minimum
  reviewers pullRequest member := by
    rcases planned.unit member with ⟨unit, passed, rfl⟩
    have checked := planned.checked
    rw [inputReasons] at checked
    simp only [List.append_eq_nil_iff, requires_eq_nil] at checked
    rw [unitReasons] at passed
    simp only [List.append_eq_nil_iff, requires_eq_nil] at passed
    have prohibited := checked.1.1.2
    have nodup : input.policy.reviewerIds.Nodup := checked.1.1.1.1.2.2.2
    refine ⟨(independentReviewers input.policy unit.authorId).toFinset, ?_,
      ?_⟩
    · have once : (independentReviewers input.policy unit.authorId).Nodup :=
        List.filter_sublist.nodup nodup
      rw [List.toFinset_card_of_nodup once]
      exact passed.2 prohibited
    · intro reviewerId listed
      rw [List.mem_toFinset, independentReviewers, List.mem_filter,
        decide_eq_true_iff] at listed
      refine ⟨?_, listed.2⟩
      exact (List.perm_insertionSort _ _).mem_iff.mpr listed.1

/-- In the order of the waves, a unit starts where the one before it in its
repository has ended. -/
def ChainedUnits (waves : List (List VerifiedUnit)) : Prop :=
  ∀ merged wave later, waves = merged ++ wave :: later → ∀ unit ∈ wave,
    ∀ previous ∈ (merged.flatten.filter fun other =>
        decide (other.repositoryId = unit.repositoryId)).getLast?,
      previous.candidateRevision = unit.sourceRevision

/-- The units of an input are chained in the waves into which they are put. -/
def RevisionChain (collation : Collation) (input : PlanningInput) : Prop :=
  ∀ waves, dependencyWaves collation
      (intake input.policy input.units).byId.values
      input.policy.maxDraftPullRequestsPerWave = .ok waves →
    ChainedUnits waves

variable {entries : List (List VerifiedUnit × Nat)}

theorem delivered_map {policy : Policy} (repositoryId : String) :
    delivered (entries.map fun entry => waveOf policy entry.1 entry.2)
        repositoryId =
      ((entries.map Prod.fst).flatten.filter fun unit =>
        decide (unit.repositoryId = repositoryId)).map
        (pullRequestOf policy) := by
  have pullRequests : (entries.map fun entry =>
      waveOf policy entry.1 entry.2).flatMap Wave.pullRequests =
      (entries.map Prod.fst).flatten.map (pullRequestOf policy) := by
    induction entries with
    | nil => rfl
    | cons entry rest inductionHypothesis =>
      rw [List.map_cons, List.flatMap_cons, inductionHypothesis,
        List.map_cons, List.flatten_cons, List.map_append]
      rfl
  rw [delivered, pullRequests, List.filter_map]
  rfl

theorem chainedWaves_map {policy : Policy} :
    ChainedWaves (entries.map fun entry => waveOf policy entry.1 entry.2) ↔
      ChainedUnits (entries.map Prod.fst) := by
  constructor
  · intro chained merged wave later split unit inWave previous last
    rcases List.map_eq_append_iff.mp split with
      ⟨before, rest, rfl, rfl, same⟩
    rcases List.map_eq_cons_iff.mp same with
      ⟨entry, after, rfl, rfl, rfl⟩
    have at' := chained _ _ _ (List.map_append.trans (congrArg _
      List.map_cons)) (pullRequestOf policy unit)
      (List.mem_map_of_mem inWave)
    rw [ChainedAt, delivered_map, List.getLast?_map] at at'
    exact at' (pullRequestOf policy previous) (Option.mem_map_of_mem _ last)
  · intro chained merged wave later split pullRequest inWave
    rcases List.map_eq_append_iff.mp split with
      ⟨before, rest, rfl, rfl, same⟩
    rcases List.map_eq_cons_iff.mp same with
      ⟨entry, after, rfl, rfl, rfl⟩
    rcases List.mem_map.mp inWave with ⟨unit, inside, rfl⟩
    rw [ChainedAt, delivered_map, List.getLast?_map]
    intro previous last
    rcases Option.mem_map.mp last with ⟨other, isLast, rfl⟩
    exact chained _ _ _ (List.map_append.trans (congrArg _
      List.map_cons)) unit inside other isLast

theorem Planned.chainedWaves_iff
    (planned : Planned collation sha256 input plan waves) :
    ChainedWaves plan.waves ↔ RevisionChain collation input := by
  rw [planned.body]
  show ChainedWaves (waves.zipIdx.map _) ↔ _
  rw [chainedWaves_map, List.zipIdx_map_fst, RevisionChain]
  constructor
  · intro chained other ordered
    rw [planned.ordered] at ordered
    cases ordered
    exact chained
  · exact fun chained => chained waves planned.ordered

end Accepted

/-! ### Two units of one repository -/

/-- A unit from a revision to the next, and one from and to others. -/
def twoUnits (source candidate source' candidate' : Char) :
    List VerifiedUnit :=
  [unitOf "first" source candidate, unitOf "second" source' candidate']

/-- A repository is in a wave at most once. -/
def twoPlan (source candidate source' candidate' : Char) : Plan :=
  planOf (twoUnits source candidate source' candidate')
    [[unitOf "first" source candidate],
      [unitOf "second" source' candidate']]

def apiAt (digit : Char) : Host where
  heads := [{
    repositoryId := "api"
    revision := revision digit
    evidenceRefs := ["scm"] }]
  pullRequests := []

theorem starts_apiAt (source candidate source' candidate' : Char)
    (valid : isRevision (revision source)) :
    Starts (twoPlan source candidate source' candidate')
      (apiAt source) where
  unopened := rfl
  once := List.nodup_singleton _
  evidence := by
    intro head shown
    rw [List.mem_singleton.mp shown]
    exact ⟨valid, List.cons_ne_nil _ _⟩
  first := by
    intro head shown
    rw [List.mem_singleton.mp shown]
    intro start isFirst
    cases isFirst
    rfl
  all := by
    intro pullRequest member
    rcases List.mem_cons.mp member with rfl | isSecond
    · exact List.mem_singleton_self _
    · rw [List.mem_singleton.mp isSecond]
      exact List.mem_singleton_self _

/-- Two units which start at one revision, and do not depend on each other. -/
def forkedPlan : Plan :=
  twoPlan 'a' 'b' 'a' 'c'

end Mendpoint.StagedPr
