import Mendpoint.Mission.Narration

/-!
# The story of a mission

The events of a mission tell its row: under a hash without collisions no change
is answered by an event which is there already, so that the row and the events
stay in step in every order of the writers.
-/

namespace Mendpoint.Missions

open Mendpoint.Library
open Mendpoint.Library.Attempt
open Mendpoint.Library.Fallible
open Mendpoint.Library.Run
open Mendpoint.Mission (EventDetails)
open Mendpoint.Trust

/-! ## Stories -/

/-- The types and payloads of the events of a mission, in order. -/
def eventsOf (log : List DomainEvent) (tenantId missionId : String) :
    List (String × Written) :=
  (log.filter fun row =>
    decide (row.aggregateType = "mission" ∧ row.tenantId = tenantId ∧
      row.aggregateId = missionId)).map
    fun row => (row.eventType, row.payload)

/-- The events of a mission are a story, and the row is what it tells. -/
structure Tells (log : List DomainEvent) (row : Mission)
    (repositoryId snapshotId : Option String) (story : List MissionEvent) :
    Prop where
  events : eventsOf log row.tenantId row.id =
    (MissionEvent.created row.product row.triggerKind :: story).map
      MissionEvent.written
  revision : row.revision = 1 + (story.filterMap MissionEvent.revision?).length
  revisions : story.filterMap MissionEvent.revision? =
    List.range' 2 (story.filterMap MissionEvent.revision?).length
  facts : row.facts =
    story.foldl Facts.tell (Facts.initial repositoryId snapshotId)

/-- The column of a link among the facts. -/
def CampaignLink.ofFacts : CampaignLink → Facts → Option String
  | fettlerCampaignId => Facts.fettlerCampaignId
  | regaugeCampaignId => Facts.regaugeCampaignId

theorem CampaignLink.ofFacts_facts (link : CampaignLink) (row : Mission) :
    link.ofFacts row.facts = link.read row := by
  cases link <;> rfl

theorem linked_of_told {link : CampaignLink} {story : List MissionEvent}
    {facts : Facts}
    (linked : link.ofFacts facts ≠ none ∨
      ∃ campaignId, link.told campaignId ∈ story) :
    link.ofFacts (story.foldl Facts.tell facts) ≠ none := by
  induction story generalizing facts with
  | nil =>
    rcases linked with set_ | ⟨_, impossible⟩
    · exact set_
    · cases impossible
  | cons told rest inductionHypothesis =>
    refine inductionHypothesis ?_
    rcases linked with set_ | ⟨campaignId, member⟩
    · refine Or.inl ?_
      cases link <;> cases told <;>
        first
        | exact set_
        | exact Option.some_ne_none _
    · rcases List.mem_cons.mp member with rfl | later
      · refine Or.inl ?_
        cases link <;> exact Option.some_ne_none _
      · exact Or.inr ⟨campaignId, later⟩

variable {row : Mission} {told : MissionEvent} {log : List DomainEvent}
  {repositoryId snapshotId : Option String} {story : List MissionEvent}
  {sha256 : String → String}

theorem revision?_of_allows (allows : Allows row told) :
    told.revision? = some (row.revision + 1) ∨
      (told.revision? = none ∧ ∃ (link : CampaignLink) (campaignId : String),
        told = link.told campaignId ∧ link.read row = none) := by
  cases told with
  | created product triggerKind => exact absurd allows id
  | transitioned source target previousRevision =>
    rcases allows with ⟨_, _, rfl⟩
    exact Or.inl rfl
  | scopeBound repositoryId snapshotId previousRevision =>
    rcases allows with ⟨_, rfl⟩
    exact Or.inl rfl
  | graphVersionBound graphVersionId previousRevision =>
    rcases allows with ⟨_, rfl⟩
    exact Or.inl rfl
  | policyEnvelopeBound version previousRevision =>
    rcases allows with ⟨_, rfl⟩
    exact Or.inl rfl
  | policyEnvelopeAdvanced version next authorityRef previousRevision =>
    rcases allows with ⟨_, rfl⟩
    exact Or.inl rfl
  | fettlerCampaignLinked campaignId =>
    exact Or.inr ⟨rfl, .fettlerCampaignId, campaignId, rfl, allows⟩
  | regaugeCampaignLinked campaignId =>
    exact Or.inr ⟨rfl, .regaugeCampaignId, campaignId, rfl, allows⟩

theorem Tells.fresh (tells : Tells log row repositoryId snapshotId story)
    (allows : Allows row told) :
    told.written ∉ eventsOf log row.tenantId row.id := by
  rw [tells.events]
  intro member
  rcases List.mem_map.mp member with ⟨old, inside, same⟩
  rw [MissionEvent.written_injective same] at inside
  rcases List.mem_cons.mp inside with rfl | inside
  · exact allows
  · rcases revision?_of_allows allows with
      recorded | ⟨_, link, campaignId, rfl, unset⟩
    · have within : row.revision + 1 ∈
          story.filterMap MissionEvent.revision? :=
        List.mem_filterMap.mpr ⟨told, inside, recorded⟩
      rw [tells.revisions, List.mem_range'_1] at within
      have revision := tells.revision
      omega
    · have kept := @linked_of_told link story
        (Facts.initial repositoryId snapshotId) (Or.inr ⟨campaignId, inside⟩)
      rw [← tells.facts, link.ofFacts_facts] at kept
      exact kept unset

theorem Tells.extend {longer : List DomainEvent} {next : Mission}
    (tells : Tells log row repositoryId snapshotId story)
    (allows : Allows row told) (follows : Follows row next told)
    (events : eventsOf longer row.tenantId row.id = eventsOf log
      row.tenantId row.id ++ [told.written]) :
    Tells longer next repositoryId snapshotId (story ++ [told]) where
  events := by
    rw [follows.tenantId, follows.id, events, tells.events, follows.product,
      follows.triggerKind, ← List.cons_append, List.map_append,
      List.map_singleton]
  revision := by
    rw [follows.revision, tells.revision, List.filterMap_append,
      List.length_append]
    rcases revision?_of_allows allows with recorded | ⟨none_, _⟩
    · simp [recorded, Nat.add_assoc]
    · simp [none_]
  revisions := by
    rw [List.filterMap_append, List.length_append]
    rcases revision?_of_allows allows with recorded | ⟨none_, _⟩
    · have single : [told].filterMap MissionEvent.revision? =
          [row.revision + 1] := by
        rw [List.filterMap_cons_some recorded, List.filterMap_nil]
      rw [single, List.length_singleton, List.range'_1_concat,
        ← tells.revisions, tells.revision]
      congr 2
      omega
    · have empty : [told].filterMap MissionEvent.revision? = [] := by
        rw [List.filterMap_cons_none none_, List.filterMap_nil]
      rw [empty, List.append_nil, List.length_nil, Nat.add_zero]
      exact tells.revisions
  facts := by
    rw [follows.facts, tells.facts, List.foldl_append]
    rfl

theorem Tells.of_events {longer : List DomainEvent}
    (tells : Tells log row repositoryId snapshotId story)
    (events : eventsOf longer row.tenantId row.id = eventsOf log
      row.tenantId row.id) : Tells longer row repositoryId snapshotId story :=
  { tells with events := events.trans tells.events }

/-! ## What stays as it is -/

/-- A later row: what has been set once stays, and versions only grow. -/
structure RowLater (row next : Mission) : Prop where
  state : row.state.isTerminal = true → next.state = row.state
  scope : row.repositoryId ≠ none ∨ row.snapshotId ≠ none →
    next.repositoryId = row.repositoryId ∧ next.snapshotId = row.snapshotId
  graph : ∀ version ∈ row.graphVersionId, next.graphVersionId = some version
  policy : ∀ version ∈ row.policyEnvelopeVersion,
    ∃ other ∈ next.policyEnvelopeVersion,
      other = version ∨ Exceeds version other
  links : ∀ (link : CampaignLink), ∀ campaignId ∈ link.read row,
    link.read next = some campaignId

theorem RowLater.refl (row : Mission) : RowLater row row where
  state _ := rfl
  scope _ := ⟨rfl, rfl⟩
  graph _ inside := inside
  policy version inside := ⟨version, inside, Or.inl rfl⟩
  links _ _ inside := inside

theorem RowLater.trans {first second third : Mission}
    (early : RowLater first second) (late : RowLater second third) :
    RowLater first third where
  state terminal := by
    have same := early.state terminal
    rw [← same]
    exact late.state (same ▸ terminal)
  scope bound := by
    rcases early.scope bound with ⟨repository, snapshot⟩
    rw [← repository, ← snapshot] at bound
    rcases late.scope bound with ⟨repository', snapshot'⟩
    exact ⟨repository'.trans repository, snapshot'.trans snapshot⟩
  graph version inside := late.graph version (early.graph version inside)
  policy version inside := by
    rcases early.policy version inside with ⟨middle, there, grown⟩
    rcases late.policy middle there with ⟨last, isLast, grownAgain⟩
    refine ⟨last, isLast, ?_⟩
    rcases grown with rfl | grown
    · exact grownAgain
    · rcases grownAgain with rfl | grownAgain
      · exact Or.inr grown
      · exact Or.inr (grown.trans grownAgain)
  links link campaignId inside :=
    late.links link campaignId (early.links link campaignId inside)

theorem RowLater.of_allows {next : Mission} (allows : Allows row told)
    (follows : Follows row next told) :
    RowLater row next where
  state terminal := by
    have same : next.state = (row.facts.tell told).state :=
      congrArg Facts.state follows.facts
    rw [same]
    cases told with
    | transitioned source target previousRevision =>
      have moves := allows.2.1
      rw [MissionState.isTerminal_iff.mp terminal] at moves
      cases moves
    | _ => rfl
  scope bound := by
    have repository : next.repositoryId =
        (row.facts.tell told).repositoryId :=
      congrArg Facts.repositoryId follows.facts
    have snapshot : next.snapshotId = (row.facts.tell told).snapshotId :=
      congrArg Facts.snapshotId follows.facts
    rw [repository, snapshot]
    cases told with
    | scopeBound repositoryId snapshotId previousRevision =>
      rcases bound with bound | bound
      · exact absurd allows.1.1 bound
      · exact absurd allows.1.2 bound
    | _ => exact ⟨rfl, rfl⟩
  graph version inside := by
    have same : next.graphVersionId =
        (row.facts.tell told).graphVersionId :=
      congrArg Facts.graphVersionId follows.facts
    rw [same]
    cases told with
    | graphVersionBound graphVersionId previousRevision =>
      rw [allows.1] at inside
      cases inside
    | _ => exact inside
  policy version inside := by
    have same : next.policyEnvelopeVersion =
        (row.facts.tell told).policyEnvelopeVersion :=
      congrArg Facts.policyEnvelopeVersion follows.facts
    rw [same]
    cases told with
    | policyEnvelopeBound bound previousRevision =>
      rw [allows.1] at inside
      cases inside
    | policyEnvelopeAdvanced source advanced authorityRef previousRevision =>
      rw [allows.1.2.1] at inside
      cases inside
      exact ⟨advanced, rfl, Or.inr allows.1.2.2⟩
    | _ => exact ⟨version, inside, Or.inl rfl⟩
  links link campaignId inside := by
    rw [← link.ofFacts_facts] at inside
    rw [← link.ofFacts_facts, follows.facts]
    cases link with
    | fettlerCampaignId =>
      cases told with
      | fettlerCampaignLinked linked =>
        have unset : row.fettlerCampaignId = none := allows
        rw [CampaignLink.ofFacts, Mission.facts, unset] at inside
        cases inside
      | _ => exact inside
    | regaugeCampaignId =>
      cases told with
      | regaugeCampaignLinked linked =>
        have unset : row.regaugeCampaignId = none := allows
        rw [CampaignLink.ofFacts, Mission.facts, unset] at inside
        cases inside
      | _ => exact inside

/-- Every mission is there later on, with a later row. -/
def MissionsLater (before after : MissionDb) : Prop :=
  ∀ row ∈ before.missions, ∃ next ∈ after.missions, next.id = row.id ∧
    next.tenantId = row.tenantId ∧ RowLater row next

theorem MissionsLater.refl (db : MissionDb) : MissionsLater db db :=
  fun row inside => ⟨row, inside, rfl, rfl, .refl row⟩

theorem MissionsLater.trans {first second third : MissionDb}
    (early : MissionsLater first second)
    (late : MissionsLater second third) : MissionsLater first third := by
  intro row inside
  rcases early row inside with ⟨middle, there, id, tenant, later⟩
  rcases late middle there with ⟨last, isLast, id', tenant', laterStill⟩
  exact ⟨last, isLast, id'.trans id, tenant'.trans tenant,
    later.trans laterStill⟩

theorem Wrote.later {db after : MissionDb}
    (wrote : Wrote sha256 db after row told) : MissionsLater db after := by
  rcases wrote.rows with ⟨next, follows, rows⟩
  intro other inside
  by_cases same : other.id = row.id
  · rw [Table.eq_of_key db.missionKeys inside wrote.stored same]
    exact ⟨next, (rows next).mpr (Or.inl rfl), follows.id, follows.tenantId,
      .of_allows wrote.allows follows⟩
  · exact ⟨other, (rows other).mpr (Or.inr ⟨inside, same⟩), rfl, rfl,
      .refl other⟩

theorem Created.later {db after : MissionDb} {input : CreateMission}
    {objective : String} (created : Created sha256 db after input objective) :
    MissionsLater db after := by
  intro row inside
  refine ⟨row, ?_, rfl, rfl, .refl row⟩
  rw [created.missions]
  exact List.mem_append_left _ inside

/-! ## Logs -/

theorem eventsOf_append (log : List DomainEvent) (row : DomainEvent)
    (tenantId missionId : String) :
    eventsOf (log ++ [row]) tenantId missionId =
      eventsOf log tenantId missionId ++
        if row.aggregateType = "mission" ∧ row.tenantId = tenantId ∧
            row.aggregateId = missionId then
          [(row.eventType, row.payload)]
        else [] := by
  rw [eventsOf, eventsOf, List.filter_append, List.map_append]
  congr 1
  by_cases meets : row.aggregateType = "mission" ∧
      row.tenantId = tenantId ∧ row.aggregateId = missionId
  · rw [if_pos meets, List.filter_cons, if_pos (decide_eq_true meets)]
    rfl
  · rw [if_neg meets, List.filter_cons, decide_eq_false meets]
    rfl

theorem appended_of_fresh (collisionFree : Function.Injective sha256)
    {principals : List Principal}
    (digested : ∀ row ∈ log, row.aggregateType = "mission" →
      row.payloadSha256 = sha256 row.payload.stringify)
    {details : EventDetails} {tenantId missionId : String}
    {appended : Appended}
    (isAppended : appendDomainEvent sha256 principals log (event details
      tenantId missionId told) = .ok appended)
    (fresh : told.written ∉ eventsOf log tenantId missionId) :
    appended.log =
      log ++ [(event details tenantId missionId told).row sha256 log] := by
  rcases (appendDomainEvent_eq_ok.mp isAppended).2 with
    ⟨existing, found, same, rfl⟩ | ⟨_, _, rfl⟩
  · refine absurd ?_ fresh
    have inside := List.mem_of_find?_eq_some found
    have keyed := List.find?_some found
    rw [decide_eq_true_eq] at keyed
    rcases same with ⟨sameType, sameAggregate, sameId, _, sameDigest⟩
    rw [digested existing inside sameAggregate] at sameDigest
    have samePayload :=
      Written.stringify_injective (collisionFree sameDigest)
    refine List.mem_map.mpr ⟨existing, List.mem_filter.mpr ⟨inside, ?_⟩, ?_⟩
    · exact decide_eq_true ⟨sameAggregate, keyed.1, sameId⟩
    · rw [sameType, samePayload]
      rfl
  · rfl

/-! ## The invariant -/

/--
The rows of missions are what their events tell, from the scope of a call which
has created them, and no two missions of a tenant share a campaign.
-/
structure Narrated (sha256 : String → String)
    (creates : CreateMission → Prop) (db : MissionDb) : Prop where
  stories : ∀ row ∈ db.missions, ∃ input, creates input ∧
    input.id = row.id ∧ input.tenantId = row.tenantId ∧ ∃ story,
      Tells db.domainEvents row input.repositoryId input.snapshotId story
  known : ∀ told ∈ db.domainEvents, told.aggregateType = "mission" →
    ∃ row ∈ db.missions, row.id = told.aggregateId ∧
      row.tenantId = told.tenantId
  digested : ∀ told ∈ db.domainEvents, told.aggregateType = "mission" →
    told.payloadSha256 = sha256 told.payload.stringify
  unshared : ∀ (link : CampaignLink), ∀ left ∈ db.missions,
    ∀ right ∈ db.missions, left.tenantId = right.tenantId →
      ∀ campaignId ∈ link.read left, link.read right = some campaignId →
        left.id = right.id

section Step

variable {sha256 : String → String}
variable (collisionFree : Function.Injective sha256)
variable {creates : CreateMission → Prop} {db after : MissionDb}

include collisionFree

theorem Narrated.wrote (narrated : Narrated sha256 creates db)
    {row : Mission} {told : MissionEvent}
    (wrote : Wrote sha256 db after row told) :
    Narrated sha256 creates after := by
  rcases wrote.recorded with ⟨details, appended, isAppended, log⟩
  rcases wrote.rows with ⟨next, follows, rows⟩
  rcases narrated.stories row wrote.stored with
    ⟨input, creator, sameId, sameTenant, story, tells⟩
  rw [appended_of_fresh collisionFree narrated.digested isAppended
    (tells.fresh wrote.allows)] at log
  have isNext : next ∈ after.missions := (rows next).mpr (Or.inl rfl)
  refine ⟨fun other inside => ?_, fun event inside mission => ?_,
    fun event inside mission => ?_, ?_⟩
  · rcases (rows other).mp inside with rfl | ⟨old, different⟩
    · refine ⟨input, creator, sameId.trans follows.id.symm,
        sameTenant.trans follows.tenantId.symm, _,
        tells.extend wrote.allows follows ?_⟩
      rw [log, eventsOf_append]
      exact congrArg _ (if_pos ⟨rfl, rfl, rfl⟩)
    · rcases narrated.stories other old with
        ⟨input', creator', sameId', sameTenant', story', tells'⟩
      refine ⟨input', creator', sameId', sameTenant', story',
        tells'.of_events ?_⟩
      rw [log, eventsOf_append]
      refine (congrArg _ (if_neg fun same => ?_)).trans (List.append_nil _)
      exact different same.2.2.symm
  · rw [log, List.mem_append, List.mem_singleton] at inside
    rcases inside with old | rfl
    · rcases narrated.known event old mission with
        ⟨known, there, sameId, sameTenant⟩
      rcases wrote.later known there with ⟨last, isLast, id, tenant, _⟩
      exact ⟨last, isLast, id.trans sameId, tenant.trans sameTenant⟩
    · exact ⟨next, isNext, follows.id, follows.tenantId⟩
  · rw [log, List.mem_append, List.mem_singleton] at inside
    rcases inside with old | rfl
    · exact narrated.digested event old mission
    · rfl
  · -- A link of the changed row is its old one, or one which nobody has.
    have linked : ∀ (link : CampaignLink), ∀ campaignId ∈ link.read next,
        ∀ other ∈ db.missions, other.id ≠ row.id →
          other.tenantId = row.tenantId →
          link.read other ≠ some campaignId := by
      intro link campaignId inside other there different ofTenant same
      rw [← link.ofFacts_facts, follows.facts] at inside
      by_cases isTold : told = link.told campaignId
      · exact wrote.unlinked link campaignId isTold other there ofTenant same
      · refine different (narrated.unshared link other there row wrote.stored
          ofTenant campaignId same ?_)
        rw [← link.ofFacts_facts]
        cases link <;> cases told <;>
          first
          | exact inside
          | exact absurd (congrArg _ (Option.some.inj inside)) isTold
    intro link left leftInside right rightInside ofTenant campaignId
      isLeft isRight
    rcases (rows left).mp leftInside with rfl | ⟨leftOld, leftOther⟩
    · rcases (rows right).mp rightInside with rfl | ⟨rightOld, rightOther⟩
      · rfl
      · exact absurd isRight (linked link campaignId isLeft right rightOld
          rightOther (ofTenant.symm.trans follows.tenantId))
    · rcases (rows right).mp rightInside with rfl | ⟨rightOld, _⟩
      · exact absurd isLeft (linked link campaignId isRight left leftOld
          leftOther (ofTenant.trans follows.tenantId))
      · exact narrated.unshared link left leftOld right rightOld ofTenant
          campaignId isLeft isRight

theorem Narrated.created (narrated : Narrated sha256 creates db)
    {input : CreateMission} {objective : String}
    (created : Created sha256 db after input objective) :
    Narrated sha256 (fun other => creates other ∨ other = input) after := by
  rcases created.recorded with ⟨appended, isAppended, log⟩
  have unknown : ∀ told ∈ db.domainEvents,
      told.aggregateType = "mission" → told.aggregateId ≠ input.id := by
    intro told inside mission same
    rcases narrated.known told inside mission with ⟨row, there, sameId, _⟩
    exact created.fresh row there (sameId.trans same)
  have silent : eventsOf db.domainEvents input.tenantId input.id = [] := by
    rw [eventsOf, List.map_eq_nil_iff, List.filter_eq_nil_iff]
    intro told inside
    rw [decide_eq_true_eq]
    exact fun same => unknown told inside same.1 same.2.2
  rw [appended_of_fresh collisionFree narrated.digested isAppended
    (silent ▸ List.not_mem_nil)] at log
  have rows : ∀ row, row ∈ after.missions ↔
      row ∈ db.missions ∨ row = input.mission objective := by
    intro row
    rw [created.missions, List.mem_append, List.mem_singleton]
  refine ⟨fun row inside => ?_, fun told inside mission => ?_,
    fun told inside mission => ?_, ?_⟩
  · rcases (rows row).mp inside with old | rfl
    · rcases narrated.stories row old with
        ⟨other, creator, sameId, sameTenant, story, tells⟩
      refine ⟨other, Or.inl creator, sameId, sameTenant, story,
        tells.of_events ?_⟩
      rw [log, eventsOf_append]
      refine (congrArg _ (if_neg fun same => ?_)).trans (List.append_nil _)
      exact created.fresh row old same.2.2.symm
    · refine ⟨input, Or.inr rfl, rfl, rfl, [], ⟨?_, rfl, rfl, rfl⟩⟩
      rw [log, eventsOf_append]
      show eventsOf db.domainEvents input.tenantId input.id ++ _ = _
      rw [silent]
      exact if_pos ⟨rfl, rfl, rfl⟩
  · rw [log, List.mem_append, List.mem_singleton] at inside
    rcases inside with old | rfl
    · rcases narrated.known told old mission with
        ⟨row, there, sameId, sameTenant⟩
      exact ⟨row, (rows row).mpr (Or.inl there), sameId, sameTenant⟩
    · exact ⟨input.mission objective, (rows _).mpr (Or.inr rfl), rfl, rfl⟩
  · rw [log, List.mem_append, List.mem_singleton] at inside
    rcases inside with old | rfl
    · exact narrated.digested told old mission
    · rfl
  · intro link left leftInside right rightInside ofTenant campaignId
      isLeft isRight
    rcases (rows left).mp leftInside with leftOld | rfl
    · rcases (rows right).mp rightInside with rightOld | rfl
      · exact narrated.unshared link left leftOld right rightOld ofTenant
          campaignId isLeft isRight
      · cases link <;> cases isRight
    · cases link <;> cases isLeft

end Step

end Mendpoint.Missions
