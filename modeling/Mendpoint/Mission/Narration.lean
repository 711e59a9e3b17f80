import Mendpoint.Library.CanonicalJson
import Mendpoint.Library.Run
import Mendpoint.Mission.Missions

/-!
# What the writers of missions do

Each writer leaves the database as it is, creates a mission, or changes one
mission in a way which its event tells.
-/

namespace Mendpoint.Missions

open Mendpoint.Library
open Mendpoint.Library.Attempt
open Mendpoint.Library.Fallible
open Mendpoint.Mission (EventDetails MutationDispatch
  revokePendingMissionMutationDispatches)
open Mendpoint.Trust

/-! ## Rows -/

theorem mission?_eq_some {db : MissionDb} {tenantId id : String}
    {row : Mission} :
    db.mission? tenantId id = some row ↔
      row ∈ db.missions ∧ row.id = id ∧ row.tenantId = tenantId := by
  constructor
  · intro found
    have named := List.find?_some found
    rw [decide_eq_true_eq] at named
    exact ⟨List.mem_of_find?_eq_some found, named⟩
  · rintro ⟨inside, rfl, rfl⟩
    cases found : db.mission? row.tenantId row.id with
    | none =>
      have missing := List.find?_eq_none.mp found row inside
      rw [decide_eq_true_eq] at missing
      exact absurd ⟨rfl, rfl⟩ missing
    | some other =>
      have named := List.find?_some found
      rw [decide_eq_true_eq] at named
      rw [Table.eq_of_key db.missionKeys (List.mem_of_find?_eq_some found)
        inside named.1]

/-! ## The facts which events tell -/

/-- The columns of a mission which its events tell. -/
structure Facts where
  state : MissionState
  repositoryId : Option String
  snapshotId : Option String
  graphVersionId : Option String
  policyEnvelopeVersion : Option String
  fettlerCampaignId : Option String
  regaugeCampaignId : Option String

def Mission.facts (row : Mission) : Facts where
  state := row.state
  repositoryId := row.repositoryId
  snapshotId := row.snapshotId
  graphVersionId := row.graphVersionId
  policyEnvelopeVersion := row.policyEnvelopeVersion
  fettlerCampaignId := row.fettlerCampaignId
  regaugeCampaignId := row.regaugeCampaignId

/-- The facts of a mission which has been created with a scope. -/
def Facts.initial (repositoryId snapshotId : Option String) : Facts where
  state := .created
  repositoryId := repositoryId
  snapshotId := snapshotId
  graphVersionId := none
  policyEnvelopeVersion := none
  fettlerCampaignId := none
  regaugeCampaignId := none

/-- What an event changes. -/
def Facts.tell (facts : Facts) : MissionEvent → Facts
  | .created _ _ => facts
  | .transitioned _ target _ => { facts with state := target }
  | .scopeBound repositoryId snapshotId _ =>
    { facts with
      repositoryId := some repositoryId
      snapshotId := some snapshotId }
  | .graphVersionBound graphVersionId _ =>
    { facts with graphVersionId := some graphVersionId }
  | .policyEnvelopeBound version _ =>
    { facts with policyEnvelopeVersion := some version }
  | .policyEnvelopeAdvanced _ next _ _ =>
    { facts with policyEnvelopeVersion := some next }
  | .fettlerCampaignLinked campaignId =>
    { facts with fettlerCampaignId := some campaignId }
  | .regaugeCampaignLinked campaignId =>
    { facts with regaugeCampaignId := some campaignId }

namespace MissionEvent

/-- The revision which an event records. -/
def revision? : MissionEvent → Option Nat
  | created _ _ => none
  | transitioned _ _ previousRevision => some (previousRevision + 1)
  | scopeBound _ _ previousRevision => some (previousRevision + 1)
  | graphVersionBound _ previousRevision => some (previousRevision + 1)
  | policyEnvelopeBound _ previousRevision => some (previousRevision + 1)
  | policyEnvelopeAdvanced _ _ _ previousRevision =>
    some (previousRevision + 1)
  | fettlerCampaignLinked _ => none
  | regaugeCampaignLinked _ => none

/-- What a row of the log has of an event. -/
def written (told : MissionEvent) : String × Written :=
  (told.eventType, told.payload)

theorem product_text_injective {left right : MissionProduct}
    (same : left.text = right.text) : left = right := by
  cases left <;> cases right <;> first | rfl | exact absurd same (by decide)

theorem triggerKind_text_injective {left right : MissionTriggerKind}
    (same : left.text = right.text) : left = right := by
  cases left <;> cases right <;> first | rfl | exact absurd same (by decide)

theorem written_injective {left right : MissionEvent}
    (same : left.written = right.written) : left = right := by
  have sameType := congrArg Prod.fst same
  have samePayload := congrArg Prod.snd same
  cases left <;> cases right <;>
    first
    | (simp [written, eventType] at sameType; done)
    | simp only [written, payload, revised, Written.obj.injEq,
        List.cons.injEq, Prod.mk.injEq, Written.str.injEq,
        Written.int.injEq, true_and, and_true, Nat.cast_inj] at samePayload
  case created.created =>
    rw [product_text_injective samePayload.1,
      triggerKind_text_injective samePayload.2]
  case transitioned.transitioned =>
    rw [MissionState.text_injective samePayload.1,
      MissionState.text_injective samePayload.2.1, samePayload.2.2.1]
  case scopeBound.scopeBound =>
    rw [samePayload.1, samePayload.2.1, samePayload.2.2.1]
  case graphVersionBound.graphVersionBound =>
    rw [samePayload.1, samePayload.2.1]
  case policyEnvelopeBound.policyEnvelopeBound =>
    rw [samePayload.1, samePayload.2.1]
  case policyEnvelopeAdvanced.policyEnvelopeAdvanced =>
    rw [samePayload.1, samePayload.2.1, samePayload.2.2.1,
      samePayload.2.2.2.1]
  case fettlerCampaignLinked.fettlerCampaignLinked =>
    rw [samePayload]
  case regaugeCampaignLinked.regaugeCampaignLinked =>
    rw [samePayload]

end MissionEvent

/-! ## Changes which are allowed -/

/-- Both versions are numbers, and the second one is greater. -/
def Exceeds (version next : String) : Prop :=
  ∃ number ∈ NumberText.whole? version,
    ∃ nextNumber ∈ NumberText.whole? next, number < nextNumber

theorem Exceeds.trans {first second third : String}
    (early : Exceeds first second) (late : Exceeds second third) :
    Exceeds first third := by
  rcases early with ⟨number, isFirst, middle, isSecond, less⟩
  rcases late with ⟨again, isAgain, last, isThird, more⟩
  have same : middle = again := Option.mem_unique isSecond isAgain
  exact ⟨number, isFirst, last, isThird, by omega⟩

theorem Exceeds.ne {version next : String}
    (exceeds : Exceeds version next) : version ≠ next := by
  rintro rfl
  rcases exceeds with ⟨number, isFirst, other, isSecond, less⟩
  have same : number = other := Option.mem_unique isFirst isSecond
  omega

/-- The changes which the writers make to a row, by the event which tells. -/
def Allows (row : Mission) : MissionEvent → Prop
  | .created _ _ => False
  | .transitioned source target previousRevision =>
    source = row.state ∧ target ∈ row.state.transitions ∧
      previousRevision = row.revision
  | .scopeBound _ _ previousRevision =>
    (row.repositoryId = none ∧ row.snapshotId = none) ∧
      previousRevision = row.revision
  | .graphVersionBound _ previousRevision =>
    row.graphVersionId = none ∧ previousRevision = row.revision
  | .policyEnvelopeBound _ previousRevision =>
    row.policyEnvelopeVersion = none ∧ previousRevision = row.revision
  | .policyEnvelopeAdvanced version next _ previousRevision =>
    (row.state.isTerminal = false ∧
      row.policyEnvelopeVersion = some version ∧ Exceeds version next) ∧
      previousRevision = row.revision
  | .fettlerCampaignLinked _ => row.fettlerCampaignId = none
  | .regaugeCampaignLinked _ => row.regaugeCampaignId = none

/-- A row is another one with the change which an event tells. -/
structure Follows (row next : Mission) (told : MissionEvent) : Prop where
  id : next.id = row.id
  tenantId : next.tenantId = row.tenantId
  product : next.product = row.product
  triggerKind : next.triggerKind = row.triggerKind
  facts : next.facts = row.facts.tell told
  revision : next.revision =
    row.revision + if told.revision?.isSome then 1 else 0

/-- A writer has changed one row, and has appended what tells of it. -/
structure Wrote (sha256 : String → String) (db after : MissionDb)
    (row : Mission) (told : MissionEvent) : Prop where
  stored : row ∈ db.missions
  allows : Allows row told
  rows : ∃ next, Follows row next told ∧ ∀ other, other ∈ after.missions ↔
    other = next ∨ (other ∈ db.missions ∧ other.id ≠ row.id)
  recorded : ∃ details appended,
    appendDomainEvent sha256 db.principals db.domainEvents
        (event details row.tenantId row.id told) = .ok appended ∧
      after.domainEvents = appended.log
  unlinked : ∀ (link : CampaignLink) campaignId, told = link.told campaignId →
    ∀ other ∈ db.missions, other.tenantId = row.tenantId →
      link.read other ≠ some campaignId

/-! ## The steps of the writers -/

variable {tenantId missionId : String} {db after : MissionDb} {row : Mission}
  {sha256 : String → String} {change : Mission → Mission}
  {also : Mission → Bool} {value : Mission} {link : CampaignLink}
  {input : LinkCampaign}

theorem revokePending_spec {observedAt : String} {value : PUnit}
    (yields : Yields (revokePending tenantId missionId observedAt) db value
      after) : ∃ dispatches, after = { db with dispatches := dispatches } := by
  rw [revokePending, yields_get_bind, yields_lift_bind] at yields
  rcases yields with ⟨dispatches, _, written⟩
  exact ⟨dispatches, (yields_set.mp written).symm⟩

theorem readMission_spec {failure : String}
    (yields : Yields (readMission tenantId missionId failure) db row after) :
    db.mission? tenantId missionId = some row ∧ after = db := by
  rw [readMission, yields_get_bind, yields_lift] at yields
  exact ⟨demand_eq_ok.mp yields.1, yields.2.symm⟩

theorem rewriteMission_spec {selected : Mission → Bool}
    {kept : ∀ row, (change row).id = row.id} {conflict : String}
    {input : EventInput} {value : PUnit}
    (yields : Yields (rewriteMission sha256 selected change kept conflict
      input) db value after) :
    Table.changes selected db.missions = 1 ∧ ∃ appended,
      appendDomainEvent sha256 db.principals db.domainEvents input =
        .ok appended ∧
      after.missions = Table.update selected change db.missions ∧
      after.domainEvents = appended.log := by
  rw [rewriteMission, yields_get_bind, yields_lift_bind] at yields
  rcases yields with ⟨_, one, rest⟩
  rw [throwIf_eq_ok, not_not] at one
  rw [yields_lift_bind] at rest
  rcases rest with ⟨appended, isAppended, written⟩
  rw [← yields_set.mp written]
  exact ⟨one, appended, isAppended, rfl, rfl⟩

theorem mem_rewritten (found : db.mission? tenantId missionId = some row)
    (meets : also row = true) {other : Mission} :
    other ∈ Table.update (selects tenantId missionId also) change
        db.missions ↔
      other = change row ∨ (other ∈ db.missions ∧ other.id ≠ row.id) := by
  rcases mission?_eq_some.mp found with ⟨inside, named, tenant⟩
  have selected : selects tenantId missionId also row = true := by
    rw [selects, meets, Bool.and_true]
    exact decide_eq_true ⟨named, tenant⟩
  have only : ∀ one ∈ db.missions,
      selects tenantId missionId also one = true ↔ one = row :=
    fun one within =>
      Table.selected_iff db.missionKeys
        (fun chosen isChosen => by
          rw [selects, Bool.and_eq_true, decide_eq_true_eq] at isChosen
          exact isChosen.1.1.trans named.symm) inside selected within
  rw [Table.mem_update]
  constructor
  · rintro (⟨old, within, chosen, rfl⟩ | ⟨within, notChosen⟩)
    · rw [(only old within).mp chosen]
      exact Or.inl rfl
    · refine Or.inr ⟨within, fun same => ?_⟩
      rw [Table.eq_of_key db.missionKeys within inside same, selected]
        at notChosen
      cases notChosen
  · rintro (rfl | ⟨within, different⟩)
    · exact Or.inl ⟨row, inside, selected, rfl⟩
    · refine Or.inr ⟨within, eq_false_of_ne_true fun chosen => ?_⟩
      exact different (congrArg Mission.id ((only other within).mp chosen))

theorem wrote_of_rewrite {kept : ∀ row, (change row).id = row.id}
    {conflict : String} {details : EventDetails} {told : MissionEvent}
    {fenced last : MissionDb} {done : PUnit}
    (found : db.mission? tenantId missionId = some row)
    (meets : also row = true) (allows : Allows row told)
    (follows : Follows row (change row) told)
    (unlinked : ∀ (link : CampaignLink) campaignId, told = link.told
      campaignId → ∀ other ∈ db.missions, other.tenantId = tenantId →
      link.read other ≠ some campaignId)
    (isFenced : ∃ dispatches, fenced = { db with dispatches := dispatches })
    (rewritten : Yields (rewriteMission sha256 (selects tenantId missionId
      also) change kept conflict (event details tenantId missionId told))
      fenced done after)
    (reread : Yields (rereadMission tenantId missionId) after value last) :
    Wrote sha256 db last row told := by
  rcases isFenced with ⟨dispatches, rfl⟩
  rcases rewriteMission_spec rewritten with
    ⟨_, appended, isAppended, missions, log⟩
  rcases readMission_spec reread with ⟨_, rfl⟩
  rcases mission?_eq_some.mp found with ⟨inside, rfl, rfl⟩
  refine ⟨inside, allows, ⟨change row, follows, fun other => ?_⟩,
    ⟨details, appended, isAppended, log⟩, unlinked⟩
  rw [missions]
  exact mem_rewritten found meets

theorem required_eq_ok {name value result : String}
    (accepted : required name value = .ok result) :
    result = Text.trim value := by
  rw [required, requiredText, bind_eq_ok] at accepted
  rcases accepted with ⟨_, _, same⟩
  exact (pure_eq_ok.mp same).symm

/-! ## The writers -/

theorem transitionMission_spec {input : TransitionMission}
    (yields : Yields (transitionMission sha256 input) db value after) :
    ∃ row, db.mission? input.tenantId input.missionId = some row ∧
      Wrote sha256 db after row
        (.transitioned row.state input.toState row.revision) := by
  rw [transitionMission, yields_get_bind, yields_lift_bind] at yields
  rcases yields with ⟨_, _, rest⟩
  rw [yields_transaction, yields_bind] at rest
  rcases rest with ⟨row, middle, read, rest⟩
  rcases readMission_spec read with ⟨found, rfl⟩
  rw [yields_lift_bind] at rest
  rcases rest with ⟨_, revision, rest⟩
  rw [throwIf_eq_ok, not_not] at revision
  rw [yields_lift_bind] at rest
  rcases rest with ⟨_, allowed, rest⟩
  rw [throwIf_eq_ok, not_not] at allowed
  rw [yields_bind] at rest
  rcases rest with ⟨_, fenced, revoked, rest⟩
  rw [yields_bind] at rest
  rcases rest with ⟨_, written, rewritten, reread⟩
  refine ⟨row, found, wrote_of_rewrite found (decide_eq_true revision)
    ⟨rfl, allowed, rfl⟩ ⟨rfl, rfl, rfl, rfl, rfl, rfl⟩ ?_
    (revokePending_spec revoked) rewritten reread⟩
  intro link campaignId same
  cases link <;> cases same

theorem bindMissionScope_spec {input : BindScope}
    (yields : Yields (bindMissionScope sha256 input) db value after) :
    after = db ∨
      ∃ row, db.mission? input.tenantId input.missionId = some row ∧
        Wrote sha256 db after row
          (.scopeBound (Text.trim input.repositoryId)
            (Text.trim input.snapshotId) row.revision) := by
  rw [bindMissionScope, yields_get_bind, yields_lift_bind] at yields
  rcases yields with ⟨_, _, rest⟩
  rw [yields_lift_bind] at rest
  rcases rest with ⟨repositoryId, isRepository, rest⟩
  rw [yields_lift_bind] at rest
  rcases rest with ⟨snapshotId, isSnapshot, rest⟩
  rw [yields_lift_bind] at rest
  rcases rest with ⟨_, _, rest⟩
  rw [yields_lift_bind] at rest
  rcases rest with ⟨_, _, rest⟩
  rw [yields_transaction, yields_bind] at rest
  rcases rest with ⟨row, middle, read, rest⟩
  rcases readMission_spec read with ⟨found, rfl⟩
  split at rest
  · exact Or.inl (yields_pure.mp rest).2.symm
  · rw [yields_lift_bind] at rest
    rcases rest with ⟨_, unset, rest⟩
    rw [throwIf_eq_ok, not_or, not_not, not_not] at unset
    rw [yields_bind] at rest
    rcases rest with ⟨_, fenced, revoked, rest⟩
    rw [yields_bind] at rest
    rcases rest with ⟨_, written, rewritten, reread⟩
    rw [← required_eq_ok isRepository, ← required_eq_ok isSnapshot]
    refine Or.inr ⟨row, found, wrote_of_rewrite found
      (decide_eq_true ⟨rfl, unset⟩) ⟨unset, rfl⟩
      ⟨rfl, rfl, rfl, rfl, rfl, rfl⟩ ?_ (revokePending_spec revoked)
      rewritten reread⟩
    intro link campaignId same
    cases link <;> cases same

theorem ExecutionVersion.allows {column : ExecutionVersion}
    (unset : column.read row = none) (value : String) :
    Allows row (column.told value row.revision) := by
  cases column with
  | graphVersionId => exact ⟨unset, rfl⟩
  | policyEnvelopeVersion => exact ⟨unset, rfl⟩

theorem ExecutionVersion.follows (column : ExecutionVersion) (row : Mission)
    (value updatedAt : String) :
    Follows row
      (column.write value
        { row with revision := row.revision + 1, updatedAt := updatedAt })
      (column.told value row.revision) := by
  cases column with
  | graphVersionId => exact ⟨rfl, rfl, rfl, rfl, rfl, rfl⟩
  | policyEnvelopeVersion => exact ⟨rfl, rfl, rfl, rfl, rfl, rfl⟩

theorem bindMissionExecutionVersion_spec {column : ExecutionVersion}
    {input : BindVersion}
    (yields : Yields (bindMissionExecutionVersion sha256 column input) db
      value after) :
    after = db ∨
      ∃ row, db.mission? input.tenantId input.missionId = some row ∧
        Wrote sha256 db after row
          (column.told (Text.trim input.value) row.revision) := by
  rw [bindMissionExecutionVersion, yields_get_bind, yields_lift_bind]
    at yields
  rcases yields with ⟨_, _, rest⟩
  rw [yields_lift_bind] at rest
  rcases rest with ⟨bound, isBound, rest⟩
  rw [yields_transaction, yields_bind] at rest
  rcases rest with ⟨row, middle, read, rest⟩
  rcases readMission_spec read with ⟨found, rfl⟩
  split at rest
  · exact Or.inl (yields_pure.mp rest).2.symm
  · rw [yields_lift_bind] at rest
    rcases rest with ⟨_, unset, rest⟩
    rw [throwIf_eq_ok, not_not] at unset
    rw [yields_bind] at rest
    rcases rest with ⟨_, fenced, revoked, rest⟩
    rw [yields_bind] at rest
    rcases rest with ⟨_, written, rewritten, reread⟩
    rw [← required_eq_ok isBound]
    refine Or.inr ⟨row, found, wrote_of_rewrite found
      (decide_eq_true ⟨rfl, unset⟩) (column.allows unset bound)
      (column.follows row bound input.createdAt) ?_
      (revokePending_spec revoked) rewritten reread⟩
    intro link campaignId same
    cases column <;> cases link <;> cases same

theorem exceeds_of_advanceNumbers {expected next : String} {number : Int}
    (advances : advanceNumbers expected next = .ok number) :
    Exceeds expected next := by
  unfold advanceNumbers at advances
  split at advances
  · next expectedNumber nextNumber isExpected isNext =>
      split at advances
      · cases advances
      · next larger =>
          refine ⟨expectedNumber, isExpected, nextNumber, isNext, ?_⟩
          omega
  · cases advances

theorem advanceMissionPolicyEnvelopeVersion_spec {input : AdvanceVersion}
    (yields : Yields (advanceMissionPolicyEnvelopeVersion sha256 input) db
      value after) :
    after = db ∨
      ∃ row, db.mission? input.tenantId input.missionId = some row ∧
        Wrote sha256 db after row
          (.policyEnvelopeAdvanced
            (Text.trim input.expectedPolicyEnvelopeVersion)
            (Text.trim input.nextPolicyEnvelopeVersion)
            (Text.trim input.authorityRef) row.revision) := by
  rw [advanceMissionPolicyEnvelopeVersion, yields_get_bind,
    yields_lift_bind] at yields
  rcases yields with ⟨_, _, rest⟩
  rw [yields_lift_bind] at rest
  rcases rest with ⟨expected, isExpected, rest⟩
  rw [yields_lift_bind] at rest
  rcases rest with ⟨next, isNext, rest⟩
  rw [yields_lift_bind] at rest
  rcases rest with ⟨authorityRef, isAuthority, rest⟩
  rw [yields_lift_bind] at rest
  rcases rest with ⟨nextNumber, advances, rest⟩
  rw [yields_lift_bind] at rest
  rcases rest with ⟨_, _, rest⟩
  rw [yields_transaction, yields_bind] at rest
  rcases rest with ⟨row, middle, read, rest⟩
  rcases readMission_spec read with ⟨found, rfl⟩
  split at rest
  · exact Or.inl (yields_pure.mp rest).2.symm
  · rw [yields_lift_bind] at rest
    rcases rest with ⟨_, active, rest⟩
    rw [throwIf_eq_ok, Bool.not_eq_true] at active
    rw [yields_lift_bind] at rest
    rcases rest with ⟨_, current, rest⟩
    rw [throwIf_eq_ok, not_not] at current
    rw [yields_bind] at rest
    rcases rest with ⟨_, fenced, revoked, rest⟩
    rw [yields_bind] at rest
    rcases rest with ⟨_, written, rewritten, reread⟩
    rw [← required_eq_ok isExpected, ← required_eq_ok isNext,
      ← required_eq_ok isAuthority]
    refine Or.inr ⟨row, found, wrote_of_rewrite found
      (decide_eq_true ⟨rfl, current⟩)
      ⟨⟨active, current, exceeds_of_advanceNumbers advances⟩, rfl⟩
      ⟨rfl, rfl, rfl, rfl, rfl, rfl⟩ ?_ (revokePending_spec revoked)
      rewritten reread⟩
    intro link campaignId same
    cases link <;> cases same

theorem CampaignLink.allows (unset : link.read row = none)
    (campaignId : String) : Allows row (link.told campaignId) := by
  cases link with
  | fettlerCampaignId => exact unset
  | regaugeCampaignId => exact unset

theorem CampaignLink.follows (link : CampaignLink) (row : Mission)
    (campaignId updatedAt : String) :
    Follows row
      (link.write campaignId { row with updatedAt := updatedAt })
      (link.told campaignId) := by
  cases link with
  | fettlerCampaignId => exact ⟨rfl, rfl, rfl, rfl, rfl, rfl⟩
  | regaugeCampaignId => exact ⟨rfl, rfl, rfl, rfl, rfl, rfl⟩

theorem CampaignLink.told_inj {other : CampaignLink}
    {campaignId otherId : String}
    (same : link.told campaignId = other.told otherId) :
    link = other ∧ campaignId = otherId := by
  cases link <;> cases other <;> cases same <;> exact ⟨rfl, rfl⟩

theorem unset_of_changes (found : db.mission? tenantId missionId = some row)
    (one : Table.changes (selects tenantId missionId also) db.missions = 1) :
    also row = true := by
  rcases mission?_eq_some.mp found with ⟨inside, named, _⟩
  have positive : 0 < db.missions.countP (selects tenantId missionId also) := by
    rw [Table.changes] at one
    omega
  rcases List.countP_pos_iff.mp positive with ⟨other, within, chosen⟩
  rw [selects, Bool.and_eq_true, decide_eq_true_eq] at chosen
  rw [← Table.eq_of_key db.missionKeys within inside
    (chosen.1.1.trans named.symm)]
  exact chosen.2

theorem linkCampaign_spec {campaignId : String}
    (found : db.mission? input.tenantId input.missionId = some row)
    (yields : Yields (linkCampaign sha256 link input campaignId row) db
      value after) :
    after = db ∨ Wrote sha256 db after row (link.told campaignId) := by
  rw [linkCampaign, yields_get_bind] at yields
  split at yields
  · exact Or.inl (yields_pure.mp yields).2.symm
  · rw [yields_lift_bind] at yields
    rcases yields with ⟨_, _, rest⟩
    rw [yields_lift_bind] at rest
    rcases rest with ⟨_, unclaimed, rest⟩
    rw [throwIf_eq_ok] at unclaimed
    rw [yields_bind] at rest
    rcases rest with ⟨_, written, rewritten, reread⟩
    have meets := unset_of_changes found (rewriteMission_spec rewritten).1
    refine Or.inr (wrote_of_rewrite found meets
      (link.allows (of_decide_eq_true meets) campaignId)
      (link.follows row campaignId input.createdAt) ?_ ⟨db.dispatches, rfl⟩
      rewritten reread)
    intro other otherId same claimed inside ofTenant linked
    rcases CampaignLink.told_inj same with ⟨rfl, rfl⟩
    exact unclaimed ⟨claimed, inside, ofTenant, linked⟩

theorem linkFettlerCampaignToMission_spec
    (yields : Yields (linkFettlerCampaignToMission sha256 input) db value
      after) :
    after = db ∨
      ∃ row, db.mission? input.tenantId input.missionId = some row ∧
        Wrote sha256 db after row
          (CampaignLink.fettlerCampaignId.told input.campaignId) := by
  rw [linkFettlerCampaignToMission, yields_get_bind, yields_lift_bind]
    at yields
  rcases yields with ⟨_, _, rest⟩
  rw [yields_transaction, yields_bind] at rest
  rcases rest with ⟨row, middle, read, rest⟩
  rcases readMission_spec read with ⟨found, rfl⟩
  rw [yields_lift_bind] at rest
  rcases rest with ⟨_, _, rest⟩
  rw [yields_lift_bind] at rest
  rcases rest with ⟨_, _, rest⟩
  exact (linkCampaign_spec found rest).imp_right fun wrote =>
    ⟨row, found, wrote⟩

theorem linkRegaugeCampaignToMission_spec
    (yields : Yields (linkRegaugeCampaignToMission sha256 input) db value
      after) :
    after = db ∨
      ∃ row, db.mission? input.tenantId input.missionId = some row ∧
        Wrote sha256 db after row
          (CampaignLink.regaugeCampaignId.told
            (Text.trim input.campaignId)) := by
  rw [linkRegaugeCampaignToMission, yields_get_bind, yields_lift_bind]
    at yields
  rcases yields with ⟨_, _, rest⟩
  rw [yields_lift_bind] at rest
  rcases rest with ⟨regaugeCampaignId, isCampaign, rest⟩
  rw [yields_transaction, yields_bind] at rest
  rcases rest with ⟨row, middle, read, rest⟩
  rcases readMission_spec read with ⟨found, rfl⟩
  rw [yields_lift_bind] at rest
  rcases rest with ⟨_, _, rest⟩
  rw [← required_eq_ok isCampaign]
  exact (linkCampaign_spec found rest).imp_right fun wrote =>
    ⟨row, found, wrote⟩

/-- A mission has been created, with an event which tells of it. -/
structure Created (sha256 : String → String) (db after : MissionDb)
    (input : CreateMission) (objective : String) : Prop where
  fresh : ∀ row ∈ db.missions, row.id ≠ input.id
  missions : after.missions = db.missions ++ [input.mission objective]
  recorded : ∃ appended,
    appendDomainEvent sha256 db.principals db.domainEvents
        (event input.details input.tenantId input.id
          (.created input.product input.triggerKind)) = .ok appended ∧
      after.domainEvents = appended.log

theorem insertMission_spec {input : CreateMission} {objective : String}
    {value : PUnit}
    (yields : Yields (insertMission sha256 input objective) db value after) :
    Created sha256 db after input objective := by
  rw [insertMission, yields_get_bind] at yields
  split at yields
  · exact absurd yields not_yields_throw
  · next unknown =>
      rw [yields_lift_bind] at yields
      rcases yields with ⟨_, _, rest⟩
      rw [yields_lift_bind] at rest
      rcases rest with ⟨appended, isAppended, written⟩
      rw [← yields_set.mp written]
      refine ⟨fun row inside => ?_, rfl, appended, isAppended, rfl⟩
      have other := List.find?_eq_none.mp unknown row inside
      rw [decide_eq_true_eq] at other
      exact other

theorem createMission_spec {input : CreateMission}
    (yields : Yields (createMission sha256 input) db value after) :
    (after = db ∧ ∃ row ∈ db.missions, row.id = input.id) ∨
      ∃ objective, Created sha256 db after input objective := by
  rw [createMission, yields_get_bind, yields_lift_bind] at yields
  rcases yields with ⟨_, _, rest⟩
  rw [yields_lift_bind] at rest
  rcases rest with ⟨_, _, rest⟩
  rw [yields_lift_bind] at rest
  rcases rest with ⟨objective, _, rest⟩
  rw [yields_lift_bind] at rest
  rcases rest with ⟨_, _, rest⟩
  rw [yields_lift_bind] at rest
  rcases rest with ⟨_, _, rest⟩
  rw [yields_lift_bind] at rest
  rcases rest with ⟨_, _, rest⟩
  rw [yields_transaction] at rest
  split at rest
  · next existing found =>
      rw [yields_lift_bind] at rest
      rcases rest with ⟨_, _, rest⟩
      have named := List.find?_some found
      rw [decide_eq_true_eq] at named
      exact Or.inl ⟨(yields_pure.mp rest).2.symm, existing,
        List.mem_of_find?_eq_some found, named⟩
  · rw [yields_bind] at rest
    rcases rest with ⟨_, inserted, created, reread⟩
    rcases readMission_spec reread with ⟨_, rfl⟩
    exact Or.inr ⟨objective, insertMission_spec created⟩

end Mendpoint.Missions
