import Mendpoint.Campaign.Store
import Mendpoint.Library.Run

/-!
# Workers on a campaign

Workers claim targets in one call and start them in a later one.  What the
claim has read is not read again by the start: a run stays within the limits of
its campaigns, and starts targets in order, exactly when what a claim asks for
holds again at every start.
-/

namespace Mendpoint.Campaign

open Mendpoint.Library
open Mendpoint.Library.Attempt
open Mendpoint.Library.Fallible
open Mendpoint.Library.Run

/-! ## What the transitions change -/

variable {sha256 : String → String} {db after : CampaignDb}
  {value : WardenCampaignTarget} {tenantId campaignId : String}
  {current : WardenCampaignTarget}

theorem record_eq_ok {input : Trust.EventInput}
    (recorded : record sha256 db input = .ok after) :
    ∃ log, after = db.withLog log := by
  rw [record, bind_eq_ok] at recorded
  rcases recorded with ⟨appended, _, same⟩
  rw [pure_eq_ok] at same
  exact ⟨appended.log, same.symm⟩

theorem transitionWardenCampaign_spec {input : CampaignTransition}
    {value : WardenCampaign}
    (yields : Yields (transitionWardenCampaign sha256 input) db value after) :
    after.targets = db.targets ∧
      after.campaigns =
        Table.update input.selects input.change db.campaigns := by
  rw [transitionWardenCampaign, yields_get_bind, yields_lift_bind] at yields
  rcases yields with ⟨_, _, rest⟩
  rw [yields_transaction, yields_lift_bind] at rest
  rcases rest with ⟨current, _, rest⟩
  rw [yields_lift_bind] at rest
  rcases rest with ⟨_, _, rest⟩
  rw [yields_lift_bind] at rest
  rcases rest with ⟨_, _, rest⟩
  rw [yields_lift_bind] at rest
  rcases rest with ⟨_, _, rest⟩
  rw [yields_lift_bind] at rest
  rcases rest with ⟨changed, recorded, rest⟩
  rcases record_eq_ok recorded with ⟨log, rfl⟩
  rw [yields_bind] at rest
  rcases rest with ⟨_, middle, wrote, rest⟩
  cases wrote
  rw [yields_lift] at rest
  rcases rest with ⟨_, rfl⟩
  exact ⟨rfl, rfl⟩

theorem transitionWardenTarget_spec {input : TargetTransition}
    (yields : Yields (transitionWardenTarget sha256 input) db value after) :
    input.toStage ∈ targetTransitions input.fromStage ∧
      ∃ current,
        db.target? input.tenantId input.campaignId input.targetId =
          some current ∧
        current.revision = input.expectedRevision ∧
        current.stage = input.fromStage ∧
        input.attempts current ≤ current.maxAttempts ∧
        after.campaigns = db.campaigns ∧
        after.targets =
          Table.update input.selects (input.change current) db.targets := by
  rw [transitionWardenTarget, yields_get_bind, yields_lift_bind] at yields
  rcases yields with ⟨_, _, rest⟩
  rw [yields_lift_bind] at rest
  rcases rest with ⟨_, allowed, rest⟩
  rw [throwIf_eq_ok, not_not] at allowed
  rw [yields_lift_bind] at rest
  rcases rest with ⟨_, _, rest⟩
  rw [yields_transaction, yields_lift_bind] at rest
  rcases rest with ⟨current, found, rest⟩
  rw [demand_eq_ok] at found
  rw [yields_lift_bind] at rest
  rcases rest with ⟨_, fenced, rest⟩
  rw [throwIf_eq_ok, not_or, not_not, not_not] at fenced
  rw [yields_lift_bind] at rest
  rcases rest with ⟨_, few, rest⟩
  rw [throwIf_eq_ok, Nat.not_lt] at few
  rw [yields_lift_bind] at rest
  rcases rest with ⟨_, _, rest⟩
  rw [yields_lift_bind] at rest
  rcases rest with ⟨_, _, rest⟩
  rw [yields_lift_bind] at rest
  rcases rest with ⟨changed, recorded, rest⟩
  rcases record_eq_ok recorded with ⟨log, rfl⟩
  rw [yields_bind] at rest
  rcases rest with ⟨_, middle, wrote, rest⟩
  cases wrote
  rw [yields_lift] at rest
  rcases rest with ⟨_, rfl⟩
  exact ⟨allowed, current, found, fenced.1, fenced.2, few, rfl, rfl⟩

theorem undoes_transitionWardenCampaign (sha256 : String → String)
    (input : CampaignTransition) :
    Undoes (transitionWardenCampaign sha256 input) :=
  undoes_get_bind fun _ => undoes_lift_bind fun _ _ => undoes_transaction _

theorem undoes_transitionWardenTarget (sha256 : String → String)
    (input : TargetTransition) :
    Undoes (transitionWardenTarget sha256 input) :=
  undoes_get_bind fun _ => undoes_lift_bind fun _ _ =>
    undoes_lift_bind fun _ _ => undoes_lift_bind fun _ _ =>
      undoes_transaction _

/-! ## Workers -/

/-- The database, and the targets which claims have returned. -/
structure System where
  db : CampaignDb
  claimed : List WardenCampaignTarget

/-- The start of a claimed target, at the revision at which it was claimed. -/
structure StartCall extends EventDetails where
  packageArtifactId : Option String
  exceptionCode : Option String

def StartCall.input (call : StartCall) (target : WardenCampaignTarget) :
    TargetTransition where
  toEventDetails := call.toEventDetails
  tenantId := target.tenantId
  campaignId := target.campaignId
  targetId := target.id
  expectedRevision := target.revision
  fromStage := .queued
  toStage := .analyzing
  packageArtifactId := call.packageArtifactId
  exceptionCode := call.exceptionCode

/-- One call of a worker or of an operator. -/
inductive Action where
  | claim (tenantId campaignId : String)
  | start (place : Nat) (call : StartCall)
  | move (input : TargetTransition)
      (notStart : ¬ (input.fromStage = .queued ∧ input.toStage = .analyzing))
  | campaign (input : CampaignTransition)

/-- The state after one call; a call which throws changes nothing. -/
def step (sha256 : String → String) (system : System) : Action → System
  | .claim tenantId campaignId =>
    { system with
      claimed := system.claimed ++
        claimReadyWardenTargets system.db tenantId campaignId }
  | .start place call =>
    match system.claimed[place]? with
    | none => system
    | some target =>
      { system with
        db := (outcome
          (transitionWardenTarget sha256 (call.input target))
          system.db).2 }
  | .move input _ =>
    { system with
      db := (outcome (transitionWardenTarget sha256 input) system.db).2 }
  | .campaign input =>
    { system with
      db := (outcome (transitionWardenCampaign sha256 input)
        system.db).2 }

/-! ## The discipline -/

/-- The number of active targets of a campaign. -/
def CampaignDb.active (db : CampaignDb) (tenantId campaignId : String) :
    Nat :=
  activeCount (listWardenCampaignTargets db tenantId campaignId)

/-- No campaign has more active targets than places. -/
def WithinLimits (db : CampaignDb) : Prop :=
  ∀ campaign ∈ db.campaigns,
    db.active campaign.tenantId campaign.id ≤ campaign.concurrencyLimit

instance (db : CampaignDb) : Decidable (WithinLimits db) :=
  inferInstanceAs (Decidable (∀ campaign ∈ db.campaigns, _ ≤ _))

/-- The campaign of a target runs, and what the target needs is completed. -/
def InOrder (db : CampaignDb) (target : WardenCampaignTarget) : Prop :=
  (∃ campaign ∈ db.campaigns, campaign.id = target.campaignId ∧
    campaign.tenantId = target.tenantId ∧ campaign.status = .running) ∧
  ∀ id ∈ target.dependsOn, ∃ other ∈ db.targets, other.id = id ∧
    other.tenantId = target.tenantId ∧
    other.campaignId = target.campaignId ∧ other.stage = .completed

/-- The targets which enter `analyzing` do so in order. -/
def EnterInOrder (before after : CampaignDb) : Prop :=
  ∀ target ∈ after.targets, target.stage = .analyzing →
    (∃ old ∈ before.targets, old.id = target.id ∧ old.stage ≠ .analyzing) →
    InOrder before target

def Disciplined (sha256 : String → String) (system : System)
    (action : Action) : Prop :=
  WithinLimits (step sha256 system action).db ∧
    EnterInOrder system.db (step sha256 system action).db

/-- A claim would still return a target, and this one passes its filter. -/
def Offered (db : CampaignDb) (target : WardenCampaignTarget) : Prop :=
  claimReadyWardenTargets db target.tenantId target.campaignId ≠ [] ∧
    ∃ stored,
      db.target? target.tenantId target.campaignId target.id = some stored ∧
      isReady
        (listWardenCampaignTargets db target.tenantId target.campaignId)
        stored = true

/-- A start which goes through is one of a target which is still offered. -/
def StartsOffered (sha256 : String → String) (system : System) :
    Action → Prop
  | .start place call =>
    ∀ target, system.claimed[place]? = some target →
      (∃ value after, Yields
        (transitionWardenTarget sha256 (call.input target)) system.db value
        after) →
      Offered system.db target
  | _ => True

/-! ## Counting -/

/-- An active target of a campaign. -/
def countedIn (tenantId campaignId : String)
    (row : WardenCampaignTarget) : Bool :=
  decide (row.tenantId = tenantId ∧ row.campaignId = campaignId) &&
    row.stage.isActive

theorem active_eq_countP (db : CampaignDb) (tenantId campaignId : String) :
    db.active tenantId campaignId =
      db.targets.countP (countedIn tenantId campaignId) := by
  have permuted := Collation.ordinal.perm_sortByThen
    WardenCampaignTarget.createdAt WardenCampaignTarget.id
    (db.targets.filter fun row =>
      decide (row.tenantId = tenantId ∧ row.campaignId = campaignId))
  rw [CampaignDb.active, activeCount, listWardenCampaignTargets,
    (permuted.filter _).length_eq, List.filter_filter,
    ← List.countP_eq_length_filter]
  refine List.countP_congr fun row _ => ?_
  rw [countedIn, Bool.and_comm]

theorem mem_list {row : WardenCampaignTarget} :
    row ∈ listWardenCampaignTargets db tenantId campaignId ↔
      row ∈ db.targets ∧ row.tenantId = tenantId ∧
        row.campaignId = campaignId := by
  rw [listWardenCampaignTargets,
    (Collation.ordinal.perm_sortByThen _ _ _).mem_iff, List.mem_filter,
    decide_eq_true_eq]

theorem mem_completedIds {targets : List WardenCampaignTarget} {id : String} :
    id ∈ completedIds targets ↔
      ∃ item ∈ targets, item.stage = .completed ∧ item.id = id := by
  rw [completedIds, List.mem_map]
  constructor
  · rintro ⟨item, inside, rfl⟩
    rw [List.mem_filter, decide_eq_true_eq] at inside
    exact ⟨item, inside.1, inside.2, rfl⟩
  · rintro ⟨item, inside, completed, rfl⟩
    exact ⟨item, List.mem_filter.mpr ⟨inside, decide_eq_true completed⟩, rfl⟩

theorem isReady_iff {targets : List WardenCampaignTarget}
    {item : WardenCampaignTarget} :
    isReady targets item = true ↔
      item.stage = .queued ∧ item.attemptCount < item.maxAttempts ∧
        ∀ id ∈ item.dependsOn, id ∈ completedIds targets := by
  rw [isReady, Bool.and_eq_true, Bool.and_eq_true, decide_eq_true_eq,
    decide_eq_true_eq, List.all_eq_true, and_assoc]
  simp only [decide_eq_true_eq]

theorem target?_eq_some {id : String} {row : WardenCampaignTarget}
    (found : db.target? tenantId campaignId id = some row) :
    row ∈ db.targets ∧ row.id = id ∧ row.tenantId = tenantId ∧
      row.campaignId = campaignId := by
  have named := List.find?_some found
  rw [decide_eq_true_eq] at named
  exact ⟨List.mem_of_find?_eq_some found, named⟩

theorem campaign?_eq_some {id : String} {row : WardenCampaign} :
    db.campaign? tenantId id = some row ↔
      row ∈ db.campaigns ∧ row.id = id ∧ row.tenantId = tenantId := by
  constructor
  · intro found
    have named := List.find?_some found
    rw [decide_eq_true_eq] at named
    exact ⟨List.mem_of_find?_eq_some found, named⟩
  · rintro ⟨inside, rfl, rfl⟩
    cases found : db.campaign? row.tenantId row.id with
    | none =>
      have missing := List.find?_eq_none.mp found row inside
      rw [decide_eq_true_eq] at missing
      exact absurd ⟨rfl, rfl⟩ missing
    | some other =>
      have named := List.find?_some found
      rw [decide_eq_true_eq] at named
      rw [Table.eq_of_key db.campaignKeys
        (List.mem_of_find?_eq_some found) inside named.1]

theorem claim_ne_nil_iff :
    claimReadyWardenTargets db tenantId campaignId ≠ [] ↔
      ∃ parent, db.campaign? tenantId campaignId = some parent ∧
        parent.status = .running ∧
        db.active tenantId campaignId < parent.concurrencyLimit ∧
        ∃ item ∈ listWardenCampaignTargets db tenantId campaignId,
          isReady (listWardenCampaignTargets db tenantId campaignId) item =
            true := by
  rw [claimReadyWardenTargets]
  cases found : db.campaign? tenantId campaignId with
  | none => simp
  | some parent =>
    simp only [Option.some.injEq, exists_eq_left']
    by_cases running : parent.status = .running
    · rw [if_neg (not_not.mpr running), Ne, List.take_eq_nil_iff, not_or,
        List.filter_eq_nil_iff]
      simp only [running, true_and, not_forall, not_not, exists_prop]
      refine and_congr_left fun _ => ?_
      show ¬ parent.concurrencyLimit - db.active tenantId campaignId = 0 ↔ _
      omega
    · rw [if_pos running]
      simp [running]

/-! ## One step -/

theorem active_update {input : TargetTransition}
    (inside : current ∈ db.targets) (selected : input.selects current = true)
    (moved : after.targets = Table.update input.selects (input.change
      current) db.targets) (tenantId campaignId : String) :
    after.active tenantId campaignId +
        (countedIn tenantId campaignId current).toNat =
      db.active tenantId campaignId +
        (countedIn tenantId campaignId
          (input.change current current)).toNat := by
  rw [active_eq_countP, active_eq_countP, moved]
  refine Table.countP_update db.targetKeys ?_ inside selected _ _
  intro other chosen
  rw [TargetTransition.selects, decide_eq_true_eq] at selected chosen
  rw [chosen.1, selected.1]

theorem isActive_of_transition {source stage : WardenTargetStage}
    (allowed : stage ∈ targetTransitions source)
    (active : stage.isActive = true) :
    source.isActive = true ∨ (source = .queued ∧ stage = .analyzing) := by
  revert allowed active
  cases source
  all_goals
    cases stage
    all_goals decide

theorem queued_of_analyzing {source : WardenTargetStage}
    (allowed : .analyzing ∈ targetTransitions source) : source = .queued := by
  revert allowed
  cases source
  all_goals decide

theorem enterInOrder_of_targets {before : CampaignDb}
    (same : after.targets = before.targets) : EnterInOrder before after := by
  rintro target inside analyzing ⟨old, within, named, other⟩
  rw [same] at inside
  rw [Table.eq_of_key before.targetKeys within inside named] at other
  exact absurd analyzing other

theorem enterInOrder_of_move {input : TargetTransition}
    (inside : current ∈ db.targets) (selected : input.selects current = true)
    (moved : after.targets = Table.update input.selects (input.change
      current) db.targets)
    (starts : input.toStage = .analyzing → InOrder db current) :
    EnterInOrder db after := by
  rintro target within analyzing ⟨old, known, named, other⟩
  rw [moved] at within
  rcases Table.mem_update.mp within with
    ⟨row, stored, chosen, rfl⟩ | ⟨stored, _⟩
  · have same : row = current := by
      rw [TargetTransition.selects, decide_eq_true_eq] at selected chosen
      exact Table.eq_of_key db.targetKeys stored inside
        (chosen.1.trans selected.1.symm)
    rw [same]
    exact starts analyzing
  · rw [Table.eq_of_key db.targetKeys known stored named] at other
    exact absurd analyzing other

theorem active_le_of_move {input : TargetTransition}
    (inside : current ∈ db.targets) (selected : input.selects current = true)
    (moved : after.targets = Table.update input.selects (input.change
      current) db.targets)
    (kept : input.toStage.isActive = true → current.stage.isActive = true)
    (tenantId campaignId : String) :
    after.active tenantId campaignId ≤ db.active tenantId campaignId := by
  have counts := active_update inside selected moved tenantId campaignId
  have fewer : (countedIn tenantId campaignId
      (input.change current current)).toNat ≤
      (countedIn tenantId campaignId current).toNat := by
    apply Bool.toNat_le_toNat
    rw [countedIn, countedIn]
    show (decide (current.tenantId = tenantId ∧
        current.campaignId = campaignId) && input.toStage.isActive) = true → _
    rw [Bool.and_eq_true, Bool.and_eq_true]
    exact fun both => ⟨both.1, kept both.2⟩
  omega

theorem active_of_start {input : TargetTransition}
    (inside : current ∈ db.targets) (selected : input.selects current = true)
    (moved : after.targets = Table.update input.selects (input.change
      current) db.targets) (queued : current.stage = .queued)
    (starts : input.toStage = .analyzing) (tenantId campaignId : String) :
    after.active tenantId campaignId = db.active tenantId campaignId +
      if current.tenantId = tenantId ∧ current.campaignId = campaignId
      then 1 else 0 := by
  have counts := active_update inside selected moved tenantId campaignId
  have before : countedIn tenantId campaignId current = false := by
    rw [countedIn, queued]
    exact Bool.and_false _
  have later : countedIn tenantId campaignId (input.change current current) =
      decide (current.tenantId = tenantId ∧
        current.campaignId = campaignId) := by
    rw [countedIn]
    show (_ && input.toStage.isActive) = _
    rw [starts]
    exact Bool.and_true _
  rw [before, later] at counts
  by_cases counted : current.tenantId = tenantId ∧
    current.campaignId = campaignId
  · rw [if_pos counted]
    rw [decide_eq_true counted] at counts
    exact counts
  · rw [if_neg counted]
    rw [decide_eq_false counted] at counts
    exact counts

theorem start_spec {call : StartCall} {target : WardenCampaignTarget}
    (yields : Yields (transitionWardenTarget sha256 (call.input target)) db
      value after) :
    ∃ current ∈ db.targets,
      db.target? target.tenantId target.campaignId target.id =
        some current ∧
      current.id = target.id ∧ current.tenantId = target.tenantId ∧
      current.campaignId = target.campaignId ∧
      (call.input target).selects current = true ∧
      current.stage = .queued ∧
      current.attemptCount < current.maxAttempts ∧
      after.campaigns = db.campaigns ∧
      after.targets = Table.update (call.input target).selects
        ((call.input target).change current) db.targets := by
  rcases transitionWardenTarget_spec yields with
    ⟨_, current, found, revision, queued, few, campaigns, moved⟩
  rcases target?_eq_some found with ⟨inside, named, tenant, campaign⟩
  refine ⟨current, inside, found, named, tenant, campaign, ?_, queued, ?_,
    campaigns, moved⟩
  · rw [TargetTransition.selects, decide_eq_true_eq]
    exact ⟨named, tenant, campaign, revision, queued⟩
  · rw [TargetTransition.attempts, if_pos ⟨rfl, rfl⟩] at few
    exact few

theorem start_disciplined_iff {call : StartCall}
    {target : WardenCampaignTarget} (within : WithinLimits db)
    (yields : Yields (transitionWardenTarget sha256 (call.input target)) db
      value after) :
    WithinLimits after ∧ EnterInOrder db after ↔ Offered db target := by
  rcases start_spec yields with ⟨current, inside, found, named, tenant,
    campaign, selected, queued, few, campaigns, moved⟩
  have active := active_of_start inside selected moved queued rfl
  constructor
  · rintro ⟨limits, enters⟩
    have started : (call.input target).change current current ∈
        after.targets := by
      rw [moved]
      exact Table.mem_update.mpr (Or.inl ⟨current, inside, selected, rfl⟩)
    have ordered : InOrder db current :=
      enters ((call.input target).change current current) started rfl
        ⟨current, inside, rfl, by rw [queued]; decide⟩
    rcases ordered with ⟨⟨parent, stored, parentId, parentTenant, running⟩,
      completed⟩
    have ready : isReady
        (listWardenCampaignTargets db target.tenantId target.campaignId)
        current = true := by
      rw [isReady_iff]
      refine ⟨queued, few, fun id needed => mem_completedIds.mpr ?_⟩
      rcases completed id needed with ⟨other, present, rfl, sameTenant,
        sameCampaign, done⟩
      exact ⟨other, mem_list.mpr ⟨present, sameTenant.trans tenant,
        sameCampaign.trans campaign⟩, done, rfl⟩
    refine ⟨claim_ne_nil_iff.mpr ⟨parent, ?_, running, ?_, current,
      mem_list.mpr ⟨inside, tenant, campaign⟩, ready⟩, current, found, ready⟩
    · exact campaign?_eq_some.mpr ⟨stored, parentId.trans campaign,
        parentTenant.trans tenant⟩
    · have bound := limits parent (campaigns ▸ stored)
      rw [parentId, parentTenant, active, if_pos ⟨rfl, rfl⟩] at bound
      rw [← tenant, ← campaign]
      exact bound
  · rintro ⟨claims, stored, again, ready⟩
    cases found.symm.trans again
    rcases claim_ne_nil_iff.mp claims with ⟨parent, parentFound, running,
      free, _⟩
    rcases campaign?_eq_some.mp parentFound with ⟨parentStored, parentId,
      parentTenant⟩
    constructor
    · intro other present
      rw [campaigns] at present
      rw [active]
      by_cases counted : current.tenantId = other.tenantId ∧
        current.campaignId = other.id
      · have same : other = parent :=
          Table.eq_of_key db.campaignKeys present parentStored
            (counted.2.symm.trans (campaign.trans parentId.symm))
        rw [if_pos counted, same, parentId, parentTenant]
        exact free
      · rw [if_neg counted]
        exact within other present
    · refine enterInOrder_of_move inside selected moved fun _ => ?_
      refine ⟨⟨parent, parentStored, parentId.trans campaign.symm,
        parentTenant.trans tenant.symm, running⟩, fun id needed => ?_⟩
      rcases mem_completedIds.mp ((isReady_iff.mp ready).2.2 id needed) with
        ⟨other, listed, done, rfl⟩
      rcases mem_list.mp listed with ⟨present, sameTenant, sameCampaign⟩
      exact ⟨other, present, rfl, sameTenant.trans tenant.symm,
        sameCampaign.trans campaign.symm, done⟩

theorem move_disciplined {input : TargetTransition}
    (within : WithinLimits db)
    (notStart : ¬ (input.fromStage = .queued ∧ input.toStage = .analyzing))
    (yields : Yields (transitionWardenTarget sha256 input) db value after) :
    WithinLimits after ∧ EnterInOrder db after := by
  rcases transitionWardenTarget_spec yields with
    ⟨allowed, current, found, revision, stage, _, campaigns, moved⟩
  rcases target?_eq_some found with ⟨inside, named, tenant, campaign⟩
  have selected : input.selects current = true := by
    rw [TargetTransition.selects, decide_eq_true_eq]
    exact ⟨named, tenant, campaign, revision, stage⟩
  constructor
  · intro other present
    rw [campaigns] at present
    refine Nat.le_trans (active_le_of_move inside selected moved ?_ _ _)
      (within other present)
    intro active
    rw [stage]
    exact (isActive_of_transition allowed active).resolve_right notStart
  · refine enterInOrder_of_move inside selected moved fun analyzing => ?_
    rw [analyzing] at allowed
    exact absurd ⟨queued_of_analyzing allowed, analyzing⟩ notStart

theorem campaign_disciplined {input : CampaignTransition}
    {value : WardenCampaign} (within : WithinLimits db)
    (yields : Yields (transitionWardenCampaign sha256 input) db value after) :
    WithinLimits after ∧ EnterInOrder db after := by
  rcases transitionWardenCampaign_spec yields with ⟨targets, campaigns⟩
  refine ⟨?_, enterInOrder_of_targets targets⟩
  intro campaign present
  rw [active_eq_countP, targets, ← active_eq_countP]
  rw [campaigns] at present
  rcases Table.mem_update.mp present with
    ⟨old, stored, _, rfl⟩ | ⟨stored, _⟩
  · exact within old stored
  · exact within campaign stored

theorem disciplined_iff {system : System} (within : WithinLimits system.db)
    (action : Action) :
    Disciplined sha256 system action ↔
      StartsOffered sha256 system action := by
  have unchanged : WithinLimits system.db ∧
      EnterInOrder system.db system.db :=
    ⟨within, enterInOrder_of_targets rfl⟩
  cases action with
  | claim tenantId campaignId => exact iff_of_true unchanged trivial
  | start place call =>
    rw [Disciplined, step, StartsOffered]
    cases claimed : system.claimed[place]? with
    | none => simp [unchanged]
    | some target =>
      simp only [Option.some.injEq, forall_eq']
      rcases outcome_cases
        (undoes_transitionWardenTarget sha256 (call.input target))
        system.db with ⟨value, yields⟩ | same
      · rw [start_disciplined_iff within yields]
        exact ⟨fun offered _ => offered,
          fun offered => offered ⟨value, _, yields⟩⟩
      · rw [same]
        refine iff_of_true unchanged ?_
        rintro ⟨value, after, yields⟩
        have returned : after = system.db := by
          rw [← same, yields]
        rcases start_spec yields with ⟨current, inside, _, _, _, _,
          selected, queued, _, _, moved⟩
        have changed : (call.input target).change current current ∈
            after.targets := by
          rw [moved]
          exact Table.mem_update.mpr
            (Or.inl ⟨current, inside, selected, rfl⟩)
        rw [returned] at changed
        have equal := Table.eq_of_key system.db.targetKeys inside changed
          rfl
        rw [equal] at queued
        cases queued
  | move input notStart =>
    refine iff_of_true ?_ trivial
    rw [Disciplined, step]
    rcases outcome_cases (undoes_transitionWardenTarget sha256 input)
      system.db with ⟨value, yields⟩ | same
    · exact move_disciplined within notStart yields
    · rw [same]
      exact unchanged
  | campaign input =>
    refine iff_of_true ?_ trivial
    rw [Disciplined, step]
    rcases outcome_cases (undoes_transitionWardenCampaign sha256 input)
      system.db with ⟨value, yields⟩ | same
    · exact campaign_disciplined within yields
    · rw [same]
      exact unchanged

/-! ## A sample campaign -/

def sampleDetails (eventId createdAt : String) : EventDetails where
  actorPrincipalId := "p"
  eventId := eventId
  idempotencyKey := eventId
  correlationId := "r"
  causationId := none
  createdAt := createdAt

def sampleTarget (id createdAt : String) : WardenCampaignTarget where
  id := id
  tenantId := "t"
  campaignId := "c"
  repositoryId := id
  snapshotId := id
  packageArtifactId := none
  ownerPrincipalId := "p"
  stage := .queued
  dependsOn := []
  attemptCount := 0
  maxAttempts := 3
  exceptionCode := none
  enrollmentSource := .manual
  enrolledInstallationId := none
  revision := 1
  createdAt := createdAt
  updatedAt := createdAt

/-- A draft campaign with one place and two targets. -/
def sampleSystem : System where
  db :=
    { principals :=
        [{ id := "p", tenantId := "t", kind := .human, revokedAt := none }]
      artifactManifests := []
      campaigns :=
        [{ id := "c"
           tenantId := "t"
           name := "n"
           status := .draft
           ownerPrincipalId := "p"
           concurrencyLimit := 1
           completionPolicy := .all
           revision := 1
           createdAt := "1"
           updatedAt := "1" }]
      targets := [sampleTarget "a" "1", sampleTarget "b" "2"]
      domainEvents := []
      campaignKeys := by decide
      targetKeys := by decide }
  claimed := []

def sampleStart (place : Nat) (eventId : String) : Action :=
  .start place
    { toEventDetails := sampleDetails eventId "3"
      packageArtifactId := none
      exceptionCode := none }

/-- Target `a` is blocked after its first start, and queued again. -/
def sampleMove (eventId : String) (revision : Nat)
    (fromStage toStage : WardenTargetStage)
    (notStart : ¬ (fromStage = .queued ∧ toStage = .analyzing)) : Action :=
  .move
    { toEventDetails := sampleDetails eventId "3"
      tenantId := "t"
      campaignId := "c"
      targetId := "a"
      expectedRevision := revision
      fromStage := fromStage
      toStage := toStage
      packageArtifactId := none
      exceptionCode := none }
    notStart

def sampleRunning : Action :=
  .campaign
    { toEventDetails := sampleDetails "run" "3"
      tenantId := "t"
      campaignId := "c"
      expectedRevision := 1
      toStatus := .running }

/-- One worker claims `b` while `a` is blocked, another `a` after that. -/
def staleClaims : List Action :=
  [sampleRunning, .claim "t" "c", sampleStart 0 "first",
    sampleMove "block" 2 .analyzing .blocked (by decide), .claim "t" "c",
    sampleMove "again" 3 .blocked .queued (by decide), .claim "t" "c",
    sampleStart 2 "second"]

theorem sampleSystem_within : WithinLimits sampleSystem.db := by
  intro campaign present
  rw [List.mem_singleton.mp present]
  decide

/-! ## Runs -/

/--
From a state within the limits, every call of a run stays within them and
starts targets in order exactly when every start is of a target which is still
offered.
-/
theorem disciplined_iff_startsOffered (sha256 : String → String)
    (system : System) (within : WithinLimits system.db)
    (actions : List Action) :
    Along (step sha256) (Disciplined sha256) system actions ↔
      Along (step sha256) (StartsOffered sha256) system actions :=
  @along_iff_along _ _ _ _ _ (fun state => WithinLimits state.db)
    (fun _ _ _ disciplined => disciplined.1)
    (fun _ action holds => disciplined_iff holds action) _ within actions

theorem disciplined_sample :
    Along (step id) (Disciplined id) sampleSystem
        [sampleRunning, .claim "t" "c", sampleStart 0 "first"] ↔
      Along (step id) (StartsOffered id) sampleSystem
        [sampleRunning, .claim "t" "c", sampleStart 0 "first"] :=
  disciplined_iff_startsOffered id sampleSystem sampleSystem_within _

/-- Two workers start two targets of a campaign with one place. -/
theorem stale_claim_exceeds_limit :
    WithinLimits sampleSystem.db ∧
      (run (step id) sampleSystem
        (staleClaims ++ [sampleStart 1 "third"])).db.active "t" "c" = 2 ∧
      ¬ Along (step id) (Disciplined id) sampleSystem
        (staleClaims ++ [sampleStart 1 "third"]) := by
  refine ⟨sampleSystem_within, by decide, ?_⟩
  rw [along_append]
  rintro ⟨_, disciplined, _⟩
  have exceeded : ¬ WithinLimits (step id
      (run (step id) sampleSystem staleClaims) (sampleStart 1 "third")).db := by
    decide
  exact exceeded disciplined.1

end Mendpoint.Campaign
