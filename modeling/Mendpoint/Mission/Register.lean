import Mendpoint.Library.Run
import Mendpoint.Mission.Exceptions

/-!
# Chains of exceptions

Every exception is superseded at most once, by one of the same mission, and
the register blocks a mission where a head of a chain does.  A chain which has
been closed stays closed where no call reaffirms it.
-/

namespace Mendpoint.Mission.Exceptions

open Mendpoint.Library
open Mendpoint.Library.Fallible
open Mendpoint.Library.Succession (Extends Grown LinearChains)
open Mendpoint.Trust

/-! ## Chains -/

/-- An exception supersedes another one. -/
abbrev Supersedes (db : ExceptionDb) :
    MissionException → MissionException → Prop :=
  Succession.Supersedes MissionException.id (fun row => row.supersedesId)
    db.exceptions

/-- An exception is another one or a later state of its chain. -/
abbrev LaterState (db : ExceptionDb) :
    MissionException → MissionException → Prop :=
  Succession.Later MissionException.id (fun row => row.supersedesId)
    db.exceptions

/-- An exception which nothing supersedes. -/
abbrev IsHead (db : ExceptionDb) (row : MissionException) : Prop :=
  Succession.IsHead MissionException.id (fun row => row.supersedesId)
    db.exceptions row

/-- The id of a row is the digest of its content. -/
def Stored (sha256 : String → String) (row : MissionException) : Prop :=
  row.toExceptionContent.digest sha256 = row.contentDigest ∧
    row.contentDigest = row.id ∧ row.id ≠ ""

/-- A row which the register may take next. -/
structure Fits (sha256 : String → String) (rows : List MissionException)
    (row : MissionException) : Prop where
  stored : Stored sha256 row
  fresh : ∀ other ∈ rows, other.id ≠ row.id
  known : ∀ prior, row.supersedesId = some prior →
    ∃ other ∈ rows, other.id = prior ∧ other.tenantId = row.tenantId ∧
      other.missionId = row.missionId
  first : ∀ prior, row.supersedesId = some prior →
    ∀ other ∈ rows, other.tenantId = row.tenantId →
      other.supersedesId ≠ some prior

/-- What every state of the register keeps. -/
structure Kept (sha256 : String → String) (db : ExceptionDb) : Prop where
  grown : Grown MissionException.id (fun row => row.supersedesId)
    db.exceptions
  sameMission : ∀ prior row, Supersedes db prior row →
    prior.tenantId = row.tenantId ∧ prior.missionId = row.missionId
  stored : ∀ row ∈ db.exceptions, Stored sha256 row

variable {sha256 : String → String} {db : ExceptionDb}

variable {tenantId : String} {row : MissionException} {recorded : Recorded}
  {missionId key : String}

theorem exception?_eq_some {id : String}
    (found : db.exception? tenantId id = some row) :
    row ∈ db.exceptions ∧ row.id = id ∧ row.tenantId = tenantId :=
  ⟨List.mem_of_find?_eq_some found,
    of_decide_eq_true (List.find?_some found :)⟩

theorem Fits.extends (kept : Kept sha256 db)
    (fits : Fits sha256 db.exceptions row) :
    Extends MissionException.id (fun row => row.supersedesId)
      db.exceptions row where
  fresh := fits.fresh
  known prior named := by
    rcases fits.known prior named with ⟨other, member, same, _⟩
    exact ⟨other, member, same⟩
  first prior named other member also := by
    rcases fits.known prior named with ⟨target, inside, same, tenant, _⟩
    have step : Supersedes db target other :=
      ⟨inside, member, by rw [same]; exact also⟩
    exact fits.first prior named other member
      ((kept.sameMission target other step).1.symm.trans tenant) also

theorem Kept.append (kept : Kept sha256 db)
    (fits : Fits sha256 db.exceptions row) {next : ExceptionDb}
    (rows : next.exceptions = db.exceptions ++ [row]) :
    Kept sha256 next where
  grown := rows ▸ kept.grown.snoc (fits.extends kept)
  sameMission prior later step := by
    rw [Supersedes, rows] at step
    rcases kept.grown.supersedes_snoc (fits.extends kept) step with
      ⟨inside, rfl | old⟩
    · rcases fits.known prior.id step.2.2 with
        ⟨other, member, same, tenant, mission⟩
      have one := kept.grown.eq_of_key member inside same
      exact ⟨one ▸ tenant, one ▸ mission⟩
    · exact kept.sameMission prior later old
  stored other member := by
    rw [rows] at member
    rcases List.mem_append.mp member with inside | new
    · exact kept.stored other inside
    · exact List.mem_singleton.mp new ▸ fits.stored

theorem Kept.of_same (kept : Kept sha256 db) {next : ExceptionDb}
    (rows : next.exceptions = db.exceptions) : Kept sha256 next where
  grown := rows ▸ kept.grown
  sameMission := by
    rw [Supersedes, rows]
    exact kept.sameMission
  stored := rows ▸ kept.stored

/-! ## What a call does -/

theorem hydrate_eq_ok {value : MissionException} :
    hydrate sha256 row = .ok value ↔
      (row.toExceptionContent.digest sha256 = row.contentDigest ∧
        row.contentDigest = row.id) ∧ row = value := by
  rw [hydrate, bind_eq_ok]
  simp only [throwIf_eq_ok, pure_eq_ok, not_or, not_not, exists_const]

theorem checkConstraints_eq_ok {value : PUnit}
    (checked : checkConstraints db row = .ok value) :
    (∀ other ∈ db.exceptions, other.id ≠ row.id) ∧
      row.contentDigest.length = 64 := by
  rw [checkConstraints, bind_eq_ok] at checked
  rcases checked with ⟨_, fresh, checked⟩
  rw [bind_eq_ok] at checked
  rcases checked with ⟨_, long, _⟩
  rw [throwIf_eq_ok] at fresh long
  exact ⟨fun other member same => fresh ⟨other, member, same⟩,
    not_not.mp long⟩

theorem insertException_cases {input : ExceptionInput}
    (inserted : insertException sha256 db input = .ok recorded) :
    recorded.db.exceptions = db.exceptions ∨
      ∃ row, recorded.db.exceptions = db.exceptions ++ [row] ∧
        row.toExceptionContent = input.toExceptionContent ∧
        Stored sha256 row ∧
        ∀ other ∈ db.exceptions, other.id ≠ row.id := by
  rw [insertException] at inserted
  split at inserted
  · rw [bind_eq_ok] at inserted
    rcases inserted with ⟨value, _, same⟩
    cases same
    exact .inl rfl
  · rw [bind_eq_ok] at inserted
    rcases inserted with ⟨taskId, _, inserted⟩
    rw [bind_eq_ok] at inserted
    rcases inserted with ⟨category, _, inserted⟩
    rw [bind_eq_ok] at inserted
    rcases inserted with ⟨_, checked, inserted⟩
    rw [bind_eq_ok] at inserted
    rcases inserted with ⟨appended, _, inserted⟩
    rw [bind_eq_ok] at inserted
    rcases inserted with ⟨value, hydrated, same⟩
    cases same
    rcases checkConstraints_eq_ok checked with ⟨fresh, long⟩
    refine .inr ⟨_, rfl, rfl, ⟨rfl, rfl, fun empty => ?_⟩, fresh⟩
    have short : (input.toExceptionContent.digest sha256).length = 64 := long
    have none : input.toExceptionContent.digest sha256 = "" := empty
    rw [none] at short
    cases short

theorem revokeWhere_exceptions {condition : Bool} {observedAt : String}
    {fenced : ExceptionDb}
    (revoked : revokeWhere condition db tenantId missionId observedAt = .ok
      fenced) : fenced.exceptions = db.exceptions := by
  rw [revokeWhere] at revoked
  split at revoked
  · rw [bind_eq_ok] at revoked
    rcases revoked with ⟨dispatches, _, same⟩
    cases same
    rfl
  · cases revoked
    rfl

theorem raiseMissionException_cases {input : RaiseInput}
    (raised : raiseMissionException sha256 input db = .ok recorded) :
    recorded.db.exceptions = db.exceptions ∨
      ∃ row, recorded.db.exceptions = db.exceptions ++ [row] ∧
        Fits sha256 db.exceptions row ∧ row.supersedesId = none := by
  rw [raiseMissionException, bind_eq_ok] at raised
  rcases raised with ⟨reason, _, raised⟩
  rw [bind_eq_ok] at raised
  rcases raised with ⟨impact, _, raised⟩
  rw [bind_eq_ok] at raised
  rcases raised with ⟨resolutionPath, _, raised⟩
  rw [bind_eq_ok] at raised
  rcases raised with ⟨correlationId, _, raised⟩
  rw [bind_eq_ok] at raised
  rcases raised with ⟨_, _, raised⟩
  rw [bind_eq_ok] at raised
  rcases raised with ⟨_, _, raised⟩
  rw [bind_eq_ok] at raised
  rcases raised with ⟨_, _, raised⟩
  rw [bind_eq_ok] at raised
  rcases raised with ⟨bound, _, raised⟩
  dsimp only at raised
  split at raised
  · rw [bind_eq_ok] at raised
    rcases raised with ⟨value, _, same⟩
    cases same
    exact .inl rfl
  · rw [bind_eq_ok] at raised
    rcases raised with ⟨fenced, revoked, inserted⟩
    have same := revokeWhere_exceptions revoked
    rcases insertException_cases inserted with
      unchanged | ⟨row, appended, content, stored, fresh⟩
    · exact .inl (unchanged.trans same)
    · rw [same] at appended fresh
      have alone : row.supersedesId = none :=
        congrArg ExceptionContent.supersedesId content
      refine .inr ⟨row, appended, ⟨stored, fresh, ?_, ?_⟩, alone⟩
      · intro prior named
        rw [alone] at named
        cases named
      · intro prior named
        rw [alone] at named
        cases named

theorem loadHead_eq_ok {priorId : String} {prior : MissionException}
    (loaded : loadHead db tenantId priorId = .ok prior) :
    (prior ∈ db.exceptions ∧ prior.id = priorId ∧
        prior.tenantId = tenantId) ∧
      ∀ row ∈ db.exceptions, row.tenantId = tenantId →
        row.supersedesId ≠ some priorId := by
  rw [loadHead] at loaded
  split at loaded
  · cases loaded
  · next found =>
      rw [bind_eq_ok] at loaded
      rcases loaded with ⟨_, alone, same⟩
      cases same
      rw [throwIf_eq_ok] at alone
      exact ⟨exception?_eq_some found,
        fun row member tenant named => alone ⟨row, member, tenant, named⟩⟩

theorem transition_cases {input : TransitionInput}
    (moved : transition sha256 input db = .ok recorded) :
    recorded.db.exceptions = db.exceptions ∨
      ∃ row, recorded.db.exceptions = db.exceptions ++ [row] ∧
        Fits sha256 db.exceptions row ∧ row.status = input.status ∧
        row.supersedesId = some input.priorExceptionId ∧
        row.tenantId = input.tenantId := by
  rw [transition, bind_eq_ok] at moved
  rcases moved with ⟨prior, loaded, moved⟩
  rw [bind_eq_ok] at moved
  rcases moved with ⟨fenced, revoked, inserted⟩
  have same := revokeWhere_exceptions revoked
  rcases loadHead_eq_ok loaded with ⟨⟨member, named, tenant⟩, alone⟩
  rcases insertException_cases inserted with
    unchanged | ⟨row, appended, content, stored, fresh⟩
  · exact .inl (unchanged.trans same)
  · rw [same] at appended fresh
    have superseding : row.supersedesId = some input.priorExceptionId :=
      congrArg ExceptionContent.supersedesId content
    have rowTenant : row.tenantId = input.tenantId :=
      congrArg ExceptionContent.tenantId content
    have rowMission : row.missionId = (input.record prior).missionId :=
      congrArg ExceptionContent.missionId content
    refine .inr ⟨row, appended, ⟨stored, fresh, ?_, ?_⟩,
      congrArg ExceptionContent.status content, superseding, rowTenant⟩
    · intro other also
      rw [superseding, Option.some_inj] at also
      exact ⟨prior, member, named.trans also, tenant.trans rowTenant.symm,
        rowMission.symm⟩
    · intro other also row inside ofTenant
      rw [superseding, Option.some_inj] at also
      exact also ▸ alone row inside (ofTenant.trans rowTenant)

/-! ## Runs -/

inductive Call where
  | raise (input : RaiseInput)
  | resolve (input : SupersedeInput) (resolutionNote : String)
  | withdraw (input : SupersedeInput) (rationale : String)
  | reaffirm (input : SupersedeInput) (blocking : Bool)
      (observedAgainst : SnapshotIdentity)

def Call.answer (sha256 : String → String) (db : ExceptionDb) :
    Call → Except String Recorded
  | raise input => raiseMissionException sha256 input db
  | resolve input resolutionNote =>
    resolveMissionException sha256 input resolutionNote db
  | withdraw input rationale =>
    withdrawMissionException sha256 input rationale db
  | reaffirm input blocking observedAgainst =>
    reaffirmMissionException sha256 input blocking observedAgainst db

/-- A call, or a change of the tables beside the register. -/
inductive Act where
  | call (call : Call)
  | elsewhere (surroundings : Surroundings)

/-- The database behind an act; a call which fails leaves it as it is. -/
def Act.step (sha256 : String → String) (db : ExceptionDb) :
    Act → ExceptionDb
  | .call made =>
    match made.answer sha256 db with
    | .ok recorded => recorded.db
    | .error _ => db
  | .elsewhere surroundings => { db with toSurroundings := surroundings }

theorem Act.step_of_ok {made : Call}
    (answered : made.answer sha256 db = .ok recorded) :
    (Act.call made).step sha256 db = recorded.db := by
  simp only [Act.step, answered]

/-- A call does not reaffirm a resolved or withdrawn head. -/
def Call.LeavesClosed (db : ExceptionDb) : Call → Prop
  | reaffirm input _ _ =>
    ∀ row, IsHead db row → row.tenantId = input.tenantId →
      row.id = input.priorExceptionId → row.status = .opened
  | _ => True

def Act.LeavesClosed (db : ExceptionDb) : Act → Prop
  | .call made => made.LeavesClosed db
  | .elsewhere _ => True

/-- The register of a tenant before any exception. -/
def ExceptionDb.empty (surroundings : Surroundings) : ExceptionDb :=
  { surroundings with exceptions := [] }

theorem kept_empty (surroundings : Surroundings) :
    Kept sha256 (ExceptionDb.empty surroundings) where
  grown := .nil
  sameMission := by
    intro prior row step
    cases step.1
  stored := by
    intro row member
    cases member

/-- A row which a call appends, with the row which it supersedes. -/
def Call.Appends (sha256 : String → String) (call : Call) (db : ExceptionDb)
    (row : MissionException) : Prop :=
  Fits sha256 db.exceptions row ∧
    (row.status = .opened → ∀ prior, row.supersedesId = some prior →
      ∃ input blocking observedAgainst,
        call = .reaffirm input blocking observedAgainst ∧
        input.priorExceptionId = prior ∧ input.tenantId = row.tenantId)

theorem closeException_cases {status : MissionExceptionStatus}
    {eventType text : String} {input : SupersedeInput}
    (closed : closeException status eventType sha256 input text db = .ok
      recorded) :
    recorded.db.exceptions = db.exceptions ∨
      ∃ row, recorded.db.exceptions = db.exceptions ++ [row] ∧
        Fits sha256 db.exceptions row ∧ row.status = status := by
  rw [closeException, bind_eq_ok] at closed
  rcases closed with ⟨note, _, closed⟩
  rw [bind_eq_ok] at closed
  rcases closed with ⟨correlationId, _, moved⟩
  refine (transition_cases moved).imp_right ?_
  rintro ⟨row, appended, fits, same, _⟩
  exact ⟨row, appended, fits, same⟩

theorem reaffirmMissionException_cases {input : SupersedeInput}
    {blocking : Bool} {observedAgainst : SnapshotIdentity}
    (affirmed : reaffirmMissionException sha256 input blocking
      observedAgainst db = .ok recorded) :
    recorded.db.exceptions = db.exceptions ∨
      ∃ row, recorded.db.exceptions = db.exceptions ++ [row] ∧
        Fits sha256 db.exceptions row ∧
        row.supersedesId = some input.priorExceptionId ∧
        row.tenantId = input.tenantId := by
  rw [reaffirmMissionException, bind_eq_ok] at affirmed
  rcases affirmed with ⟨correlationId, _, affirmed⟩
  rw [bind_eq_ok] at affirmed
  rcases affirmed with ⟨bound, _, moved⟩
  refine (transition_cases moved).imp_right ?_
  rintro ⟨row, appended, fits, _, superseding, tenant⟩
  exact ⟨row, appended, fits, superseding, tenant⟩

theorem Call.answer_cases {call : Call}
    (answered : call.answer sha256 db = .ok recorded) :
    recorded.db.exceptions = db.exceptions ∨
      ∃ row, recorded.db.exceptions = db.exceptions ++ [row] ∧
        call.Appends sha256 db row := by
  cases call with
  | raise input =>
    refine (raiseMissionException_cases answered).imp_right ?_
    rintro ⟨row, appended, fits, alone⟩
    refine ⟨row, appended, fits, fun _ prior named => ?_⟩
    rw [alone] at named
    cases named
  | resolve input resolutionNote =>
    refine (closeException_cases answered).imp_right ?_
    rintro ⟨row, appended, fits, status⟩
    refine ⟨row, appended, fits, fun isOpen => ?_⟩
    rw [status] at isOpen
    cases isOpen
  | withdraw input rationale =>
    refine (closeException_cases answered).imp_right ?_
    rintro ⟨row, appended, fits, status⟩
    refine ⟨row, appended, fits, fun isOpen => ?_⟩
    rw [status] at isOpen
    cases isOpen
  | reaffirm input blocking observedAgainst =>
    refine (reaffirmMissionException_cases answered).imp_right ?_
    rintro ⟨row, appended, fits, superseding, tenant⟩
    refine ⟨row, appended, fits, fun _ prior named => ?_⟩
    rw [superseding, Option.some_inj] at named
    exact ⟨input, blocking, observedAgainst, rfl, named, tenant.symm⟩

theorem Act.step_cases (act : Act) (db : ExceptionDb) :
    (act.step sha256 db).exceptions = db.exceptions ∨
      ∃ call row, act = .call call ∧
        (act.step sha256 db).exceptions = db.exceptions ++ [row] ∧
        call.Appends sha256 db row := by
  cases act with
  | elsewhere surroundings => exact .inl rfl
  | call call =>
    rw [Act.step]
    cases answered : call.answer sha256 db with
    | error failure => exact .inl rfl
    | ok recorded =>
      refine (Call.answer_cases answered).imp_right ?_
      rintro ⟨row, appended, appends⟩
      exact ⟨call, row, rfl, appended, appends⟩

theorem Kept.step (kept : Kept sha256 db) (act : Act) :
    Kept sha256 (act.step sha256 db) := by
  rcases act.step_cases db with same | ⟨call, row, _, appended, fits, _⟩
  · exact kept.of_same same
  · exact kept.append fits appended

/-! ## Evaluation -/

theorem get?_setSuperseded (map : OrderedMap String String)
    (row : MissionException) (named : key ≠ "") :
    (setSuperseded map row).get? key =
      if row.supersedesId = some key then some row.id else map.get? key := by
  rw [setSuperseded]
  cases superseding : row.supersedesId with
  | none => rw [if_neg (by simp)]
  | some prior =>
    by_cases same : prior = key
    · subst same
      simp only [if_neg named, if_true, OrderedMap.get?_set_self]
    · rw [if_neg fun also => same (Option.some_inj.mp also)]
      dsimp only
      split
      · rfl
      · exact map.get?_set_of_ne row.id same

theorem truthy_foldl (rows : List MissionException)
    (named : ∀ row ∈ rows, row.id ≠ "") (keyed : key ≠ "")
    (map : OrderedMap String String) :
    truthy ((rows.foldl setSuperseded map).get? key) = true ↔
      truthy (map.get? key) = true ∨
        ∃ row ∈ rows, row.supersedesId = some key := by
  induction rows generalizing map with
  | nil => simp
  | cons first rest inductionHypothesis =>
    rw [List.foldl_cons, inductionHypothesis
      fun row member => named row (List.mem_cons_of_mem _ member)]
    rw [get?_setSuperseded map first keyed, List.exists_mem_cons_iff]
    by_cases superseding : first.supersedesId = some key
    · have marked : truthy (some first.id) = true :=
        decide_eq_true (named first List.mem_cons_self)
      simp [superseding, marked]
    · simp [superseding]

theorem truthy_supersededBy {rows : List MissionException}
    (named : ∀ row ∈ rows, row.id ≠ "") (keyed : key ≠ "") :
    truthy ((supersededBy rows).get? key) = true ↔
      ∃ row ∈ rows, row.supersedesId = some key := by
  rw [supersededBy, truthy_foldl rows named keyed, OrderedMap.get?_empty]
  simp [truthy]

theorem mem_missionRows :
    row ∈ missionRows db tenantId missionId ↔
      row ∈ db.exceptions ∧ row.tenantId = tenantId ∧
        row.missionId = missionId := by
  rw [missionRows, (Collation.ordinal.perm_sortByThen _ _ _).mem_iff,
    List.mem_filter, decide_eq_true_iff]

theorem unmarked_iff (kept : Kept sha256 db)
    (member : row ∈ missionRows db tenantId missionId) :
    truthy ((supersededBy (missionRows db tenantId missionId)).get? row.id) =
        false ↔
      IsHead db row := by
  rcases mem_missionRows.mp member with ⟨inside, tenant, mission⟩
  have named : ∀ other ∈ missionRows db tenantId missionId,
      other.id ≠ "" := fun other also =>
    (kept.stored other (mem_missionRows.mp also).1).2.2
  rw [← Bool.not_eq_true, truthy_supersededBy named (named row member)]
  constructor
  · intro alone
    refine ⟨inside, fun other also superseding => alone ⟨other, ?_,
      superseding⟩⟩
    have same := kept.sameMission row other ⟨inside, also, superseding⟩
    exact mem_missionRows.mpr
      ⟨also, same.1.symm.trans tenant, same.2.symm.trans mission⟩
  · rintro ⟨_, alone⟩ ⟨other, also, superseding⟩
    exact alone other (mem_missionRows.mp also).1 superseding

/-- An open exception which blocks in the given context. -/
def Blocks (current : Option SnapshotIdentity) (row : MissionException) :
    Prop :=
  row.status = .opened ∧ row.blocking = true ∧
    (row.observedSnapshotId = none ∨
      ∃ here, current = some here ∧
        row.observedSnapshotId = some here.snapshotId ∧
        row.observedResolvedSha = some here.resolvedSha)

theorem standingOf_eq_blocking {current : Option SnapshotIdentity} :
    standingOf row current = .blocking ↔ Blocks current row := by
  have counted : openStanding row = .blocking ↔ row.blocking = true := by
    rw [openStanding]
    cases row.blocking with
    | true => simp
    | false => simp
  rw [standingOf, Blocks]
  cases status : row.status with
  | resolved => simp
  | withdrawn => simp
  | opened =>
    cases observed : row.observedSnapshotId with
    | none => simpa using counted
    | some snapshotId =>
      cases current with
      | none => simp
      | some here =>
        have bound : (∃ given ∈ some here,
            given.snapshotId = snapshotId ∧
              some given.resolvedSha = row.observedResolvedSha) ↔
            snapshotId = here.snapshotId ∧
              row.observedResolvedSha = some here.resolvedSha := by
          simp [eq_comm]
        simp only [bound, Option.some.injEq, exists_eq_left',
          true_and, reduceCtorEq, false_or]
        by_cases given : snapshotId = here.snapshotId ∧
            row.observedResolvedSha = some here.resolvedSha
        · rw [if_pos given, counted, and_iff_left given]
        · rw [if_neg given]
          simp [given]

theorem evaluate_blocked (kept : Kept sha256 db)
    (tenantId missionId : String) (current : Option SnapshotIdentity) :
    ∃ evaluation,
      evaluateMissionExceptions sha256 db tenantId missionId current =
        .ok evaluation ∧
      (evaluation.missionBlocked = true ↔
        ∃ row, IsHead db row ∧ row.tenantId = tenantId ∧
          row.missionId = missionId ∧ Blocks current row) := by
  let rows := missionRows db tenantId missionId
  let heads := rows.filter fun row =>
    !truthy ((supersededBy rows).get? row.id)
  let views := heads.map fun row =>
    row.view current ((supersededBy rows).get? row.id)
  have viewed : (heads.mapM fun row => do
      let value ← hydrate sha256 row
      return value.view current ((supersededBy rows).get? row.id)) =
      .ok views := by
    rw [mapM_eq_ok, List.forall₂_map_right_iff, List.forall₂_same]
    intro row member
    have stored := kept.stored row
      (mem_missionRows.mp (List.mem_filter.mp member).1).1
    rw [hydrate_eq_ok.mpr ⟨⟨stored.1, stored.2.1⟩, rfl⟩]
    rfl
  refine ⟨_, by rw [evaluateMissionExceptions, viewed]; rfl, ?_⟩
  rw [decide_eq_true_iff, List.length_filter_pos_iff]
  constructor
  · rintro ⟨view, member, standing⟩
    rcases List.mem_map.mp member with ⟨row, isHead, rfl⟩
    rw [List.mem_filter, Bool.not_eq_true'] at isHead
    rcases mem_missionRows.mp isHead.1 with ⟨_, tenant, mission⟩
    exact ⟨row, (unmarked_iff kept isHead.1).mp isHead.2, tenant, mission,
      standingOf_eq_blocking.mp (of_decide_eq_true standing)⟩
  · rintro ⟨row, isHead, tenant, mission, blocks⟩
    have member : row ∈ rows :=
      mem_missionRows.mpr ⟨isHead.1, tenant, mission⟩
    refine ⟨row.view current ((supersededBy rows).get? row.id),
      List.mem_map_of_mem (List.mem_filter.mpr ⟨member, ?_⟩),
      decide_eq_true (standingOf_eq_blocking.mpr blocks)⟩
    rw [Bool.not_eq_true']
    exact (unmarked_iff kept member).mpr isHead

/-! ## Closed chains -/

/-- No open exception supersedes a closed one. -/
def StaysClosed (db : ExceptionDb) : Prop :=
  ∀ prior row, Supersedes db prior row → prior.status ≠ .opened →
    row.status ≠ .opened

theorem StaysClosed.later (closed : StaysClosed db)
    {row later : MissionException} (follows : LaterState db row later)
    (isClosed : row.status ≠ .opened) : later.status ≠ .opened :=
  Succession.Later.carries closed follows isClosed

theorem StaysClosed.step (kept : Kept sha256 db) (closed : StaysClosed db)
    {act : Act} (leaves : act.LeavesClosed db) :
    StaysClosed (act.step sha256 db) := by
  rcases act.step_cases db with
    same | ⟨call, row, rfl, appended, fits, affirmed⟩
  · rw [StaysClosed, Supersedes, same]
    exact closed
  · intro prior later step isClosed isOpen
    rw [Supersedes, appended] at step
    rcases kept.grown.supersedes_snoc (fits.extends kept) step with
      ⟨inside, rfl | old⟩
    · rcases affirmed isOpen prior.id step.2.2 with
        ⟨input, blocking, observedAgainst, rfl, named, tenant⟩
      rcases fits.known prior.id step.2.2 with ⟨other, member, same, also, _⟩
      have one := kept.grown.eq_of_key member inside same
      subst one
      refine isClosed (leaves other ⟨inside, ?_⟩ (also.trans tenant.symm)
        named.symm)
      exact (fits.extends kept).first other.id step.2.2
    · exact closed prior later old isClosed isOpen

theorem Act.kept_by_step (act : Act) (db : ExceptionDb) :
    db.exceptions <+: (act.step sha256 db).exceptions := by
  rcases act.step_cases db with same | ⟨call, row, _, appended, _⟩
  · rw [same]
  · rw [appended]
    exact List.prefix_append _ _

theorem kept_along_run (acts : List Act) (db : ExceptionDb) :
    db.exceptions <+: (Run.run (Act.step sha256) db acts).exceptions :=
  @Run.run_invariant _ _ _
    (fun after => db.exceptions <+: after.exceptions)
    (fun after act grown => grown.trans (act.kept_by_step after))
    db (List.prefix_refl _) acts

variable (sha256) in
/-- The state behind acts, from a register without exceptions. -/
def register (surroundings : Surroundings) (acts : List Act) : ExceptionDb :=
  Run.run (Act.step sha256) (ExceptionDb.empty surroundings) acts

theorem kept_register (surroundings : Surroundings) (acts : List Act) :
    Kept sha256 (register sha256 surroundings acts) :=
  Run.run_invariant (fun _ act kept => kept.step act)
    (kept_empty surroundings) acts

theorem staysClosed_register (surroundings : Surroundings)
    {acts : List Act}
    (leaves : Run.Along (Act.step sha256) (fun db act => act.LeavesClosed db)
      (ExceptionDb.empty surroundings) acts) :
    StaysClosed (register sha256 surroundings acts) := by
  refine (@Run.run_along_invariant _ _ _ _
    (fun db => Kept sha256 db ∧ StaysClosed db) ?_ _ ?_ _ leaves).2
  · rintro db act ⟨kept, closed⟩ here
    exact ⟨kept.step act, closed.step kept here⟩
  · refine ⟨kept_empty surroundings, ?_⟩
    intro prior row step
    cases step.1

/--
Exceptions form lines within their missions, and the register blocks a mission
where a head of it does.  What was closed stays closed in every run in which
no call reaffirms a closed head.
-/
theorem register_keeps_closed (sha256 : String → String)
    (surroundings : Surroundings) (earlier later : List Act) :
    let db := register sha256 surroundings (earlier ++ later)
    LinearChains MissionException.id (fun row => row.supersedesId)
        db.exceptions ∧
      (∀ prior row, Supersedes db prior row →
        prior.tenantId = row.tenantId ∧ prior.missionId = row.missionId) ∧
      (∀ tenantId missionId current, ∃ evaluation,
        evaluateMissionExceptions sha256 db tenantId missionId current =
          .ok evaluation ∧
        (evaluation.missionBlocked = true ↔
          ∃ row, IsHead db row ∧ row.tenantId = tenantId ∧
            row.missionId = missionId ∧ Blocks current row)) ∧
      (Run.Along (Act.step sha256) (fun db act => act.LeavesClosed db)
          (ExceptionDb.empty surroundings) (earlier ++ later) →
        ∀ row ∈ (register sha256 surroundings earlier).exceptions,
          row.status ≠ .opened →
            row ∈ db.exceptions ∧
            ∀ other, LaterState db row other → other.status ≠ .opened) := by
  have kept := @kept_register sha256 surroundings
    (earlier ++ later)
  refine ⟨kept.grown.linearChains, kept.sameMission,
    evaluate_blocked kept, fun leaves row member isClosed => ?_⟩
  refine ⟨?_, fun other follows =>
    (staysClosed_register surroundings leaves).later follows isClosed⟩
  rw [register, Run.run_append]
  exact (kept_along_run later _).subset member

/-! ## A resolution which is reaffirmed -/

theorem insertException_of_fresh {input : ExceptionInput} {digest : String}
    (known : input.toExceptionContent.digest sha256 = digest)
    (unseen : db.exception? input.tenantId digest = none)
    {taskId category : Option String}
    (taskRead : normalizeTaskId input.taskId = .ok taskId)
    (categoryRead : normalizeExceptionCategory input.category = .ok category)
    {row : MissionException}
    (asked : row =
      { toExceptionContent := input.toExceptionContent
        id := digest
        contentDigest := digest
        taskId := taskId
        category := category })
    (allowed : checkConstraints db row = .ok ()) {appended : Appended}
    (told : appendDomainEvent sha256 db.principals db.domainEvents
      (input.event digest) = .ok appended) :
    insertException sha256 db input =
      .ok
        { exception := row
          db :=
            { db with
              domainEvents := appended.log
              exceptions := db.exceptions ++ [row] } } := by
  subst known asked
  rw [insertException]
  dsimp only
  rw [unseen]
  refine bind_eq_ok.mpr ⟨taskId, taskRead, bind_eq_ok.mpr
    ⟨category, categoryRead, bind_eq_ok.mpr ⟨⟨⟩, allowed, bind_eq_ok.mpr
      ⟨appended, told, bind_eq_ok.mpr ⟨_, ?_, rfl⟩⟩⟩⟩⟩
  exact hydrate_eq_ok.mpr ⟨⟨rfl, rfl⟩, rfl⟩

def sampleWorld : Surroundings where
  principals := [{ id := "p1", tenantId := "acme", kind := .human
                   revokedAt := none }]
  missions := [{ id := "m1", tenantId := "acme" }]
  repositorySnapshots := [{ snapshotId := "s1", resolvedSha := "c1"
                            tenantId := "acme" }]
  dispatches := []
  domainEvents := []

/-- A text of the width of a digest. -/
def wideText (char : Char) : String :=
  String.ofList (List.replicate 64 char)

def sampleRaised : ExceptionContent where
  tenantId := "acme"
  missionId := "m1"
  reason := "r"
  impact := "i"
  ownerPrincipalId := "p1"
  resolutionPath := "w"
  blocking := true
  status := .opened
  observedSnapshotId := none
  observedResolvedSha := none
  supersedesId := none
  createdAt := "2026-01-01T00:00:00.000Z"

def sampleResolved : ExceptionContent :=
  { sampleRaised with
    resolutionPath := "n"
    blocking := false
    status := .resolved
    supersedesId := some (wideText 'a')
    createdAt := "2026-01-02T00:00:00.000Z" }

def sampleReaffirmed : ExceptionContent :=
  { sampleResolved with
    blocking := true
    status := .opened
    observedSnapshotId := some "s1"
    observedResolvedSha := some "c1"
    supersedesId := some (wideText 'b') }

/-- A digest which tells the three contents apart. -/
def sampleSha256 (text : String) : String :=
  if text = (exceptionDigestBody sampleRaised).canonical then wideText 'a'
  else if text = (exceptionDigestBody sampleResolved).canonical then
    wideText 'b'
  else wideText 'c'

theorem digest_sampleRaised :
    sampleRaised.digest sampleSha256 = wideText 'a' := by
  rw [ExceptionContent.digest, contentDigest, sampleSha256, if_pos rfl]

theorem digest_sampleResolved :
    sampleResolved.digest sampleSha256 = wideText 'b' := by
  have different : (exceptionDigestBody sampleResolved).canonical ≠
      (exceptionDigestBody sampleRaised).canonical := fun same =>
    absurd (String.ofList_injective same) (by decide)
  rw [ExceptionContent.digest, contentDigest, sampleSha256,
    if_neg different, if_pos rfl]

theorem digest_sampleReaffirmed :
    sampleReaffirmed.digest sampleSha256 = wideText 'c' := by
  have first : (exceptionDigestBody sampleReaffirmed).canonical ≠
      (exceptionDigestBody sampleRaised).canonical := fun same =>
    absurd (String.ofList_injective same) (by decide)
  have second : (exceptionDigestBody sampleReaffirmed).canonical ≠
      (exceptionDigestBody sampleResolved).canonical := fun same =>
    absurd (String.ofList_injective same) (by decide)
  rw [ExceptionContent.digest, contentDigest, sampleSha256,
    if_neg first, if_neg second]

attribute [irreducible] sampleSha256

/-- The row of a content under an id, without further annotations. -/
def plainRow (content : ExceptionContent) (id : String) :
    MissionException where
  toExceptionContent := content
  id := id
  contentDigest := id
  taskId := none
  category := none

/-- The sample tables with rows and events. -/
def sampleDb (exceptions : List MissionException)
    (domainEvents : List DomainEvent) : ExceptionDb :=
  { sampleWorld with
    exceptions := exceptions
    domainEvents := domainEvents }

/-- A call of the sample, and what inserts its row. -/
def sampleInput (content : ExceptionContent) (eventType : String) :
    ExceptionInput where
  toExceptionContent := content
  eventType := eventType
  actorPrincipalId := "p1"
  correlationId := "c"
  causationId := none
  taskId := none
  category := none

def sampleRaise : RaiseInput where
  tenantId := "acme"
  missionId := "m1"
  reason := "r"
  impact := "i"
  ownerPrincipalId := "p1"
  resolutionPath := "w"
  blocking := true
  observedAgainst := none
  correlationId := "c"
  causationId := none
  createdAt := "2026-01-01T00:00:00.000Z"
  taskId := none
  category := none

def sampleSupersede (char : Char) : SupersedeInput where
  tenantId := "acme"
  priorExceptionId := wideText char
  actorPrincipalId := "p1"
  correlationId := "c"
  causationId := none
  createdAt := "2026-01-02T00:00:00.000Z"

/-- The events of the sample behind others. -/
def sampleEvents (events : List DomainEvent) (content : ExceptionContent)
    (eventType digest : String) : List DomainEvent :=
  events ++ [((sampleInput content eventType).event digest).row sampleSha256
    events]

def raisedEvents : List DomainEvent :=
  sampleEvents [] sampleRaised "mission.exception_raised" (wideText 'a')

def resolvedEvents : List DomainEvent :=
  sampleEvents raisedEvents sampleResolved "mission.exception_resolved"
    (wideText 'b')

def reaffirmedEvents : List DomainEvent :=
  sampleEvents resolvedEvents sampleReaffirmed
    "mission.exception_reaffirmed" (wideText 'c')

def raisedRow : MissionException :=
  plainRow sampleRaised (wideText 'a')

def resolvedRow : MissionException :=
  plainRow sampleResolved (wideText 'b')

def reaffirmedRow : MissionException :=
  plainRow sampleReaffirmed (wideText 'c')

/-- No event has the id and the key of the row under a digest. -/
def Untold (digest : String) (events : List DomainEvent) : Prop :=
  ∀ event ∈ events, event.idempotencyKey ≠ "mission-exception:" ++ digest ∧
    event.id ≠ "mission-exception:" ++ digest

theorem untold_nil (digest : String) : Untold digest [] := by
  intro event member
  cases member

theorem Untold.sampleEvents {digest other eventType : String}
    {events : List DomainEvent} (untold : Untold digest events)
    (content : ExceptionContent) (different : other ≠ digest) :
    Untold digest (sampleEvents events content eventType other) := by
  intro event member
  rcases List.mem_append.mp member with before | new
  · exact untold event before
  · rw [List.mem_singleton.mp new]
    have keys : "mission-exception:" ++ other ≠
        "mission-exception:" ++ digest := fun same =>
      different ((String.append_right_inj _).mp same)
    exact ⟨keys, keys⟩

theorem insert_sample {rows : List MissionException}
    {events : List DomainEvent} {content : ExceptionContent}
    {eventType digest : String}
    (known : content.digest sampleSha256 = digest)
    (tenant : content.tenantId = "acme")
    (unseen : ∀ row ∈ rows, row.id ≠ digest)
    (allowed : checkConstraints (sampleDb rows events)
      (plainRow content digest) = .ok ())
    (untold : Untold digest events) :
    insertException sampleSha256 (sampleDb rows events)
        (sampleInput content eventType) =
      .ok
        { exception := plainRow content digest
          db := sampleDb (rows ++ [plainRow content digest])
            (sampleEvents events content eventType digest) } := by
  have missing : (sampleDb rows events).exception? content.tenantId digest =
      none := by
    refine List.find?_eq_none.mpr fun row member found => ?_
    exact unseen row member (of_decide_eq_true found).1
  have noEvent : eventByKey events content.tenantId
      ("mission-exception:" ++ digest) = none := by
    refine List.find?_eq_none.mpr fun event member found => ?_
    exact (untold event member).1 (of_decide_eq_true found).2
  let told := (sampleInput content eventType).event digest
  have appended : appendDomainEvent sampleSha256 sampleWorld.principals
      events told =
      .ok
        { row := told.row sampleSha256 events
          inserted := true
          log := events ++ [told.row sampleSha256 events] } := by
    refine appendDomainEvent_eq_ok.mpr ⟨⟨_, List.mem_singleton_self _, rfl,
      tenant.symm⟩, .inr ⟨noEvent, fun event member => (untold event member).2, rfl⟩⟩
  exact @insertException_of_fresh _ _ (sampleInput content eventType) _ known
    missing none none rfl rfl (plainRow content digest) rfl allowed _ appended

theorem raise_sample :
    raiseMissionException sampleSha256 sampleRaise
        (ExceptionDb.empty sampleWorld) =
      .ok
        { exception := raisedRow
          db := sampleDb [raisedRow] raisedEvents } := by
  have scope : assertMissionScope sampleWorld "acme" "m1" = .ok () := by
    decide
  have owner : assertRecordPrincipal sampleWorld "acme" "p1"
      "mission_exception_owner_tenant_mismatch" = .ok () := by
    decide
  have inserted : insertException sampleSha256 (sampleDb [] [])
      (sampleInput sampleRaised "mission.exception_raised") = _ :=
    insert_sample digest_sampleRaised rfl (by decide) (by decide)
      (untold_nil _)
  rw [raiseMissionException]
  refine bind_eq_ok.mpr ⟨"r", by decide, bind_eq_ok.mpr
    ⟨"i", by decide, bind_eq_ok.mpr ⟨"w", by decide,
      bind_eq_ok.mpr ⟨"c", by decide, bind_eq_ok.mpr
        ⟨"2026-01-01T00:00:00.000Z", by decide, bind_eq_ok.mpr
          ⟨(), scope, bind_eq_ok.mpr ⟨(), owner, bind_eq_ok.mpr
            ⟨none, rfl, ?_⟩⟩⟩⟩⟩⟩⟩⟩
  dsimp only
  rw [show ∀ digest, (ExceptionDb.empty sampleWorld).exception?
    sampleRaise.tenantId digest = none from fun _ => rfl]
  exact bind_eq_ok.mpr ⟨sampleDb [] [], rfl, inserted⟩

theorem transition_sample {rows : List MissionException}
    {events : List DomainEvent} {prior : MissionException}
    {input : TransitionInput} {content : ExceptionContent} {digest : String}
    (loaded : loadHead (sampleDb rows events) input.tenantId
      input.priorExceptionId = .ok prior)
    (asked : input.record prior = sampleInput content input.eventType)
    (known : content.digest sampleSha256 = digest)
    (tenant : content.tenantId = "acme")
    (unseen : ∀ row ∈ rows, row.id ≠ digest)
    (allowed : checkConstraints (sampleDb rows events)
      (plainRow content digest) = .ok ())
    (untold : Untold digest events) :
    transition sampleSha256 input (sampleDb rows events) =
      .ok
        { exception := plainRow content digest
          db := sampleDb (rows ++ [plainRow content digest])
            (sampleEvents events content input.eventType digest) } := by
  have unfenced : ∀ condition missionId observedAt,
      revokeWhere condition (sampleDb rows events) input.tenantId missionId
        observedAt = .ok (sampleDb rows events) := by
    intro condition missionId observedAt
    rw [revokeWhere]
    split
    · rfl
    · rfl
  rw [transition]
  refine bind_eq_ok.mpr ⟨prior, loaded, bind_eq_ok.mpr
    ⟨_, unfenced _ _ _, ?_⟩⟩
  rw [asked]
  exact insert_sample known tenant unseen allowed untold

theorem check_sample (char : Char) (rows : List MissionException)
    (events : List DomainEvent) :
    (sampleSupersede char).check (sampleDb rows events) = .ok "c" := by
  have correlation : boundedText "c"
      "mission_exception_correlation_invalid" 256 = .ok "c" := by
    decide
  have time : exactUtc "2026-01-02T00:00:00.000Z"
      "mission_exception_created_at_invalid" =
      .ok "2026-01-02T00:00:00.000Z" := by
    decide
  have owner : assertRecordPrincipal sampleWorld "acme" "p1"
      "mission_exception_owner_tenant_mismatch" = .ok () := by
    decide
  exact bind_eq_ok.mpr ⟨"c", correlation, bind_eq_ok.mpr
    ⟨_, time, bind_eq_ok.mpr ⟨(), owner, rfl⟩⟩⟩

theorem wideText_ne {char other : Char} (different : char ≠ other) :
    wideText char ≠ wideText other := by
  intro same
  have lists := String.ofList_injective same
  rw [List.replicate_right_inj (by decide)] at lists
  exact different lists

theorem untold_raised {char : Char} (different : 'a' ≠ char) :
    Untold (wideText char) raisedEvents :=
  (untold_nil _).sampleEvents _ (wideText_ne different)

theorem untold_resolved : Untold (wideText 'c') resolvedEvents :=
  (untold_raised (by decide)).sampleEvents _ (wideText_ne (by decide))

theorem resolve_sample :
    resolveMissionException sampleSha256 (sampleSupersede 'a') "n"
        (sampleDb [raisedRow] raisedEvents) =
      .ok
        { exception := resolvedRow
          db := sampleDb [raisedRow, resolvedRow] resolvedEvents } := by
  refine bind_eq_ok.mpr ⟨"n", by decide, bind_eq_ok.mpr
    ⟨"c", check_sample _ _ _, ?_⟩⟩
  exact @transition_sample _ _ raisedRow _ sampleResolved _
    (by decide) rfl digest_sampleResolved rfl (by decide)
    (by decide) (untold_raised (by decide))

theorem reaffirm_sample :
    reaffirmMissionException sampleSha256 (sampleSupersede 'b') true
        { snapshotId := "s1", resolvedSha := "c1" }
        (sampleDb [raisedRow, resolvedRow] resolvedEvents) =
      .ok
        { exception := reaffirmedRow
          db := sampleDb [raisedRow, resolvedRow, reaffirmedRow]
            reaffirmedEvents } := by
  refine bind_eq_ok.mpr ⟨"c", check_sample _ _ _, bind_eq_ok.mpr
    ⟨{ snapshotId := "s1", resolvedSha := "c1" }, rfl, ?_⟩⟩
  exact @transition_sample _ _ resolvedRow _ sampleReaffirmed _
    (by decide) rfl digest_sampleReaffirmed rfl (by decide)
    (by decide) untold_resolved

/-- An exception is raised and resolved. -/
def sampleActs : List Act :=
  [.call (.raise sampleRaise), .call (.resolve (sampleSupersede 'a') "n")]

/-- The row which resolved the exception is reaffirmed. -/
def sampleReaffirm : Act :=
  .call (.reaffirm (sampleSupersede 'b') true
    { snapshotId := "s1", resolvedSha := "c1" })

theorem register_resolved :
    register sampleSha256 sampleWorld sampleActs =
      sampleDb [raisedRow, resolvedRow] resolvedEvents := by
  have first : (Act.call (.raise sampleRaise)).step sampleSha256
      (ExceptionDb.empty sampleWorld) = _ := Act.step_of_ok raise_sample
  have second : (Act.call (.resolve (sampleSupersede 'a') "n")).step
      sampleSha256 (sampleDb [raisedRow] raisedEvents) = _ :=
    Act.step_of_ok resolve_sample
  rw [register, sampleActs, Run.run_cons, Run.run_cons, Run.run_nil, first,
    second]

theorem register_reaffirmed :
    register sampleSha256 sampleWorld (sampleActs ++ [sampleReaffirm]) =
      sampleDb [raisedRow, resolvedRow, reaffirmedRow] reaffirmedEvents := by
  have before := register_resolved
  rw [register] at before
  have last : sampleReaffirm.step sampleSha256
      (sampleDb [raisedRow, resolvedRow] resolvedEvents) = _ :=
    Act.step_of_ok reaffirm_sample
  rw [register, Run.run_append, before, Run.run_cons, Run.run_nil, last]

/-- A resolution which is not reaffirmed stays. -/
theorem register_keeps_closed_sample :
    resolvedRow ∈ (register sampleSha256 sampleWorld
        (sampleActs ++ [])).exceptions ∧
      ∀ other, LaterState (register sampleSha256 sampleWorld
          (sampleActs ++ [])) resolvedRow other →
        other.status ≠ .opened :=
  (register_keeps_closed sampleSha256 sampleWorld sampleActs []).2.2.2
    ⟨trivial, trivial, trivial⟩ resolvedRow
    (by rw [register_resolved]; exact .tail _ (.head _)) (by decide)

/-- A resolved exception is reaffirmed, and blocks its mission again. -/
theorem resolved_exception_blocks_again :
    resolvedRow ∈
        (register sampleSha256 sampleWorld sampleActs).exceptions ∧
      resolvedRow.status = .resolved ∧
      LaterState (register sampleSha256 sampleWorld
        (sampleActs ++ [sampleReaffirm])) resolvedRow reaffirmedRow ∧
      reaffirmedRow.status = .opened ∧
      ∃ evaluation,
        evaluateMissionExceptions sampleSha256
            (register sampleSha256 sampleWorld
              (sampleActs ++ [sampleReaffirm])) "acme" "m1"
            (some { snapshotId := "s1", resolvedSha := "c1" }) =
          .ok evaluation ∧
        evaluation.missionBlocked = true := by
  have kept := @kept_register sampleSha256 sampleWorld
    (sampleActs ++ [sampleReaffirm])
  rw [register_reaffirmed] at kept ⊢
  rw [register_resolved]
  have head : IsHead (sampleDb [raisedRow, resolvedRow, reaffirmedRow]
      reaffirmedEvents) reaffirmedRow := by
    refine ⟨.tail _ (.tail _ (.head _)), ?_⟩
    show ∀ other ∈ [raisedRow, resolvedRow, reaffirmedRow], _
    decide
  refine ⟨.tail _ (.head _), rfl,
    .single ⟨.tail _ (.head _), head.1, rfl⟩, rfl, ?_⟩
  rcases evaluate_blocked kept "acme" "m1"
    (some { snapshotId := "s1", resolvedSha := "c1" }) with
    ⟨evaluation, answered, blocked⟩
  exact ⟨evaluation, answered, blocked.mpr
    ⟨reaffirmedRow, head, rfl, rfl, rfl, rfl, .inr ⟨_, rfl, rfl, rfl⟩⟩⟩

end Mendpoint.Mission.Exceptions
