import Mathlib.Data.List.MinMax
import Mathlib.Data.List.Sort
import Mendpoint.Library.Fallible
import Mendpoint.Library.JsonText
import Mendpoint.Library.Succession
import Mendpoint.Library.Run
import Mendpoint.Library.Table

/-!
# Domain events

Principals and the event log of a tenant.  An event is appended within the
transaction of the writer which it records, and a call under a known
idempotency key appends nothing.
-/

namespace Mendpoint.Trust

open Mendpoint.Library
open Mendpoint.Library.Fallible

/-! ## Records -/

inductive PrincipalKind where
  | human
  | service
  | apiKey
  | webhook
  deriving DecidableEq

structure Principal where
  id : String
  tenantId : String
  kind : PrincipalKind
  revokedAt : Option String

/-- A row of `domain_events`, with the value whose text it stores. -/
structure DomainEvent where
  id : String
  tenantId : String
  eventSequence : Nat
  schemaVersion : Nat
  eventType : String
  aggregateType : String
  aggregateId : String
  actorPrincipalId : String
  correlationId : String
  causationId : Option String
  idempotencyKey : String
  payload : Written
  payloadSha256 : String
  prevHash : Option String
  eventHash : String
  createdAt : String

/-- What a writer says about its event. -/
structure EventInput where
  id : String
  tenantId : String
  schemaVersion : Nat
  eventType : String
  aggregateType : String
  aggregateId : String
  actorPrincipalId : String
  correlationId : String
  causationId : Option String
  idempotencyKey : String
  payload : Written
  createdAt : String

/-- The answer of an append, and the log afterwards. -/
structure Appended where
  row : DomainEvent
  inserted : Bool
  log : List DomainEvent

/-! ## Checks -/

/-- A text which is not blank, of a number of code units at most. -/
def requiredText (most : Nat) (name value : String) :
    Except String String := do
  let result := Text.trim value
  throwIf (result = "" ∨ most < (Text.codeUnits result).length)
    (name ++ "_invalid")
  return result

def requireTenantRecord (principals : List Principal)
    (id tenantId : String) : Except String PUnit :=
  throwIf
    (∀ principal ∈ principals,
      ¬ (principal.id = id ∧ principal.tenantId = tenantId))
    "principals_tenant_mismatch"

/-! ## Writing -/

/-- The text of a field which may be null. -/
def writtenText : Option String → Written
  | none => .null
  | some text => .str text

def eventHash (sha256 : String → String) (input : EventInput)
    (sequence : Nat) (payloadSha256 : String)
    (previousHash : Option String) : String :=
  sha256 (Written.obj [
    ("tenantId", .str input.tenantId),
    ("sequence", .int sequence),
    ("schemaVersion", .int input.schemaVersion),
    ("eventType", .str input.eventType),
    ("aggregateType", .str input.aggregateType),
    ("aggregateId", .str input.aggregateId),
    ("actorPrincipalId", .str input.actorPrincipalId),
    ("correlationId", .str input.correlationId),
    ("causationId", writtenText input.causationId),
    ("idempotencyKey", .str input.idempotencyKey),
    ("payloadSha256", .str payloadSha256),
    ("previousHash", writtenText previousHash),
    ("createdAt", .str input.createdAt)]).stringify

/-- The last event of a tenant. -/
def lastEvent (log : List DomainEvent) (tenantId : String) :
    Option DomainEvent :=
  (log.filter fun event => decide (event.tenantId = tenantId)).argmax
    DomainEvent.eventSequence

/-- The row of a new event behind a log. -/
def EventInput.row (sha256 : String → String) (log : List DomainEvent)
    (input : EventInput) : DomainEvent :=
  let previous := lastEvent log input.tenantId
  let sequence := (previous.map DomainEvent.eventSequence).getD 0 + 1
  let payloadSha256 := sha256 input.payload.stringify
  { id := input.id
    tenantId := input.tenantId
    eventSequence := sequence
    schemaVersion := input.schemaVersion
    eventType := input.eventType
    aggregateType := input.aggregateType
    aggregateId := input.aggregateId
    actorPrincipalId := input.actorPrincipalId
    correlationId := input.correlationId
    causationId := input.causationId
    idempotencyKey := input.idempotencyKey
    payload := input.payload
    payloadSha256 := payloadSha256
    prevHash := previous.map DomainEvent.eventHash
    eventHash := eventHash sha256 input sequence payloadSha256
      (previous.map DomainEvent.eventHash)
    createdAt := input.createdAt }

/-- A stored event is the one which a call would have appended. -/
def DomainEvent.Same (sha256 : String → String) (existing : DomainEvent)
    (input : EventInput) : Prop :=
  existing.eventType = input.eventType ∧
    existing.aggregateType = input.aggregateType ∧
    existing.aggregateId = input.aggregateId ∧
    existing.actorPrincipalId = input.actorPrincipalId ∧
    existing.payloadSha256 = sha256 input.payload.stringify

instance (sha256 : String → String) (existing : DomainEvent)
    (input : EventInput) : Decidable (existing.Same sha256 input) :=
  inferInstanceAs (Decidable (_ ∧ _ ∧ _ ∧ _ ∧ _))

/-- The event of a tenant under an idempotency key. -/
def eventByKey (log : List DomainEvent)
    (tenantId idempotencyKey : String) : Option DomainEvent :=
  log.find? fun event =>
    decide (event.tenantId = tenantId ∧
      event.idempotencyKey = idempotencyKey)

def appendDomainEvent (sha256 : String → String)
    (principals : List Principal) (log : List DomainEvent)
    (input : EventInput) : Except String Appended := do
  requireTenantRecord principals input.actorPrincipalId input.tenantId
  match eventByKey log input.tenantId input.idempotencyKey with
  | some existing =>
    throwIf (¬ existing.Same sha256 input)
      "domain_event_idempotency_conflict"
    return { row := existing, inserted := false, log := log }
  | none =>
    throwIf (∃ event ∈ log, event.id = input.id)
      "UNIQUE constraint failed: domain_events.id"
    let row := input.row sha256 log
    return { row := row, inserted := true, log := log ++ [row] }

/-! ## What an append does -/

theorem appendDomainEvent_eq_ok {sha256 : String → String}
    {principals : List Principal} {log : List DomainEvent}
    {input : EventInput} {appended : Appended} :
    appendDomainEvent sha256 principals log input = .ok appended ↔
      (∃ principal ∈ principals, principal.id = input.actorPrincipalId ∧
        principal.tenantId = input.tenantId) ∧
      ((∃ existing,
          eventByKey log input.tenantId input.idempotencyKey =
            some existing ∧
          existing.Same sha256 input ∧
          appended = { row := existing, inserted := false, log := log }) ∨
        (eventByKey log input.tenantId input.idempotencyKey = none ∧
          (∀ event ∈ log, event.id ≠ input.id) ∧
          appended =
            { row := input.row sha256 log
              inserted := true
              log := log ++ [input.row sha256 log] })) := by
  rw [appendDomainEvent, bind_eq_ok]
  have known : (∃ value,
      requireTenantRecord principals input.actorPrincipalId
        input.tenantId = .ok value) ↔
      ∃ principal ∈ principals, principal.id = input.actorPrincipalId ∧
        principal.tenantId = input.tenantId := by
    simp only [requireTenantRecord, throwIf_eq_ok, exists_const, not_forall,
      not_not, exists_prop]
  rw [← known]
  cases found : eventByKey log input.tenantId input.idempotencyKey with
  | some existing =>
    simp only [bind_eq_ok, throwIf_eq_ok, pure_eq_ok, not_not,
      Option.some.injEq]
    constructor
    · rintro ⟨value, principal, _, same, rfl⟩
      exact ⟨⟨value, principal⟩, Or.inl ⟨existing, rfl, same, rfl⟩⟩
    · rintro ⟨⟨value, principal⟩, ⟨_, rfl, same, rfl⟩ | ⟨impossible, _⟩⟩
      · exact ⟨value, principal, ⟨⟩, same, rfl⟩
      · cases impossible
  | none =>
    simp only [bind_eq_ok, throwIf_eq_ok, pure_eq_ok, not_exists, not_and]
    constructor
    · rintro ⟨value, principal, _, fresh, rfl⟩
      exact ⟨⟨value, principal⟩, Or.inr ⟨trivial, fresh, rfl⟩⟩
    · rintro ⟨⟨value, principal⟩, ⟨_, impossible, _⟩ | ⟨_, fresh, rfl⟩⟩
      · cases impossible
      · exact ⟨value, principal, ⟨⟩, fresh, rfl⟩

end Mendpoint.Trust

/-!
## Audits of the event log

The audit of the whole log of a tenant and the audit of one event with its
neighbours.  Both read whatever the table holds; where its sequence numbers
have no gap they accept the same tables, and they accept every table which
appends have written.
-/

namespace Mendpoint.Trust

open Mendpoint.Library
open Mendpoint.Library.HashChain (Linked lastHash)

/-! ## Stored rows -/

/-- A row of `domain_events` as it is read, with the text of its payload. -/
structure EventRow where
  id : String
  tenantId : String
  eventSequence : Int
  schemaVersion : Int
  eventType : String
  aggregateType : String
  aggregateId : String
  actorPrincipalId : String
  correlationId : String
  causationId : Option String
  idempotencyKey : String
  payloadJson : String
  payloadSha256 : String
  prevHash : Option String
  eventHash : String
  createdAt : String

/-- A table in which an id, and a place in a tenant's log, is taken once. -/
structure EventTable where
  rows : List EventRow
  ids : (rows.map EventRow.id).Nodup
  places : (rows.map fun row => (row.tenantId, row.eventSequence)).Nodup

/-! ## Audits -/

/-- The answer of an audit. -/
structure Verification where
  ok : Bool
  checked : Nat
  error : Option String

section Audits

variable (sha256 : String → String)

/-- The hash which a row should have behind another hash. -/
def EventRow.expectedHash (row : EventRow) (payloadSha256 : String)
    (previousHash : Option String) : String :=
  sha256 (Written.obj [
    ("tenantId", .str row.tenantId),
    ("sequence", .int row.eventSequence),
    ("schemaVersion", .int row.schemaVersion),
    ("eventType", .str row.eventType),
    ("aggregateType", .str row.aggregateType),
    ("aggregateId", .str row.aggregateId),
    ("actorPrincipalId", .str row.actorPrincipalId),
    ("correlationId", .str row.correlationId),
    ("causationId", writtenText row.causationId),
    ("idempotencyKey", .str row.idempotencyKey),
    ("payloadSha256", .str payloadSha256),
    ("previousHash", writtenText previousHash),
    ("createdAt", .str row.createdAt)]).stringify

/-- Whether the digests of a row are those of its content. -/
def EventRow.Hashed (row : EventRow) (previousHash : Option String) : Prop :=
  row.payloadSha256 = sha256 row.payloadJson ∧
    row.eventHash =
      row.expectedHash sha256 (sha256 row.payloadJson) previousHash

instance (row : EventRow) (previousHash : Option String) :
    Decidable (row.Hashed sha256 previousHash) :=
  inferInstanceAs (Decidable (_ ∧ _))

/-- The log of a tenant in the order of its sequence numbers. -/
def listDomainEvents (table : EventTable) (tenantId : String) :
    List EventRow :=
  (table.rows.filter fun row =>
    decide (row.tenantId = tenantId)).insertionSort
      fun left right => left.eventSequence ≤ right.eventSequence

/-- The audit of rows, from a place and the hash before it. -/
def verifyRows : Nat → Option String → List EventRow → Verification
  | index, _, [] => { ok := true, checked := index, error := none }
  | index, previousHash, row :: rest =>
    if row.eventSequence ≠ index + 1 ∨ row.prevHash ≠ previousHash then
      { ok := false
        checked := index
        error := some ("domain_event_sequence:" ++ row.id) }
    else if ¬ row.Hashed sha256 previousHash then
      { ok := false
        checked := index
        error := some ("domain_event_hash:" ++ row.id) }
    else verifyRows (index + 1) (some row.eventHash) rest

def verifyDomainEventIntegrity (table : EventTable) (tenantId : String) :
    Verification :=
  verifyRows sha256 0 none (listDomainEvents table tenantId)

/-- The event of a tenant under a sequence number. -/
def eventAt (table : EventTable) (tenantId : String) (sequence : Int) :
    Option EventRow :=
  table.rows.find? fun row =>
    decide (row.tenantId = tenantId ∧ row.eventSequence = sequence)

/-- The event before an event which is not the first. -/
def predecessor (table : EventTable) (tenantId : String) (row : EventRow) :
    Option EventRow :=
  if 1 < row.eventSequence then
    eventAt table tenantId (row.eventSequence - 1)
  else none

def verifyDomainEventRecordIntegrity (table : EventTable)
    (tenantId eventId : String) : Verification :=
  match table.rows.find? fun row =>
      decide (row.tenantId = tenantId ∧ row.id = eventId) with
  | none =>
    { ok := false
      checked := 0
      error := some ("domain_event_missing:" ++ eventId) }
  | some row =>
    let previous := predecessor table tenantId row
    if 1 < row.eventSequence ∧ previous = none then
      { ok := false
        checked := 0
        error := some ("domain_event_predecessor_missing:" ++ row.id) }
    else if row.prevHash ≠ previous.map EventRow.eventHash then
      { ok := false
        checked := 0
        error := some ("domain_event_sequence:" ++ row.id) }
    else if ¬ row.Hashed sha256 (previous.map EventRow.eventHash) then
      { ok := false
        checked := 0
        error := some ("domain_event_hash:" ++ row.id) }
    else
      match eventAt table tenantId (row.eventSequence + 1) with
      | none => { ok := true, checked := 1, error := none }
      | some next =>
        if next.prevHash ≠ some row.eventHash then
          { ok := false
            checked := 1
            error := some ("domain_event_successor:" ++ row.id) }
        else { ok := true, checked := 1, error := none }

end Audits

/-! ## Looking up events -/

section Lookup

variable {table : EventTable} {tenantId : String}

variable {row : EventRow}

theorem mem_listDomainEvents :
    row ∈ listDomainEvents table tenantId ↔
      row ∈ table.rows ∧ row.tenantId = tenantId := by
  rw [listDomainEvents, (List.perm_insertionSort _ _).mem_iff,
    List.mem_filter, decide_eq_true_iff]

theorem eventAt_eq_some {sequence : Int} :
    eventAt table tenantId sequence = some row ↔
      row ∈ listDomainEvents table tenantId ∧
        row.eventSequence = sequence := by
  rw [mem_listDomainEvents, eventAt, Table.find?_eq_some_iff,
    decide_eq_true_iff, and_assoc]
  intro one inside other within chosen alsoChosen
  rw [decide_eq_true_iff] at chosen alsoChosen
  exact Table.eq_of_key table.places inside within
    (Prod.ext (chosen.1.trans alsoChosen.1.symm)
      (chosen.2.trans alsoChosen.2.symm))

theorem find_eq_some (inside : row ∈ listDomainEvents table tenantId) :
    (table.rows.find? fun other =>
      decide (other.tenantId = tenantId ∧ other.id = row.id)) = some row := by
  rw [mem_listDomainEvents] at inside
  rw [Table.find?_eq_some_iff, decide_eq_true_iff]
  · exact ⟨inside.1, inside.2, rfl⟩
  · intro one member other within chosen alsoChosen
    rw [decide_eq_true_iff] at chosen alsoChosen
    exact Table.eq_of_key table.ids member within
      (chosen.2.trans alsoChosen.2.symm)

end Lookup

/-! ## What the audits accept -/

section Accepted

variable {sha256 : String → String} {table : EventTable} {tenantId : String}

/-- A row is numbered for its place and hashed behind the one before it. -/
def EventRow.Valid (sha256 : String → String) (previousHash : Option String)
    (index : Nat) (row : EventRow) : Prop :=
  row.eventSequence = index + 1 ∧ row.prevHash = previousHash ∧
    row.Hashed sha256 previousHash

theorem verifyRows_ok_iff {front rows : List EventRow}
    (linked : Linked (EventRow.Valid sha256) EventRow.eventHash front) :
    (verifyRows sha256 front.length (lastHash EventRow.eventHash front)
      rows).ok = true ↔
      Linked (EventRow.Valid sha256) EventRow.eventHash (front ++ rows) := by
  induction rows generalizing front with
  | nil =>
    rw [List.append_nil]
    exact ⟨fun _ => linked, fun _ => rfl⟩
  | cons row rest inductionHypothesis =>
    rw [verifyRows]
    have here : Linked (EventRow.Valid sha256) EventRow.eventHash
        (front ++ row :: rest) →
        row.Valid sha256 (lastHash EventRow.eventHash front)
          front.length :=
      fun all => all front row rest rfl
    split
    · next wrong =>
        rw [Bool.false_eq_true, false_iff]
        intro all
        rcases wrong with number | previous
        · exact number (here all).1
        · exact previous (here all).2.1
    · next placed =>
        rw [not_or, not_not, not_not] at placed
        split
        · next wrong =>
            rw [Bool.false_eq_true, false_iff]
            intro all
            exact wrong (here all).2.2
        · next hashed =>
            rw [not_not] at hashed
            have longer := HashChain.linked_append_singleton.mpr
              ⟨linked, placed.1, placed.2, hashed⟩
            have later := inductionHypothesis longer
            rw [List.length_append, HashChain.lastHash_append_singleton,
              List.append_assoc] at later
            exact later

theorem verifyDomainEventIntegrity_ok_iff :
    (verifyDomainEventIntegrity sha256 table tenantId).ok = true ↔
      Linked (EventRow.Valid sha256) EventRow.eventHash
        (listDomainEvents table tenantId) :=
  verifyRows_ok_iff HashChain.linked_nil

/-- An event agrees with its neighbours, and one before it is there. -/
structure EventRow.Fits (sha256 : String → String) (table : EventTable)
    (tenantId : String) (row : EventRow) : Prop where
  preceded : 1 < row.eventSequence → predecessor table tenantId row ≠ none
  previous : row.prevHash =
    (predecessor table tenantId row).map EventRow.eventHash
  hashed : row.Hashed sha256 row.prevHash
  next : ∀ other, eventAt table tenantId (row.eventSequence + 1) =
    some other → other.prevHash = some row.eventHash

variable {row : EventRow}

theorem verifyDomainEventRecordIntegrity_ok_iff
    (inside : row ∈ listDomainEvents table tenantId) :
    (verifyDomainEventRecordIntegrity sha256 table tenantId row.id).ok =
      true ↔ row.Fits sha256 table tenantId := by
  rw [verifyDomainEventRecordIntegrity, find_eq_some inside]
  dsimp only
  split
  · next missing =>
      rw [Bool.false_eq_true, false_iff]
      intro fits
      exact fits.preceded missing.1 missing.2
  · next preceded =>
      rw [not_and] at preceded
      split
      · next wrong =>
          rw [Bool.false_eq_true, false_iff]
          intro fits
          exact wrong fits.previous
      · next previous =>
          rw [not_not] at previous
          rw [← previous]
          split
          · next wrong =>
              rw [Bool.false_eq_true, false_iff]
              intro fits
              exact wrong fits.hashed
          · next hashed =>
              rw [not_not] at hashed
              split
              · next last =>
                  refine ⟨fun _ => ?_, fun _ => rfl⟩
                  refine ⟨preceded, previous, hashed, fun other found => ?_⟩
                  rw [last] at found
                  cases found
              · next other found =>
                  split
                  · next wrong =>
                      rw [Bool.false_eq_true, false_iff]
                      intro fits
                      exact wrong (fits.next other found)
                  · next linked =>
                      rw [not_not] at linked
                      refine ⟨fun _ => ?_, fun _ => rfl⟩
                      refine ⟨preceded, previous, hashed, ?_⟩
                      intro another foundToo
                      rw [found] at foundToo
                      cases foundToo
                      exact linked

/-- Every row has the number of its place. -/
def Numbered (rows : List EventRow) : Prop :=
  ∀ (front : List EventRow) (row : EventRow) (back : List EventRow),
    rows = front ++ row :: back → row.eventSequence = front.length + 1

/-- The sequence numbers of a tenant are one and those which follow it. -/
def Consecutive (table : EventTable) (tenantId : String) : Prop :=
  let rows := table.rows.filter fun row => decide (row.tenantId = tenantId)
  (rows.map EventRow.eventSequence).Perm
    ((List.range rows.length).map fun index : Nat => (index : Int) + 1)

theorem numbered_iff_map (rows : List EventRow) :
    Numbered rows ↔
      rows.map EventRow.eventSequence =
        (List.range rows.length).map fun index : Nat => (index : Int) + 1 := by
  constructor
  · intro numbered
    refine List.ext_getElem (by simp) fun index inside _ => ?_
    rw [List.length_map] at inside
    have split := numbered (rows.take index) rows[index]
      (rows.drop (index + 1)) (by
        rw [List.getElem_cons_drop, List.take_append_drop])
    rw [List.length_take_of_le inside.le] at split
    simpa using split
  · rintro numbers front row back rfl
    have here := congrArg (fun list => list[front.length]?) numbers
    simpa using here

theorem consecutive_iff_numbered :
    Consecutive table tenantId ↔
      Numbered (listDomainEvents table tenantId) := by
  have permuted := List.perm_insertionSort
    (fun left right : EventRow => left.eventSequence ≤ right.eventSequence)
    (table.rows.filter fun row => decide (row.tenantId = tenantId))
  have sorted : ((listDomainEvents table tenantId).map
      EventRow.eventSequence).Pairwise (· ≤ ·) := by
    rw [List.pairwise_map]
    exact List.pairwise_insertionSort _ _
  have ascending : ∀ count : Nat, ((List.range count).map
      fun index : Nat => (index : Int) + 1).Pairwise (· ≤ ·) := by
    intro count
    rw [List.pairwise_map]
    exact List.pairwise_lt_range.imp fun less => by omega
  rw [numbered_iff_map, Consecutive]
  rw [listDomainEvents] at sorted ⊢
  rw [permuted.length_eq]
  constructor
  · intro consecutive
    exact ((permuted.map EventRow.eventSequence).trans
      consecutive).eq_of_pairwise' sorted (ascending _)
  · intro numbers
    exact ((permuted.map EventRow.eventSequence).symm).trans
      (List.Perm.of_eq numbers)

theorem predecessor_eq_getLast? {front back : List EventRow}
    (numbered : Numbered (listDomainEvents table tenantId))
    (split : listDomainEvents table tenantId = front ++ row :: back) :
    predecessor table tenantId row = front.getLast? := by
  have here := numbered front row back split
  rw [predecessor]
  induction front using List.reverseRecOn with
  | nil =>
    rw [if_neg (by rw [here]; simp)]
    rfl
  | append_singleton init last _ =>
    rw [List.append_assoc] at split
    have before := numbered init last (row :: back) split
    rw [List.length_append, List.length_singleton] at here
    rw [if_pos (by omega), List.getLast?_concat, eventAt_eq_some, split]
    exact ⟨by simp, by omega⟩

theorem fits_of_linked
    (linked : Linked (EventRow.Valid sha256) EventRow.eventHash
      (listDomainEvents table tenantId))
    (inside : row ∈ listDomainEvents table tenantId) :
    row.Fits sha256 table tenantId := by
  have numbered : Numbered (listDomainEvents table tenantId) :=
    fun front row back split => (linked front row back split).1
  rcases List.append_of_mem inside with ⟨front, back, split⟩
  have valid := linked front row back split
  have before := predecessor_eq_getLast? numbered split
  refine ⟨?_, ?_, ?_, ?_⟩
  · intro later missing
    rw [before, List.getLast?_eq_none_iff] at missing
    rw [valid.1, missing] at later
    cases later
  · rw [before]
    exact valid.2.1
  · rw [valid.2.1]
    exact valid.2.2
  · intro other found
    rw [eventAt_eq_some] at found
    rcases List.append_of_mem found.1 with ⟨front', back', split'⟩
    have validOther := linked front' other back' split'
    have place : front'.length = front.length + 1 := by
      have number := validOther.1
      rw [found.2, valid.1] at number
      omega
    have both : front' ++ other :: back' = (front ++ [row]) ++ back := by
      rw [← split', split, List.append_assoc]
      rfl
    have frontEq : front' = front ++ [row] := by
      refine List.append_inj_left both ?_
      rw [place, List.length_append, List.length_singleton]
    rw [validOther.2.1, frontEq, HashChain.lastHash_append_singleton]

theorem linked_of_fits
    (numbered : Numbered (listDomainEvents table tenantId))
    (fits : ∀ row ∈ listDomainEvents table tenantId,
      row.Fits sha256 table tenantId) :
    Linked (EventRow.Valid sha256) EventRow.eventHash
      (listDomainEvents table tenantId) := by
  intro front row back split
  have fit := fits row (by rw [split]; simp)
  have previous : row.prevHash = lastHash EventRow.eventHash front := by
    rw [fit.previous, predecessor_eq_getLast? numbered split]
    rfl
  exact ⟨numbered front row back split, previous, previous ▸ fit.hashed⟩

theorem verifyDomainEventIntegrity_ok_iff_records :
    (verifyDomainEventIntegrity sha256 table tenantId).ok = true ↔
      Consecutive table tenantId ∧
        ∀ row ∈ listDomainEvents table tenantId,
          (verifyDomainEventRecordIntegrity sha256 table tenantId
            row.id).ok = true := by
  rw [verifyDomainEventIntegrity_ok_iff, consecutive_iff_numbered]
  constructor
  · intro linked
    refine ⟨fun front row back split => (linked front row back split).1, ?_⟩
    intro row inside
    exact (verifyDomainEventRecordIntegrity_ok_iff inside).mpr
      (fits_of_linked linked inside)
  · rintro ⟨numbered, records⟩
    exact linked_of_fits numbered fun row inside =>
      (verifyDomainEventRecordIntegrity_ok_iff inside).mp
        (records row inside)

end Accepted

end Mendpoint.Trust

/-!
## Histories of the event log

What calls of `appendDomainEvent` leave behind: for every tenant a chain of
events numbered from one, which both audits accept, and for every event a
key under which the same call finds it again.  The payload of a call may be
any value and is represented by its text; the calls of `DomainEvents` are
those whose payloads are written from values.
-/

namespace Mendpoint.Trust

open Mendpoint.Library
open Mendpoint.Library.Fallible
open Mendpoint.Library.HashChain (Linked lastHash)

/-! ## Appending rows -/

/-- What a writer says about its event, with the text of its payload. -/
structure RowInput where
  id : String
  tenantId : String
  schemaVersion : Int
  eventType : String
  aggregateType : String
  aggregateId : String
  actorPrincipalId : String
  correlationId : String
  causationId : Option String
  idempotencyKey : String
  payloadJson : String
  createdAt : String

/-- The answer of an append, and the rows afterwards. -/
structure AppendedRow where
  row : EventRow
  inserted : Bool
  rows : List EventRow

/-- The events of a tenant, in the order in which they were appended. -/
def eventsOf (rows : List EventRow) (tenantId : String) : List EventRow :=
  rows.filter fun row => decide (row.tenantId = tenantId)

/-- The one of two events which has the greater number. -/
def laterRow (best : Option EventRow) (row : EventRow) : Option EventRow :=
  match best with
  | none => some row
  | some last =>
    if last.eventSequence < row.eventSequence then some row else some last

/-- The event with the greatest number. -/
def latestRow (events : List EventRow) : Option EventRow :=
  events.foldl laterRow none

theorem latestRow_concat (events : List EventRow) (row : EventRow) :
    latestRow (events ++ [row]) = laterRow (latestRow events) row := by
  rw [latestRow, List.foldl_append]
  rfl

/-- The last event of a tenant. -/
def lastRow (rows : List EventRow) (tenantId : String) : Option EventRow :=
  latestRow (eventsOf rows tenantId)

section Append

variable (sha256 : String → String)

/-- The row of a new event behind others. -/
def RowInput.row (rows : List EventRow) (input : RowInput) : EventRow :=
  let previous := lastRow rows input.tenantId
  let unhashed : EventRow :=
    { id := input.id
      tenantId := input.tenantId
      eventSequence := (previous.map EventRow.eventSequence).getD 0 + 1
      schemaVersion := input.schemaVersion
      eventType := input.eventType
      aggregateType := input.aggregateType
      aggregateId := input.aggregateId
      actorPrincipalId := input.actorPrincipalId
      correlationId := input.correlationId
      causationId := input.causationId
      idempotencyKey := input.idempotencyKey
      payloadJson := input.payloadJson
      payloadSha256 := sha256 input.payloadJson
      prevHash := previous.map EventRow.eventHash
      eventHash := ""
      createdAt := input.createdAt }
  { unhashed with
    eventHash := unhashed.expectedHash sha256 (sha256 input.payloadJson)
      (previous.map EventRow.eventHash) }

/-- A stored row is the one which a call would have appended. -/
def EventRow.Same (existing : EventRow) (input : RowInput) : Prop :=
  existing.eventType = input.eventType ∧
    existing.aggregateType = input.aggregateType ∧
    existing.aggregateId = input.aggregateId ∧
    existing.actorPrincipalId = input.actorPrincipalId ∧
    existing.payloadSha256 = sha256 input.payloadJson

instance (existing : EventRow) (input : RowInput) :
    Decidable (existing.Same sha256 input) :=
  inferInstanceAs (Decidable (_ ∧ _ ∧ _ ∧ _ ∧ _))

/-- The row of a tenant under an idempotency key. -/
def rowByKey (rows : List EventRow) (tenantId idempotencyKey : String) :
    Option EventRow :=
  rows.find? fun row =>
    decide (row.tenantId = tenantId ∧ row.idempotencyKey = idempotencyKey)

def appendEventRow (principals : List Principal) (rows : List EventRow)
    (input : RowInput) : Except String AppendedRow := do
  requireTenantRecord principals input.actorPrincipalId input.tenantId
  match rowByKey rows input.tenantId input.idempotencyKey with
  | some existing =>
    throwIf (¬ existing.Same sha256 input)
      "domain_event_idempotency_conflict"
    return { row := existing, inserted := false, rows := rows }
  | none =>
    throwIf (∃ row ∈ rows, row.id = input.id)
      "UNIQUE constraint failed: domain_events.id"
    let row := input.row sha256 rows
    return { row := row, inserted := true, rows := rows ++ [row] }

theorem appendEventRow_eq_ok {principals : List Principal}
    {rows : List EventRow} {input : RowInput} {appended : AppendedRow} :
    appendEventRow sha256 principals rows input = .ok appended ↔
      requireTenantRecord principals input.actorPrincipalId input.tenantId =
        .ok () ∧
      ((∃ existing,
          rowByKey rows input.tenantId input.idempotencyKey =
            some existing ∧
          existing.Same sha256 input ∧
          appended = { row := existing, inserted := false, rows := rows }) ∨
        (rowByKey rows input.tenantId input.idempotencyKey = none ∧
          (∀ row ∈ rows, row.id ≠ input.id) ∧
          appended =
            { row := input.row sha256 rows
              inserted := true
              rows := rows ++ [input.row sha256 rows] })) := by
  rw [appendEventRow, bind_eq_ok]
  cases found : rowByKey rows input.tenantId input.idempotencyKey with
  | some existing =>
    simp only [bind_eq_ok, throwIf_eq_ok, pure_eq_ok, not_not,
      Option.some.injEq]
    constructor
    · rintro ⟨value, principal, _, same, rfl⟩
      exact ⟨principal, Or.inl ⟨existing, rfl, same, rfl⟩⟩
    · rintro ⟨principal, ⟨_, rfl, same, rfl⟩ | ⟨impossible, _⟩⟩
      · exact ⟨(), principal, ⟨⟩, same, rfl⟩
      · cases impossible
  | none =>
    simp only [bind_eq_ok, throwIf_eq_ok, pure_eq_ok, not_exists, not_and]
    constructor
    · rintro ⟨value, principal, _, fresh, rfl⟩
      exact ⟨principal, Or.inr ⟨trivial, fresh, rfl⟩⟩
    · rintro ⟨principal, ⟨_, impossible, _⟩ | ⟨_, fresh, rfl⟩⟩
      · cases impossible
      · exact ⟨(), principal, ⟨⟩, fresh, rfl⟩

end Append

/-! ## Calls whose payloads are written from values -/

section Stored

variable {sha256 : String → String}

end Stored

section Logs

variable {sha256 : String → String} {rows : List EventRow}

/-- Ids are taken once, and the events of every tenant are a chain. -/
structure Chained (sha256 : String → String) (rows : List EventRow) :
    Prop where
  ids : (rows.map EventRow.id).Nodup
  linked : ∀ tenantId, Linked (EventRow.Valid sha256) EventRow.eventHash
    (eventsOf rows tenantId)

theorem chained_nil : Chained sha256 [] where
  ids := List.nodup_nil
  linked _ := HashChain.linked_nil

/-! ## The end of a chain -/

theorem latestRow_eq_getLast? {events : List EventRow}
    (linked : Linked (EventRow.Valid sha256) EventRow.eventHash events) :
    latestRow events = events.getLast? := by
  induction events using List.reverseRecOn with
  | nil => rfl
  | append_singleton front last inductionHypothesis =>
    rw [latestRow_concat, inductionHypothesis linked.front,
      List.getLast?_concat]
    cases found : front.getLast? with
    | none => rfl
    | some before =>
      have member := List.mem_of_getLast? found
      rcases List.append_of_mem member with ⟨early, late, split⟩
      have earlier := (linked.front early before late split).1
      have latest := (linked front last [] rfl).1
      have shorter : early.length < front.length := by
        rw [split, List.length_append, List.length_cons]
        omega
      exact if_pos (by omega)

theorem lastRow_eq_getLast? (chained : Chained sha256 rows)
    (tenantId : String) :
    lastRow rows tenantId = (eventsOf rows tenantId).getLast? :=
  latestRow_eq_getLast? (chained.linked tenantId)

/-! ## An append -/

theorem valid_row (chained : Chained sha256 rows) (input : RowInput) :
    (input.row sha256 rows).Valid sha256
      (lastHash EventRow.eventHash (eventsOf rows input.tenantId))
      (eventsOf rows input.tenantId).length := by
  have last := lastRow_eq_getLast? chained input.tenantId
  have previous : lastHash EventRow.eventHash
      (eventsOf rows input.tenantId) =
      (lastRow rows input.tenantId).map EventRow.eventHash := by
    rw [lastHash, last]
  have number : ((lastRow rows input.tenantId).map
      EventRow.eventSequence).getD 0 =
      (eventsOf rows input.tenantId).length := by
    rw [last]
    have linked := chained.linked input.tenantId
    generalize eventsOf rows input.tenantId = events at linked ⊢
    induction events using List.reverseRecOn with
    | nil => rfl
    | append_singleton front event _ =>
      have here := (linked front event [] rfl).1
      rw [List.getLast?_concat, List.length_append]
      exact here
  rw [previous]
  refine ⟨?_, rfl, rfl, rfl⟩
  rw [← number]
  rfl

theorem eventsOf_append (row : EventRow) (tenantId : String) :
    eventsOf (rows ++ [row]) tenantId =
      if row.tenantId = tenantId then eventsOf rows tenantId ++ [row]
      else eventsOf rows tenantId := by
  rw [eventsOf, List.filter_append]
  split
  · next same =>
      rw [List.filter_cons, if_pos (decide_eq_true same)]
      rfl
  · next other =>
      rw [List.filter_cons, if_neg (by simp [other])]
      exact List.append_nil _

theorem Chained.append (chained : Chained sha256 rows) {input : RowInput}
    (fresh : ∀ row ∈ rows, row.id ≠ input.id) :
    Chained sha256 (rows ++ [input.row sha256 rows]) where
  ids := by
    rw [List.map_append, List.map_singleton, List.nodup_append]
    refine ⟨chained.ids, List.nodup_singleton _, ?_⟩
    rintro id inside other last rfl
    rw [List.mem_singleton] at last
    rcases List.mem_map.mp inside with ⟨row, member, named⟩
    exact fresh row member (named.trans last)
  linked tenantId := by
    rw [eventsOf_append]
    split
    · next same =>
        have valid := valid_row chained input
        rw [show input.tenantId = tenantId from same] at valid
        exact HashChain.linked_append_singleton.mpr
          ⟨chained.linked tenantId, valid⟩
    · exact chained.linked tenantId

/-! ## Histories -/

/-- A call, with the principals which are known at its time. -/
structure AppendCall where
  principals : List Principal
  input : RowInput

/-- The rows behind a call, which may be refused. -/
def AppendCall.step (sha256 : String → String) (rows : List EventRow)
    (call : AppendCall) : List EventRow :=
  match appendEventRow sha256 call.principals rows call.input with
  | .ok appended => appended.rows
  | .error _ => rows

/-- The rows behind calls in turn. -/
def history (sha256 : String → String) (calls : List AppendCall) :
    List EventRow :=
  Run.run (AppendCall.step sha256) [] calls

theorem step_cases (sha256 : String → String) (rows : List EventRow)
    (call : AppendCall) :
    call.step sha256 rows = rows ∨
      (∀ row ∈ rows, row.id ≠ call.input.id) ∧
        call.step sha256 rows = rows ++ [call.input.row sha256 rows] := by
  rw [AppendCall.step]
  cases outcome : appendEventRow sha256 call.principals rows call.input with
  | error message => exact Or.inl rfl
  | ok appended =>
    rcases ((appendEventRow_eq_ok sha256).mp outcome).2 with
      ⟨existing, _, _, rfl⟩ | ⟨_, fresh, rfl⟩
    · exact Or.inl rfl
    · exact Or.inr ⟨fresh, rfl⟩

theorem chained_history (sha256 : String → String)
    (calls : List AppendCall) : Chained sha256 (history sha256 calls) := by
  refine Run.run_invariant (fun rows call chained => ?_) chained_nil calls
  rcases step_cases sha256 rows call with same | ⟨fresh, appended⟩
  · rw [same]
    exact chained
  · rw [appended]
    exact chained.append fresh

theorem prefix_run (sha256 : String → String) (rows : List EventRow)
    (calls : List AppendCall) :
    rows <+: Run.run (AppendCall.step sha256) rows calls := by
  refine Run.run_invariant (fun state call kept => ?_)
    (List.prefix_refl rows) calls
  rcases step_cases sha256 state call with same | ⟨_, appended⟩
  · rw [same]
    exact kept
  · rw [appended]
    exact kept.trans (List.prefix_append _ _)

theorem rowByKey_of_prefix {longer : List EventRow}
    (front : rows <+: longer) {tenantId idempotencyKey : String}
    {row : EventRow}
    (found : rowByKey rows tenantId idempotencyKey = some row) :
    rowByKey longer tenantId idempotencyKey = some row := by
  rcases front with ⟨rest, rfl⟩
  rw [rowByKey, List.find?_append]
  rw [rowByKey] at found
  rw [found]
  rfl

theorem stored_of_append {principals : List Principal} {input : RowInput}
    {appended : AppendedRow}
    (succeeded : appendEventRow sha256 principals rows input =
      .ok appended) :
    rowByKey appended.rows input.tenantId input.idempotencyKey =
        some appended.row ∧ appended.row.Same sha256 input := by
  rcases ((appendEventRow_eq_ok sha256).mp succeeded).2 with
    ⟨existing, found, same, rfl⟩ | ⟨missing, _, rfl⟩
  · exact ⟨found, same⟩
  · refine ⟨?_, rfl, rfl, rfl, rfl, rfl⟩
    rw [rowByKey] at missing ⊢
    rw [List.find?_append, missing]
    exact List.find?_cons_of_pos
      (p := fun row : EventRow =>
        decide (row.tenantId = input.tenantId ∧
          row.idempotencyKey = input.idempotencyKey))
      (decide_eq_true ⟨rfl, rfl⟩)

/-! ## The table of a history -/

theorem eq_of_place (chained : Chained sha256 rows) {row other : EventRow}
    (inside : row ∈ rows) (within : other ∈ rows)
    (tenant : row.tenantId = other.tenantId)
    (place : row.eventSequence = other.eventSequence) : row = other := by
  have linked := chained.linked other.tenantId
  have member : row ∈ eventsOf rows other.tenantId :=
    List.mem_filter.mpr ⟨inside, decide_eq_true tenant⟩
  have memberOther : other ∈ eventsOf rows other.tenantId :=
    List.mem_filter.mpr ⟨within, decide_eq_true rfl⟩
  rcases List.append_of_mem member with ⟨front, back, split⟩
  rcases List.append_of_mem memberOther with ⟨front', back', split'⟩
  have here := (linked front row back split).1
  have there := (linked front' other back' split').1
  have both : front ++ row :: back = front' ++ other :: back' :=
    split.symm.trans split'
  have tails := List.append_inj_right both (by omega)
  exact List.head_eq_of_cons_eq tails

/-- The table which holds rows which calls have appended. -/
def tableOf (chained : Chained sha256 rows) : EventTable where
  rows := rows
  ids := chained.ids
  places := by
    refine List.Nodup.map_on (fun row inside other within same => ?_)
      chained.ids.of_map
    have parts := Prod.ext_iff.mp same
    exact eq_of_place chained inside within parts.1 parts.2

theorem listDomainEvents_tableOf (chained : Chained sha256 rows)
    (tenantId : String) :
    listDomainEvents (tableOf chained) tenantId = eventsOf rows tenantId := by
  have linked := chained.linked tenantId
  have numbers := (numbered_iff_map (eventsOf rows tenantId)).mp
    fun front row back split => (linked front row back split).1
  have sorted : ((eventsOf rows tenantId).map
      EventRow.eventSequence).Pairwise (· ≤ ·) := by
    rw [numbers, List.pairwise_map]
    exact List.pairwise_lt_range.imp fun less => by omega
  rw [List.pairwise_map] at sorted
  exact sorted.insertionSort_eq

theorem audit_accepts_history (sha256 : String → String)
    (calls : List AppendCall) (tenantId : String) :
    (verifyDomainEventIntegrity sha256
      (tableOf (chained_history sha256 calls)) tenantId).ok = true := by
  rw [verifyDomainEventIntegrity_ok_iff, listDomainEvents_tableOf]
  exact (chained_history sha256 calls).linked tenantId

theorem append_repeated {calls later : List AppendCall} {call : AppendCall}
    {appended : AppendedRow}
    (succeeded : appendEventRow sha256 call.principals
      (history sha256 calls) call.input = .ok appended)
    {principals : List Principal}
    (known : requireTenantRecord principals call.input.actorPrincipalId
      call.input.tenantId = .ok ()) :
    appendEventRow sha256 principals
        (history sha256 (calls ++ call :: later)) call.input =
      .ok
        { row := appended.row
          inserted := false
          rows := history sha256 (calls ++ call :: later) } := by
  rcases stored_of_append succeeded with ⟨found, same⟩
  have behind : history sha256 (calls ++ call :: later) =
      Run.run (AppendCall.step sha256) appended.rows later := by
    rw [history, Run.run_append, Run.run_cons]
    congr 1
    rw [AppendCall.step]
    rw [history] at succeeded
    rw [succeeded]
  rw [appendEventRow_eq_ok]
  refine ⟨known, Or.inl ⟨appended.row, ?_, same, rfl⟩⟩
  rw [behind]
  exact rowByKey_of_prefix (prefix_run sha256 appended.rows later) found

end Logs

def sampleCall (id tenantId : String) : AppendCall where
  principals := [{ id := "p1", tenantId := tenantId, kind := .service
                   revokedAt := none }]
  input :=
    { id := id
      tenantId := tenantId
      schemaVersion := 1
      eventType := "mission.created"
      aggregateType := "mission"
      aggregateId := "m1"
      actorPrincipalId := "p1"
      correlationId := "c1"
      causationId := none
      idempotencyKey := "k1"
      payloadJson := "[1.5]"
      createdAt := "2026-01-01T00:00:00.000Z" }

end Mendpoint.Trust
