import Mendpoint.Library.CanonicalJson
import Mendpoint.Trust.EventAudit

/-!
# Tamper evidence of domain events

The last hash of a log which its audit accepts determines every column of every
event but one: the id of an event is stored beside its hash and not within it.
-/

namespace Mendpoint.Trust

open Mendpoint.Library
open Mendpoint.Library.HashChain

/-! ## What a hash determines -/

theorem writtenText_injective : Function.Injective writtenText := by
  intro left right same
  cases left with
  | none =>
    cases right with
    | none => rfl
    | some text => cases same
  | some text =>
    cases right with
    | none => cases same
    | some other =>
      cases same
      rfl

/-- Two events differ at most in their ids. -/
def SameButId (row other : EventRow) : Prop :=
  { row with id := other.id } = other

theorem sameButId_of_valid {sha256 : String → String}
    (collisionFree : Function.Injective sha256)
    {before before' : Option String} {index index' : Nat}
    {row other : EventRow} (here : row.Valid sha256 before index)
    (there : other.Valid sha256 before' index')
    (same : row.eventHash = other.eventHash) :
    before = before' ∧ SameButId row other := by
  rcases here with ⟨_, previous, payload, hashed⟩
  rcases there with ⟨_, previousOther, payloadOther, hashedOther⟩
  have hashes := hashed.symm.trans (same.trans hashedOther)
  have contents := Written.stringify_injective (collisionFree hashes)
  simp only [Written.obj.injEq, List.cons.injEq, Prod.mk.injEq, true_and,
    and_true, Written.str.injEq, Written.int.injEq,
    writtenText_injective.eq_iff] at contents
  rcases contents with ⟨tenantId, sequence, schemaVersion, eventType,
    aggregateType, aggregateId, actor, correlation, causation, idempotency,
    payloads, previouses, created⟩
  have payloadJson := collisionFree payloads
  refine ⟨previouses, ?_⟩
  rw [SameButId]
  cases row
  cases other
  simp only [EventRow.mk.injEq] at *
  refine ⟨trivial, tenantId, sequence, schemaVersion, eventType,
    aggregateType, aggregateId, actor, correlation, causation, idempotency,
    payloadJson, ?_, ?_, same, created⟩
  · rw [payload, payloadOther, payloadJson]
  · rw [previous, previousOther, previouses]

theorem eq_of_sameButId {rows others : List EventRow}
    (same : List.Forall₂ SameButId rows others)
    (ids : rows.map EventRow.id = others.map EventRow.id) :
    rows = others := by
  induction same with
  | nil => rfl
  | cons first rest inductionHypothesis =>
    rw [List.map_cons, List.map_cons, List.cons.injEq] at ids
    rw [SameButId, ← ids.1] at first
    rw [← inductionHypothesis ids.2, ← first]

/-! ## Two contents of a log -/

/-- The event of a tenant under an id. -/
def eventById (table : EventTable) (tenantId id : String) :
    Option EventRow :=
  table.rows.find? fun row =>
    decide (row.tenantId = tenantId ∧ row.id = id)

theorem eventById_eq_some {table : EventTable} {tenantId id : String}
    {row : EventRow} :
    eventById table tenantId id = some row ↔
      row ∈ listDomainEvents table tenantId ∧ row.id = id := by
  rw [mem_listDomainEvents, eventById, Table.find?_eq_some_iff,
    decide_eq_true_iff, and_assoc]
  intro one inside other within chosen alsoChosen
  exact Table.eq_of_key table.ids inside within
    ((of_decide_eq_true chosen).2.trans (of_decide_eq_true alsoChosen).2.symm)

/-- Two contents of a tenant's log are the same, also where one looks it up. -/
structure SameLog (sha256 : String → String) (table other : EventTable)
    (tenantId : String) : Prop where
  rows : listDomainEvents table tenantId = listDomainEvents other tenantId
  lookups : ∀ id row, eventById other tenantId id = some row →
    (verifyDomainEventRecordIntegrity sha256 other tenantId id).ok = true →
      eventById table tenantId id = some row

/--
Two audited contents of a log with one last hash are the same exactly when
their events have the same ids in order.
-/
theorem sameLog_iff_ids (sha256 : String → String)
    (collisionFree : Function.Injective sha256) (table other : EventTable)
    (tenantId : String)
    (verified : (verifyDomainEventIntegrity sha256 table tenantId).ok = true)
    (verifiedOther :
      (verifyDomainEventIntegrity sha256 other tenantId).ok = true)
    (last : lastHash EventRow.eventHash (listDomainEvents table tenantId) =
      lastHash EventRow.eventHash (listDomainEvents other tenantId)) :
    SameLog sha256 table other tenantId ↔
      (listDomainEvents table tenantId).map EventRow.id =
        (listDomainEvents other tenantId).map EventRow.id := by
  constructor
  · exact fun same => congrArg (List.map EventRow.id) same.rows
  · intro ids
    have determined : ∀ (before before' : Option String)
        (index index' : Nat) (row other : EventRow),
        row.Valid sha256 before index → other.Valid sha256 before' index' →
        row.eventHash = other.eventHash →
        before = before' ∧ SameButId row other :=
      fun _ _ _ _ _ _ here there same =>
        sameButId_of_valid collisionFree here there same
    have related := forall₂_of_lastHash determined
      (verifyDomainEventIntegrity_ok_iff.mp verified)
      (verifyDomainEventIntegrity_ok_iff.mp verifiedOther) last
    have rows := eq_of_sameButId related ids
    refine ⟨rows, fun id row found _ => ?_⟩
    rw [eventById_eq_some] at found ⊢
    rw [rows]
    exact found

/-! ## A log under another id -/

/-- The first event of a tenant, under an id. -/
def sampleRow (id : String) : EventRow :=
  let row : EventRow :=
    { id := id
      tenantId := "tenant"
      eventSequence := 1
      schemaVersion := 1
      eventType := "mission.created"
      aggregateType := "mission"
      aggregateId := "mission"
      actorPrincipalId := "principal"
      correlationId := "correlation"
      causationId := none
      idempotencyKey := "key"
      payloadJson := "null"
      payloadSha256 := "null"
      prevHash := none
      eventHash := ""
      createdAt := "2026-01-01T00:00:00.000Z" }
  { row with eventHash := row.expectedHash (fun text => text) "null" none }

def sampleTable (id : String) : EventTable where
  rows := [sampleRow id]
  ids := List.nodup_singleton _
  places := List.nodup_singleton _

theorem listDomainEvents_sample (id : String) :
    listDomainEvents (sampleTable id) "tenant" = [sampleRow id] := rfl

theorem sampleTable_verified (id : String) :
    (verifyDomainEventIntegrity (fun text => text) (sampleTable id)
      "tenant").ok = true := by
  rw [verifyDomainEventIntegrity_ok_iff, listDomainEvents_sample]
  exact linked_append_singleton.mpr
    ⟨linked_nil, rfl, rfl, rfl, rfl⟩

theorem sampleTable_lastHash (id other : String) :
    lastHash EventRow.eventHash
        (listDomainEvents (sampleTable id) "tenant") =
      lastHash EventRow.eventHash
        (listDomainEvents (sampleTable other) "tenant") := rfl

theorem sameLog_sample :
    SameLog (fun text => text) (sampleTable "event") (sampleTable "event")
        "tenant" ↔
      (listDomainEvents (sampleTable "event") "tenant").map EventRow.id =
        (listDomainEvents (sampleTable "event") "tenant").map EventRow.id :=
  sameLog_iff_ids (fun text => text) (fun _ _ same => same)
    (sampleTable "event") (sampleTable "event") "tenant"
    (sampleTable_verified "event") (sampleTable_verified "event") rfl

/-- An event may be stored under another id. -/
theorem other_id_verified :
    ¬ ∀ (sha256 : String → String) (table other : EventTable)
        (tenantId : String), Function.Injective sha256 →
      (verifyDomainEventIntegrity sha256 table tenantId).ok = true →
      (verifyDomainEventIntegrity sha256 other tenantId).ok = true →
      (listDomainEvents table tenantId).length =
        (listDomainEvents other tenantId).length →
      lastHash EventRow.eventHash (listDomainEvents table tenantId) =
        lastHash EventRow.eventHash (listDomainEvents other tenantId) →
      SameLog sha256 table other tenantId := by
  intro claimed
  have same := claimed (fun text => text) (sampleTable "event")
    (sampleTable "forged") "tenant" (fun _ _ equal => equal)
    (sampleTable_verified "event") (sampleTable_verified "forged") rfl
    (sampleTable_lastHash "event" "forged")
  have ids := congrArg (List.map EventRow.id) same.rows
  exact absurd (show ["event"] = ["forged"] from ids) (by decide)

end Mendpoint.Trust
