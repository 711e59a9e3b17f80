import Mendpoint.Library.Counting
import Mendpoint.Library.Succession
import Mendpoint.Usage.Audit
import Mendpoint.Library.Fallible
import Mendpoint.Usage.Operations

/-!
# Insertions into the ledger

What the insertion of an entry does, and the hash chain of a tenant: its
entries are numbered from one on in the order of their insertions, so that the
queries which order them change nothing.
-/

namespace Mendpoint.Usage

open Mendpoint.Library
open Mendpoint.Library.Attempt
open Mendpoint.Library.FilteredSum
open Mendpoint.Library.HashChain

/-- The database with one more entry. -/
def UsageDb.withEntry (db : UsageDb) (row : UsageLedgerEntry) : UsageDb :=
  { db with entries := db.entries ++ [row] }

@[simp]
theorem entries_withEntry (db : UsageDb) (row : UsageLedgerEntry) :
    (db.withEntry row).entries = db.entries ++ [row] := rfl

/-- An entry may be written from an input. -/
structure Fresh (runtime : Runtime) (db : UsageDb) (input : EntryInput) :
    Prop where
  newKey : entryByKey db input.tenantId input.idempotencyKey = none
  allowed : entryConstraint db (nextRow runtime db input) = none

variable {row : UsageLedgerEntry}

theorem yields_insertRow {result : UsageLedgerEntry} {db after : UsageDb} :
    Yields (insertRow row) db result after ↔
      entryConstraint db row = none ∧ result = row ∧
        after = db.withEntry row := by
  rw [insertRow, yields_bind]
  constructor
  · rintro ⟨here, middle, got, rest⟩
    rcases yields_get.mp got with ⟨rfl, rfl⟩
    cases allowed : entryConstraint db row with
    | some failure =>
      rw [allowed] at rest
      exact absurd rest not_yields_throw
    | none =>
      rw [allowed] at rest
      rcases yields_bind.mp rest with ⟨_, middle, changed, last⟩
      have isAfter := yields_modify.mp changed
      rcases yields_pure.mp last with ⟨rfl, rfl⟩
      exact ⟨rfl, rfl, isAfter.symm⟩
  · rintro ⟨allowed, rfl, rfl⟩
    refine ⟨db, db, yields_get.mpr ⟨rfl, rfl⟩, ?_⟩
    rw [allowed]
    rfl

theorem yields_insertEntry {runtime : Runtime} {input : EntryInput}
    {db after : UsageDb} :
    Yields (insertEntry runtime input) db row after ↔
      (entryByKey db input.tenantId input.idempotencyKey = some row ∧
          Repeats input row ∧ after = db) ∨
        (Fresh runtime db input ∧ row = nextRow runtime db input ∧
          after = db.withEntry row) := by
  rw [insertEntry, yields_bind]
  constructor
  · rintro ⟨here, middle, got, rest⟩
    rcases yields_get.mp got with ⟨rfl, rfl⟩
    cases found : entryByKey db input.tenantId input.idempotencyKey with
    | some there =>
      rw [found] at rest
      rcases yields_bind.mp rest with ⟨_, middle, checked, last⟩
      rcases yields_lift.mp checked with ⟨repeats, rfl⟩
      rcases yields_pure.mp last with ⟨rfl, rfl⟩
      rw [rejectIf_eq_ok, not_not] at repeats
      exact .inl ⟨rfl, repeats, rfl⟩
    | none =>
      rw [found] at rest
      rcases yields_insertRow.mp rest with ⟨allowed, rfl, rfl⟩
      exact .inr ⟨⟨found, allowed⟩, rfl, rfl⟩
  · rintro (⟨found, repeats, rfl⟩ | ⟨fresh, rfl, rfl⟩)
    · refine ⟨after, after, yields_get.mpr ⟨rfl, rfl⟩, ?_⟩
      rw [found]
      refine yields_bind.mpr ⟨⟨⟩, after, yields_lift.mpr ⟨?_, rfl⟩, rfl⟩
      rw [rejectIf_eq_ok, not_not]
      exact repeats
    · refine ⟨db, db, yields_get.mpr ⟨rfl, rfl⟩, ?_⟩
      rw [fresh.newKey]
      exact yields_insertRow.mpr ⟨fresh.allowed, rfl, rfl⟩

/-! ## What a constraint has checked -/

theorem newId_of_allowed {db : UsageDb}
    (allowed : entryConstraint db row = none) :
    ∀ entry ∈ db.entries, entry.id ≠ row.id := by
  rw [entryConstraint] at allowed
  split at allowed
  · cases allowed
  · next new =>
      intro entry member same
      exact new ⟨entry, member, same⟩

/-! ## The order of a tenant's entries -/

namespace Chained

variable {runtime : Runtime} {db : UsageDb}

end Chained

end Mendpoint.Usage

/-!
## What the operations do

For every operation of the ledger, what it has checked where it succeeds and
what it has written; and that it has written nothing where it fails.
-/

namespace Mendpoint.Usage

open Mendpoint.Library
open Mendpoint.Library.Attempt

/-! ## Checks -/

theorem micros_eq_ok {name : String} {value result : Int}
    {allowNegative : Bool} :
    micros name value allowNegative = .ok result ↔
      SafeInteger.Safe value ∧ (allowNegative = false → 0 ≤ value) ∧
        value = result := by
  rw [micros]
  split
  · next bad =>
      constructor
      · intro impossible
        cases impossible
      · rintro ⟨safe, nonneg, _⟩
        rcases bad with unsafe' | ⟨strict, negative⟩
        · exact absurd safe unsafe'
        · exact absurd (nonneg strict) (not_le.mpr negative)
  · next good =>
      rw [not_or, not_not, not_and] at good
      constructor
      · intro same
        cases same
        exact ⟨good.1, fun strict => not_lt.mp (good.2 strict), rfl⟩
      · rintro ⟨_, _, rfl⟩
        rfl

theorem readNumber_eq_ok {value result : Int} :
    readNumber value = .ok result ↔
      SafeInteger.Safe value ∧ value = result := by
  rw [readNumber]
  split
  · next safe =>
      constructor
      · intro same
        cases same
        exact ⟨safe, rfl⟩
      · rintro ⟨_, rfl⟩
        rfl
  · next unsafe' =>
      constructor
      · intro impossible
        cases impossible
      · rintro ⟨safe, _⟩
        exact absurd safe unsafe'

variable {db : UsageDb} {tenantId : String} {runtime : Runtime}
  {after : UsageDb} {row : UsageLedgerEntry}
  {finance : UsageFinanceAuthorization} {entitlement : UsageEntitlement}

theorem currentTotals_eq {entitlementId : String} {totals : Totals}
    (read : currentTotals db tenantId entitlementId = .ok totals) :
    totals.reserved =
        reservedSum (entitlementEntries db tenantId entitlementId) ∧
      totals.consumed =
        consumedSum (entitlementEntries db tenantId entitlementId) := by
  rw [currentTotals, Fallible.bind_eq_ok] at read
  rcases read with ⟨reserved, readReserved, rest⟩
  rcases Fallible.bind_eq_ok.mp rest with ⟨consumed, readConsumed, rest⟩
  rcases Fallible.bind_eq_ok.mp rest with ⟨credited, _, last⟩
  cases Fallible.pure_eq_ok.mp last
  exact ⟨(readNumber_eq_ok.mp readReserved).2.symm,
    (readNumber_eq_ok.mp readConsumed).2.symm⟩

/-! ## Reservations -/

/-- The checks of a reservation under an entitlement. -/
structure ReserveChecks (runtime : Runtime) (db : UsageDb)
    (input : ReserveInput) (entitlement : UsageEntitlement) : Prop where
  safe : SafeInteger.Safe input.mcuMicros
  positive : 0 < input.mcuMicros
  active : getActiveUsageEntitlement runtime db input.tenantId
    input.createdAt = .ok (some entitlement)
  prepared : prepareEntry runtime db (input.entry entitlement) = .ok ()

/-- There is room for an amount under an entitlement. -/
def Room (db : UsageDb) (tenantId : String) (entitlement : UsageEntitlement)
    (amount : Int) : Prop :=
  ∃ totals, currentTotals db tenantId entitlement.id = .ok totals ∧
    totals.reserved + totals.consumed + amount ≤ entitlement.quotaMcuMicros

theorem yields_reserveUsage {input : ReserveInput} :
    Yields (reserveUsage runtime input) db row after ↔
      ∃ entitlement, ReserveChecks runtime db input entitlement ∧
        (entryByKey db input.tenantId input.idempotencyKey = none →
          Room db input.tenantId entitlement input.mcuMicros) ∧
        Yields (insertEntry runtime (input.entry entitlement)) db row
          after := by
  rw [reserveUsage, yields_lift_bind]
  constructor
  · rintro ⟨amount, isAmount, rest⟩
    rcases micros_eq_ok.mp isAmount with ⟨safe, nonneg, rfl⟩
    rw [yields_lift_bind] at rest
    rcases rest with ⟨_, notEmpty, rest⟩
    rw [rejectIf_eq_ok] at notEmpty
    rw [yields_transaction, yields_get_bind] at rest
    rw [yields_lift_bind] at rest
    rcases rest with ⟨active, isActive, rest⟩
    rw [yields_lift_bind] at rest
    rcases rest with ⟨entitlement, demanded, rest⟩
    cases demand_eq_ok.mp demanded
    rw [yields_lift_bind] at rest
    rcases rest with ⟨_, prepared, rest⟩
    have positive : 0 < input.mcuMicros :=
      lt_of_le_of_ne (nonneg rfl) (Ne.symm notEmpty)
    refine ⟨entitlement, ⟨safe, positive, isActive, prepared⟩, ?_⟩
    cases found : entryByKey db input.tenantId input.idempotencyKey with
    | some there =>
      rw [found] at rest
      exact ⟨nofun, rest⟩
    | none =>
      rw [found] at rest
      rw [yields_lift_bind] at rest
      rcases rest with ⟨totals, read, rest⟩
      rw [yields_lift_bind] at rest
      rcases rest with ⟨_, fits, rest⟩
      rw [rejectIf_eq_ok, not_lt] at fits
      exact ⟨fun _ => ⟨totals, read, fits⟩, rest⟩
  · rintro ⟨entitlement, checks, room, inserted⟩
    refine ⟨input.mcuMicros, micros_eq_ok.mpr
      ⟨checks.safe, fun _ => Int.le_of_lt checks.positive, rfl⟩, ?_⟩
    refine yields_lift_bind.mpr ⟨⟨⟩, ?_, ?_⟩
    · rw [rejectIf_eq_ok]
      exact Int.ne_of_gt checks.positive
    rw [yields_transaction, yields_get_bind]
    refine yields_lift_bind.mpr ⟨_, checks.active, ?_⟩
    refine yields_lift_bind.mpr ⟨entitlement, demand_eq_ok.mpr rfl, ?_⟩
    refine yields_lift_bind.mpr ⟨⟨⟩, checks.prepared, ?_⟩
    cases found : entryByKey db input.tenantId input.idempotencyKey with
    | some there => exact inserted
    | none =>
      rcases room found with ⟨totals, read, fits⟩
      refine yields_lift_bind.mpr ⟨totals, read, ?_⟩
      refine yields_lift_bind.mpr ⟨⟨⟩, ?_, inserted⟩
      rw [rejectIf_eq_ok, not_lt]
      exact fits

/-! ## Settlements and releases -/

/-- A reservation and what is taken back from it. -/
structure ReservationState (db : UsageDb)
    (tenantId idempotencyKey reservationId : String)
    (reservation : UsageLedgerEntry) (outstanding : Int) : Prop where
  record : reservationRecord db tenantId reservationId = .ok reservation
  again : ∀ existing, entryByKey db tenantId idempotencyKey = some existing →
    outstanding = -existing.reservedMcuMicrosDelta
  first : entryByKey db tenantId idempotencyKey = none →
    outstanding = reservedSum (holdEntries db tenantId reservationId) ∧
      SafeInteger.Safe outstanding ∧ 0 < outstanding

theorem reservationState_eq_ok {idempotencyKey reservationId : String}
    {reservation : UsageLedgerEntry} {outstanding : Int} :
    reservationState db tenantId idempotencyKey reservationId =
        .ok (reservation, outstanding) ↔
      ReservationState db tenantId idempotencyKey reservationId reservation
        outstanding := by
  rw [reservationState, Fallible.bind_eq_ok]
  constructor
  · rintro ⟨found, record, rest⟩
    cases key : entryByKey db tenantId idempotencyKey with
    | some existing =>
      rw [key] at rest
      cases Fallible.pure_eq_ok.mp rest
      refine ⟨record, ?_, ?_⟩
      · intro other same
        rw [key] at same
        cases same
        rfl
      · intro missing
        rw [key] at missing
        cases missing
    | none =>
      rw [key, outstandingReservation, Fallible.bind_eq_ok] at rest
      rcases rest with ⟨again, recorded, rest⟩
      rcases Fallible.bind_eq_ok.mp rest with ⟨total, read, rest⟩
      rcases readNumber_eq_ok.mp read with ⟨safe, rfl⟩
      rcases Fallible.bind_eq_ok.mp rest with ⟨_, notClosed, last⟩
      rw [rejectIf_eq_ok, not_le] at notClosed
      cases Fallible.pure_eq_ok.mp last
      refine ⟨recorded, ?_, fun _ => ⟨rfl, safe, notClosed⟩⟩
      intro other same
      rw [key] at same
      cases same
  · intro state
    refine ⟨reservation, state.record, ?_⟩
    cases key : entryByKey db tenantId idempotencyKey with
    | some existing =>
      rw [state.again existing key]
      rfl
    | none =>
      rcases state.first key with ⟨rfl, safe, positive⟩
      rw [outstandingReservation, Fallible.bind_eq_ok]
      refine ⟨reservation, state.record, Fallible.bind_eq_ok.mpr
        ⟨_, readNumber_eq_ok.mpr ⟨safe, rfl⟩, ?_⟩⟩
      refine Fallible.bind_eq_ok.mpr ⟨⟨⟩, ?_, rfl⟩
      rw [rejectIf_eq_ok, not_le]
      exact positive

/-- The checks of an entry which closes a reservation. -/
structure CloseChecks (runtime : Runtime) (db : UsageDb) (request : Request)
    (entryType : UsageEntryType) (reservationId : String)
    (reservation : UsageLedgerEntry) (outstanding consumed : Int)
    (consumptionProvenance : Option String) : Prop where
  state : ReservationState db request.tenantId request.idempotencyKey
    reservationId reservation outstanding
  prepared : prepareEntry runtime db (request.closing entryType reservation
    reservationId outstanding consumed consumptionProvenance) = .ok ()

theorem yields_settleUsageReservation {input : SettleInput} :
    Yields (settleUsageReservation runtime input) db row after ↔
      ∃ consumptionProvenance reservation outstanding,
        SafeInteger.Safe input.actualMcuMicros ∧
        0 ≤ input.actualMcuMicros ∧
        settlementProvenance input.consumption =
          .ok consumptionProvenance ∧
        (entryByKey db input.tenantId input.idempotencyKey = none →
          input.actualMcuMicros ≤ outstanding) ∧
        CloseChecks runtime db input.toRequest .settlement
          input.reservationId reservation outstanding input.actualMcuMicros
          (some consumptionProvenance) ∧
        Yields (insertEntry runtime (input.toRequest.closing .settlement
          reservation input.reservationId outstanding input.actualMcuMicros
          (some consumptionProvenance))) db row after := by
  rw [settleUsageReservation, yields_lift_bind]
  constructor
  · rintro ⟨actual, isAmount, rest⟩
    rcases micros_eq_ok.mp isAmount with ⟨safe, nonneg, rfl⟩
    rw [yields_lift_bind] at rest
    rcases rest with ⟨provenance, declared, rest⟩
    rw [yields_transaction, yields_get_bind] at rest
    rw [yields_lift_bind] at rest
    rcases rest with ⟨⟨reservation, outstanding⟩, stated, rest⟩
    rw [yields_lift_bind] at rest
    rcases rest with ⟨_, fits, rest⟩
    rw [rejectIf_eq_ok, not_and, not_lt] at fits
    rw [yields_lift_bind] at rest
    rcases rest with ⟨_, prepared, inserted⟩
    exact ⟨provenance, reservation, outstanding, safe, nonneg rfl, declared,
      fits, ⟨reservationState_eq_ok.mp stated, prepared⟩, inserted⟩
  · rintro ⟨provenance, reservation, outstanding, safe, nonneg, declared,
      fits, checks, inserted⟩
    refine ⟨input.actualMcuMicros, micros_eq_ok.mpr
      ⟨safe, fun _ => nonneg, rfl⟩, ?_⟩
    refine yields_lift_bind.mpr ⟨provenance, declared, ?_⟩
    rw [yields_transaction, yields_get_bind]
    refine yields_lift_bind.mpr ⟨(reservation, outstanding),
      reservationState_eq_ok.mpr checks.state, ?_⟩
    refine yields_lift_bind.mpr ⟨⟨⟩, ?_, ?_⟩
    · rw [rejectIf_eq_ok, not_and, not_lt]
      exact fits
    exact yields_lift_bind.mpr ⟨⟨⟩, checks.prepared, inserted⟩

theorem yields_releaseUsageReservation {input : ReleaseInput} :
    Yields (releaseUsageReservation runtime input) db row after ↔
      ∃ reservation outstanding,
        CloseChecks runtime db input.toRequest .release input.reservationId
          reservation outstanding 0 input.consumptionProvenance ∧
        Yields (insertEntry runtime (input.toRequest.closing .release
          reservation input.reservationId outstanding 0
          input.consumptionProvenance)) db row after := by
  rw [releaseUsageReservation, yields_transaction, yields_get_bind,
    yields_lift_bind]
  constructor
  · rintro ⟨⟨reservation, outstanding⟩, stated, rest⟩
    rw [yields_lift_bind] at rest
    rcases rest with ⟨_, prepared, inserted⟩
    exact ⟨reservation, outstanding,
      ⟨reservationState_eq_ok.mp stated, prepared⟩, inserted⟩
  · rintro ⟨reservation, outstanding, checks, inserted⟩
    refine ⟨(reservation, outstanding),
      reservationState_eq_ok.mpr checks.state, ?_⟩
    exact yields_lift_bind.mpr ⟨⟨⟩, checks.prepared, inserted⟩

/-! ## Signed changes -/

theorem yields_signedUsageChange {input : SignedInput}
    {entryType : UsageEntryType} :
    Yields (signedUsageChange runtime input entryType) db row after ↔
      ∃ claim finance, claimed input entryType = .ok claim ∧
        authorizationById db input.tenantId claim.financeAuthorizationId =
          some finance ∧
        Binds runtime finance input entryType claim ∧
        ((entryByKey db input.tenantId input.idempotencyKey = some row ∧
            ExactReplay runtime db finance input entryType claim row ∧
            after = db) ∨
          (entryByKey db input.tenantId input.idempotencyKey = none ∧
            Yields (commitSigned runtime input entryType claim finance) db
              row after)) := by
  rw [signedUsageChange, yields_lift_bind]
  constructor
  · rintro ⟨claim, isClaim, rest⟩
    rw [yields_transaction, yields_get_bind, yields_lift_bind] at rest
    rcases rest with ⟨finance, isFinance, rest⟩
    rw [yields_lift_bind] at rest
    rcases rest with ⟨_, binds, rest⟩
    rw [rejectIf_eq_ok, not_not] at binds
    refine ⟨claim, finance, isClaim, demand_eq_ok.mp isFinance, binds, ?_⟩
    cases found : entryByKey db input.tenantId input.idempotencyKey with
    | some committed =>
      rw [found] at rest
      rcases yields_lift_bind.mp rest with ⟨_, replay, last⟩
      rw [rejectIf_eq_ok, not_not] at replay
      rcases yields_pure.mp last with ⟨rfl, rfl⟩
      exact .inl ⟨rfl, replay, rfl⟩
    | none =>
      rw [found] at rest
      exact .inr ⟨rfl, rest⟩
  · rintro ⟨claim, finance, isClaim, isFinance, binds, cases'⟩
    refine ⟨claim, isClaim, ?_⟩
    rw [yields_transaction, yields_get_bind]
    refine yields_lift_bind.mpr ⟨finance, demand_eq_ok.mpr isFinance, ?_⟩
    refine yields_lift_bind.mpr ⟨⟨⟩, ?_, ?_⟩
    · rw [rejectIf_eq_ok, not_not]
      exact binds
    rcases cases' with ⟨found, replay, rfl⟩ | ⟨found, committed⟩
    · rw [found]
      refine yields_lift_bind.mpr ⟨⟨⟩, ?_, yields_pure.mpr ⟨rfl, rfl⟩⟩
      rw [rejectIf_eq_ok, not_not]
      exact replay
    · rw [found]
      exact committed

/-- What is decided about a signed change before its first entry. -/
structure SignedPlan (runtime : Runtime) (db : UsageDb) (input : SignedInput)
    (entryType : UsageEntryType) (claim : Claimed)
    (finance : UsageFinanceAuthorization) where
  found : List InvoiceAllocation
  selected : Selected
  entitlement : UsageEntitlement
  open_ : finance.consumedEntryId = none
  isFound : invoiceAllocationsFor db input.tenantId claim.invoiceReference
    none = .ok found
  isSelected : selectAllocation entryType claim finance found = .ok selected
  isEntitlement : entitlementById db input.tenantId selected.entitlementId =
    some entitlement
  notNegative : 0 ≤ consumedSum
    (entitlementEntries db input.tenantId entitlement.id) +
      selected.firstDelta
  fits : 0 < claim.delta →
    reservedSum (entitlementEntries db input.tenantId entitlement.id) +
      (consumedSum (entitlementEntries db input.tenantId entitlement.id) +
        selected.firstDelta) ≤ entitlement.quotaMcuMicros
  prepared : prepareEntry runtime db (input.entry entryType claim entitlement
    selected.firstDelta) = .ok ()

/-- What a signed change writes after its plan. -/
structure SignedWrites (runtime : Runtime) (db : UsageDb)
    (input : SignedInput) (entryType : UsageEntryType) (claim : Claimed)
    (finance : UsageFinanceAuthorization) (row : UsageLedgerEntry)
    (after : UsageDb)
    (plan : SignedPlan runtime db input entryType claim finance) where
  written : UsageDb
  derived : List EntryInput
  finished : UsageDb
  root : Yields (insertEntry runtime (input.entry entryType claim
    plan.entitlement plan.selected.firstDelta)) db row written
  isDerived : derivedEntries runtime written input claim
    plan.selected.portions = .ok derived
  inserted : Yields (insertDerived runtime derived) written () finished
  consumed : Yields (consume finance input.tenantId input.createdAt row.id)
    finished () after

theorem plan_of_commitSigned {input : SignedInput}
    {entryType : UsageEntryType} {claim : Claimed}
    (committed : Yields (commitSigned runtime input entryType claim finance)
      db row after) :
    ∃ plan : SignedPlan runtime db input entryType claim finance,
      Nonempty (SignedWrites runtime db input entryType claim finance row
        after plan) := by
  rw [commitSigned, yields_get_bind, yields_lift_bind] at committed
  rcases committed with ⟨occurredAtMs, _, rest⟩
  rw [yields_lift_bind] at rest
  rcases rest with ⟨approvedAtMs, _, rest⟩
  rw [yields_lift_bind] at rest
  rcases rest with ⟨_, _, rest⟩
  rw [yields_lift_bind] at rest
  rcases rest with ⟨expiresAtMs, _, rest⟩
  rw [yields_lift_bind] at rest
  rcases rest with ⟨_, _, rest⟩
  rw [yields_lift_bind] at rest
  rcases rest with ⟨_, _, rest⟩
  rw [yields_lift_bind] at rest
  rcases rest with ⟨_, _, rest⟩
  rw [yields_lift_bind] at rest
  rcases rest with ⟨_, isOpen, rest⟩
  rw [rejectIf_eq_ok, not_not] at isOpen
  rw [yields_lift_bind] at rest
  rcases rest with ⟨found, isFound, rest⟩
  rw [yields_lift_bind] at rest
  rcases rest with ⟨selected, isSelected, rest⟩
  rw [yields_lift_bind] at rest
  rcases rest with ⟨entitlement, demanded, rest⟩
  rw [yields_lift_bind] at rest
  rcases rest with ⟨totals, read, rest⟩
  rcases currentTotals_eq read with ⟨reserved, consumed⟩
  rw [yields_lift_bind] at rest
  rcases rest with ⟨_, notNegative, rest⟩
  rw [rejectIf_eq_ok, not_lt, consumed] at notNegative
  rw [yields_lift_bind] at rest
  rcases rest with ⟨_, fits, rest⟩
  rw [rejectIf_eq_ok, not_and, not_lt, reserved, consumed] at fits
  rw [yields_lift_bind] at rest
  rcases rest with ⟨_, prepared, rest⟩
  rw [yields_bind] at rest
  rcases rest with ⟨result, written, root, rest⟩
  rw [yields_get_bind, yields_lift_bind] at rest
  rcases rest with ⟨derived, isDerived, rest⟩
  rw [yields_bind] at rest
  rcases rest with ⟨_, finished, inserted, rest⟩
  rw [yields_bind] at rest
  rcases rest with ⟨_, last, consumed', rest⟩
  rcases yields_pure.mp rest with ⟨rfl, rfl⟩
  refine ⟨⟨found, selected, entitlement, isOpen, isFound, isSelected,
    demand_eq_ok.mp demanded, notNegative, fits, prepared⟩, ⟨?_⟩⟩
  exact ⟨written, derived, finished, root, isDerived, inserted, consumed'⟩

theorem yields_insertDerived_cons {derived : EntryInput}
    {rest : List EntryInput} :
    Yields (insertDerived runtime (derived :: rest)) db () after ↔
      ∃ row middle, prepareEntry runtime db derived = .ok () ∧
        Yields (insertEntry runtime derived) db row middle ∧
        Yields (insertDerived runtime rest) middle () after := by
  rw [insertDerived, yields_get_bind, yields_lift_bind]
  constructor
  · rintro ⟨_, prepared, later⟩
    rw [yields_bind] at later
    rcases later with ⟨row, middle, inserted, others⟩
    exact ⟨row, middle, prepared, inserted, others⟩
  · rintro ⟨row, middle, prepared, inserted, others⟩
    exact ⟨⟨⟩, prepared, yields_bind.mpr ⟨row, middle, inserted, others⟩⟩

/-- An authorization which a call may consume. -/
def Unconsumed (finance : UsageFinanceAuthorization) (tenantId : String)
    (other : UsageFinanceAuthorization) : Bool :=
  decide (other.id = finance.id ∧ other.tenantId = tenantId ∧
    other.consumedAt = none ∧ other.consumedEntryId = none)

/-- The authorizations after one of them was consumed. -/
def consumedBy (finance : UsageFinanceAuthorization)
    (tenantId createdAt entryId : String)
    (other : UsageFinanceAuthorization) : UsageFinanceAuthorization :=
  if Unconsumed finance tenantId other then
    { other with
      consumedAt := some createdAt
      consumedEntryId := some entryId }
  else other

theorem yields_consume {createdAt entryId : String} :
    Yields (consume finance tenantId createdAt entryId) db () after ↔
      db.authorizations.countP (Unconsumed finance tenantId) = 1 ∧
        after = { db with
          authorizations := db.authorizations.map
            (consumedBy finance tenantId createdAt entryId) } := by
  rw [consume, yields_get_bind, yields_lift_bind]
  constructor
  · rintro ⟨_, once, last⟩
    rw [rejectIf_eq_ok, not_not] at once
    exact ⟨once, (yields_modify.mp last).symm⟩
  · rintro ⟨once, rfl⟩
    refine ⟨⟨⟩, ?_, yields_modify.mpr rfl⟩
    rw [rejectIf_eq_ok, not_not]
    exact once

/-! ## Creations -/

theorem yields_insertPrice {price created : UsagePriceVersion}
    (inserted : Yields (insertPrice price) db created after) :
    ∃ prices, after = { db with prices } := by
  rw [insertPrice, yields_get_bind] at inserted
  cases found : db.prices.find? fun current =>
      decide (current.id = price.id) with
  | some current =>
    rw [found] at inserted
    rcases yields_lift_bind.mp inserted with ⟨_, _, last⟩
    rcases yields_pure.mp last with ⟨rfl, rfl⟩
    exact ⟨db.prices, rfl⟩
  | none =>
    rw [found] at inserted
    rcases yields_lift_bind.mp inserted with ⟨_, _, rest⟩
    rcases yields_bind.mp rest with ⟨_, middle, changed, last⟩
    have isMiddle := yields_modify.mp changed
    rcases yields_pure.mp last with ⟨rfl, rfl⟩
    exact ⟨db.prices ++ [price], isMiddle.symm⟩

theorem yields_createUsagePriceVersion {input : PriceInput}
    {price : UsagePriceVersion}
    (created : Yields (createUsagePriceVersion runtime input) db price after) :
    ∃ prices, after = { db with prices } := by
  rw [createUsagePriceVersion] at created
  iterate 10
    rw [yields_lift_bind] at created
    rcases created with ⟨_, _, created⟩
  exact yields_insertPrice created

/-- A new entitlement. -/
structure EntitlementAdded (db after : UsageDb)
    (entitlement : UsageEntitlement) : Prop where
  newId : ∀ other ∈ db.entitlements, other.id ≠ entitlement.id
  notNegative : 0 ≤ entitlement.quotaMcuMicros
  isAfter : after =
    { db with entitlements := db.entitlements ++ [entitlement] }

theorem yields_insertEntitlement {created : UsageEntitlement}
    (notNegative : 0 ≤ entitlement.quotaMcuMicros)
    (inserted : Yields (insertEntitlement entitlement) db created after) :
    after = db ∨ EntitlementAdded db after created := by
  rw [insertEntitlement, yields_get_bind] at inserted
  cases found : db.entitlements.find? fun current =>
      decide (current.id = entitlement.id) with
  | some current =>
    rw [found] at inserted
    rcases yields_lift_bind.mp inserted with ⟨_, _, last⟩
    rcases yields_pure.mp last with ⟨rfl, rfl⟩
    exact .inl rfl
  | none =>
    rw [found] at inserted
    rcases yields_lift_bind.mp inserted with ⟨_, _, rest⟩
    rcases yields_bind.mp rest with ⟨_, middle, changed, last⟩
    have isMiddle := yields_modify.mp changed
    rcases yields_pure.mp last with ⟨rfl, rfl⟩
    refine .inr ⟨?_, notNegative, isMiddle.symm⟩
    intro other member same
    have missing := List.find?_eq_none.mp found other member
    exact missing (decide_eq_true same)

theorem yields_createUsageEntitlement {input : EntitlementInput}
    (created : Yields (createUsageEntitlement runtime input) db entitlement
      after) : after = db ∨ EntitlementAdded db after entitlement := by
  rw [createUsageEntitlement] at created
  iterate 3
    rw [yields_lift_bind] at created
    rcases created with ⟨_, _, created⟩
  rw [yields_get_bind, yields_lift_bind] at created
  rcases created with ⟨priceVersion, _, created⟩
  rw [yields_lift_bind] at created
  rcases created with ⟨quota, counted, created⟩
  rcases micros_eq_ok.mp counted with ⟨_, nonneg, rfl⟩
  iterate 9
    rw [yields_lift_bind] at created
    rcases created with ⟨_, _, created⟩
  exact yields_insertEntitlement (nonneg rfl)
    (yields_transaction.mp created)

/-- A new authorization, which is sealed and not consumed. -/
structure AuthorizationAdded (runtime : Runtime) (db after : UsageDb)
    (finance : UsageFinanceAuthorization) : Prop where
  newId : ∀ other ∈ db.authorizations, other.id ≠ finance.id
  financial : finance.entryType.Financial
  intended : finance.intentDigest =
    sha256 runtime (authorizationIntent finance)
  notConsumed : finance.consumedEntryId = none
  isAfter : after =
    { db with authorizations := db.authorizations ++ [finance] }

theorem newId_of_authorizationConstraint
    (allowed : authorizationConstraint db finance = none) :
    ∀ other ∈ db.authorizations, other.id ≠ finance.id := by
  rw [authorizationConstraint] at allowed
  split at allowed
  · cases allowed
  · next new =>
      intro other member same
      exact new ⟨other, member, same⟩

theorem yields_insertAuthorization {created : UsageFinanceAuthorization}
    (inserted : Yields (insertAuthorization finance) db created after) :
    authorizationConstraint db finance = none ∧ created = finance ∧
      after =
        { db with authorizations := db.authorizations ++ [finance] } := by
  rw [insertAuthorization, yields_get_bind] at inserted
  cases allowed : authorizationConstraint db finance with
  | some failure =>
    rw [allowed] at inserted
    exact absurd inserted not_yields_throw
  | none =>
    rw [allowed] at inserted
    rcases yields_bind.mp inserted with ⟨_, middle, changed, last⟩
    have isMiddle := yields_modify.mp changed
    rcases yields_pure.mp last with ⟨rfl, rfl⟩
    exact ⟨rfl, rfl, isMiddle.symm⟩

theorem financial_of_authorizationFields {input : AuthorizationInput}
    {fields : AuthorizationFields}
    (checked : authorizationFields runtime input = .ok fields) :
    input.entryType.Financial := by
  rw [authorizationFields, Fallible.bind_eq_ok] at checked
  rcases checked with ⟨_, financial, _⟩
  rw [rejectIf_eq_ok, not_not] at financial
  exact financial

theorem yields_createUsageFinanceAuthorization {input : AuthorizationInput}
    (created : Yields (createUsageFinanceAuthorization runtime input) db
      finance after) :
    after = db ∨ AuthorizationAdded runtime db after finance := by
  rw [createUsageFinanceAuthorization, yields_lift_bind] at created
  rcases created with ⟨fields, checked, rest⟩
  rw [yields_get_bind] at rest
  cases found : db.authorizations.find? fun finance =>
      decide (finance.tenantId = fields.tenantId ∧ (finance.id = fields.id ∨
        finance.entryIdempotencyKey = fields.entryIdempotencyKey)) with
  | some authorization =>
    rw [found] at rest
    rcases yields_lift_bind.mp rest with ⟨_, _, last⟩
    rcases yields_pure.mp last with ⟨rfl, rfl⟩
    exact .inl rfl
  | none =>
    rw [found] at rest
    iterate 2
      rw [yields_lift_bind] at rest
      rcases rest with ⟨_, _, rest⟩
    rw [yields_lift_bind] at rest
    rcases rest with ⟨allocation, _, inserted⟩
    rcases yields_insertAuthorization inserted with
      ⟨allowed, rfl, isAfter⟩
    exact .inr ⟨newId_of_authorizationConstraint allowed,
      financial_of_authorizationFields checked, rfl, rfl, isAfter⟩

/-! ## Failures -/

theorem undoes_insertPrice (price : UsagePriceVersion) :
    Undoes (insertPrice price) := by
  rw [insertPrice]
  apply undoes_get_bind
  intro db
  cases db.prices.find? fun current => decide (current.id = price.id) with
  | some current => exact undoes_lift_bind fun _ _ => undoes_pure _
  | none => exact undoes_lift_bind fun _ _ => undoes_modify_pure _ _

theorem undoes_insertAuthorization (finance : UsageFinanceAuthorization) :
    Undoes (insertAuthorization finance) := by
  rw [insertAuthorization]
  apply undoes_get_bind
  intro db
  cases authorizationConstraint db finance with
  | some failure => exact undoes_throw _
  | none => exact undoes_modify_pure _ _

theorem undoes_createUsagePriceVersion (runtime : Runtime)
    (input : PriceInput) : Undoes (createUsagePriceVersion runtime input) := by
  rw [createUsagePriceVersion]
  iterate 10
    apply undoes_lift_bind
    intro _ _
  exact undoes_insertPrice _

theorem undoes_createUsageEntitlement (runtime : Runtime)
    (input : EntitlementInput) :
    Undoes (createUsageEntitlement runtime input) := by
  rw [createUsageEntitlement]
  iterate 3
    apply undoes_lift_bind
    intro _ _
  apply undoes_get_bind
  intro db
  iterate 11
    apply undoes_lift_bind
    intro _ _
  exact undoes_transaction _

theorem undoes_createUsageFinanceAuthorization (runtime : Runtime)
    (input : AuthorizationInput) :
    Undoes (createUsageFinanceAuthorization runtime input) := by
  rw [createUsageFinanceAuthorization]
  apply undoes_lift_bind
  intro fields _
  apply undoes_get_bind
  intro db
  cases db.authorizations.find? fun finance =>
      decide (finance.tenantId = fields.tenantId ∧ (finance.id = fields.id ∨
        finance.entryIdempotencyKey = fields.entryIdempotencyKey)) with
  | some authorization => exact undoes_lift_bind fun _ _ => undoes_pure _
  | none =>
    iterate 3
      apply undoes_lift_bind
      intro _ _
    exact undoes_insertAuthorization _

theorem undoes_perform (runtime : Runtime) (call : Call) :
    Undoes (call.perform runtime) := by
  cases call with
  | price input =>
    exact undoes_map _ (undoes_createUsagePriceVersion runtime input)
  | entitlement input =>
    exact undoes_map _ (undoes_createUsageEntitlement runtime input)
  | authorization input =>
    exact undoes_map _
      (undoes_createUsageFinanceAuthorization runtime input)
  | reserve input =>
    apply undoes_map
    exact undoes_lift_bind fun _ _ => undoes_lift_bind fun _ _ =>
      undoes_transaction _
  | settle input =>
    apply undoes_map
    exact undoes_lift_bind fun _ _ => undoes_lift_bind fun _ _ =>
      undoes_transaction _
  | release input => exact undoes_map _ (undoes_transaction _)
  | adjust input =>
    apply undoes_map
    exact undoes_lift_bind fun _ _ => undoes_transaction _
  | credit input =>
    apply undoes_map
    exact undoes_lift_bind fun _ _ => undoes_transaction _

theorem step_cases (runtime : Runtime) (db : UsageDb) (event : Event) :
    (∃ call answer, event = .call call ∧
        Yields (call.perform runtime) db answer (step runtime db event)) ∨
      step runtime db event = db ∨
      ∃ identities, step runtime db event = { db with identities } := by
  cases event with
  | call call =>
    rcases outcome_cases (undoes_perform runtime call) db with
      ⟨answer, yields⟩ | same
    · exact .inl ⟨call, answer, rfl, yields⟩
    · exact .inr (.inl same)
  | identities identities => exact .inr (.inr ⟨identities, rfl⟩)

end Mendpoint.Usage

/-!
## The portions of a signed change

What a signed change says, what is left of its invoice for each entitlement,
and the portions into which a credit is divided.
-/

namespace Mendpoint.Usage

open Mendpoint.Library
open Mendpoint.Library.Attempt

/-! ## What a call says -/

/-- What a call says, where its checks have passed. -/
structure Stated (input : SignedInput) (entryType : UsageEntryType)
    (claim : Claimed) : Prop where
  safe : SafeInteger.Safe input.mcuMicrosDelta
  delta : claim.delta = input.mcuMicrosDelta
  positive : entryType = .adjustment → 0 < claim.delta
  negative : entryType = .credit → claim.delta < 0
  invoice : truthy (input.invoiceReference.map Text.trim) =
    some claim.invoiceReference
  authorization : required "usage_finance_authorization_id"
    (input.financeAuthorizationId.getD "") =
      .ok claim.financeAuthorizationId
  digest : required "usage_finance_authorization_digest"
    (input.financeAuthorizationDigest.getD "") =
      .ok claim.financeAuthorizationDigest
  actor : required "usage_finance_actor_principal_id"
    (input.actorPrincipalId.getD "") = .ok claim.actorPrincipalId

/-! ## Allocations -/

/-- The columns by which an allocation is one of its invoice. -/
def InvoiceAllocation.key (allocation : InvoiceAllocation) :
    String × String :=
  (allocation.entitlementId, allocation.priceVersion)

theorem mem_allocations {entries : List UsageLedgerEntry}
    {allocation : InvoiceAllocation} :
    allocation ∈ allocations entries ↔
      0 < allocation.allocated ∧ ∃ entry ∈ entries,
        allocationOf entries (allocationKey entry) = allocation := by
  rw [allocations, List.mem_insertionSort, List.mem_filter,
    decide_eq_true_eq, List.mem_map, and_comm]
  apply and_congr_right
  intro _
  constructor
  · rintro ⟨key, member, same⟩
    rcases List.mem_map.mp (List.mem_dedup.mp member) with
      ⟨entry, inside, rfl⟩
    exact ⟨entry, inside, same⟩
  · rintro ⟨entry, inside, same⟩
    exact ⟨allocationKey entry,
      List.mem_dedup.mpr (List.mem_map_of_mem inside), same⟩

theorem nodup_keys_allocations (entries : List UsageLedgerEntry) :
    ((allocations entries).map InvoiceAllocation.key).Nodup := by
  have keys : ((entries.map allocationKey).dedup.map
      (allocationOf entries)).map InvoiceAllocation.key =
      (entries.map allocationKey).dedup := by
    rw [List.map_map]
    exact List.map_id _
  have sorted := (List.perm_insertionSort
    (fun left right => allocationLe left right = true)
    (((entries.map allocationKey).dedup.map (allocationOf entries)).filter
      fun allocation => decide (0 < allocation.allocated))).map
    InvoiceAllocation.key
  have distinct := List.nodup_dedup (entries.map allocationKey)
  rw [← keys] at distinct
  exact sorted.nodup_iff.mpr
    (distinct.sublist (List.filter_sublist.map InvoiceAllocation.key))

variable {found : List InvoiceAllocation}

theorem invoiceAllocationsFor_eq_ok {db : UsageDb}
    {tenantId invoiceReference : String} {before : Option Nat} :
    invoiceAllocationsFor db tenantId invoiceReference before = .ok found ↔
      found = allocations
        (invoiceEntries db tenantId invoiceReference before) ∧
      ∀ allocation ∈ found, SafeInteger.Safe allocation.allocated := by
  have readsItself (allocation other : InvoiceAllocation) :
      (do
        let allocated ← readNumber allocation.allocated
        return { allocation with allocated : InvoiceAllocation }) =
          Except.ok other ↔
        allocation = other ∧ SafeInteger.Safe other.allocated := by
    rw [Fallible.bind_eq_ok]
    constructor
    · rintro ⟨_, read, last⟩
      rcases readNumber_eq_ok.mp read with ⟨safe, rfl⟩
      cases Fallible.pure_eq_ok.mp last
      exact ⟨rfl, safe⟩
    · rintro ⟨rfl, safe⟩
      exact ⟨_, readNumber_eq_ok.mpr ⟨safe, rfl⟩, rfl⟩
  rw [invoiceAllocationsFor, Fallible.mapM_eq_ok]
  simp only [readsItself]
  generalize allocations
    (invoiceEntries db tenantId invoiceReference before) = items
  constructor
  · intro related
    induction related with
    | nil => exact ⟨rfl, List.forall_mem_nil _⟩
    | cons first _ inductionHypothesis =>
      rcases first with ⟨rfl, safe⟩
      rcases inductionHypothesis with ⟨rfl, others⟩
      exact ⟨rfl, List.forall_mem_cons.mpr ⟨safe, others⟩⟩
  · rintro ⟨rfl, safe⟩
    apply List.forall₂_same.mpr
    intro allocation member
    exact ⟨rfl, safe allocation member⟩

/-! ## Portions -/

theorem allocations_takePortions (found : List InvoiceAllocation)
    (remaining : Int) :
    ((takePortions found remaining).1.map Portion.allocation).Sublist
      found := by
  induction found generalizing remaining with
  | nil => exact List.Sublist.refl []
  | cons allocation rest inductionHypothesis =>
    rw [takePortions]
    split
    · exact List.nil_sublist _
    · show List.Sublist (List.map Portion.allocation
        (Prod.fst (if 0 < min remaining allocation.allocated then _
          else _))) _
      split
      · exact (inductionHypothesis _).cons_cons allocation
      · exact (inductionHypothesis _).cons allocation

theorem positive_of_takePortions {found : List InvoiceAllocation}
    {remaining : Int} :
    ∀ portion ∈ (takePortions found remaining).1, 0 < portion.credited := by
  induction found generalizing remaining with
  | nil => exact List.forall_mem_nil _
  | cons allocation rest inductionHypothesis =>
    rw [takePortions]
    split
    · exact List.forall_mem_nil _
    · show ∀ portion ∈ Prod.fst
        (if 0 < min remaining allocation.allocated then _ else _), _
      split
      · next positive =>
          exact List.forall_mem_cons.mpr ⟨positive, inductionHypothesis⟩
      · exact inductionHypothesis

theorem allocateCreditAcrossInvoice_eq_ok {amount : Int}
    {portions : List Portion} :
    allocateCreditAcrossInvoice found amount = .ok portions ↔
      takePortions found amount = (portions, 0) ∧ portions ≠ [] := by
  rw [allocateCreditAcrossInvoice]
  split
  · next bad =>
      constructor
      · intro impossible
        cases impossible
      · rintro ⟨taken, some'⟩
        rw [taken] at bad
        rcases bad with rest | none'
        · exact absurd rfl rest
        · exact absurd none' some'
  · next good =>
      rw [not_or, not_not] at good
      constructor
      · intro same
        cases same
        exact ⟨Prod.ext rfl good.1, good.2⟩
      · rintro ⟨taken, _⟩
        rw [taken]

/-- The part of the invoice which a signed change selects. -/
inductive Selects (entryType : UsageEntryType) (claim : Claimed)
    (finance : UsageFinanceAuthorization) (found : List InvoiceAllocation)
    (selected : Selected) : Prop where
  | credit (first : Portion) (rest : List Portion)
      (isCredit : entryType = .credit)
      (portions : selected.portions = first :: rest)
      (taken : takePortions found (-claim.delta) = (first :: rest, 0))
      (entitlement : selected.entitlementId = first.allocation.entitlementId)
      (delta : selected.firstDelta = -first.credited)
  | other (target : InvoiceAllocation) (notCredit : entryType ≠ .credit)
      (portions : selected.portions = [])
      (isTarget : (found.find? fun allocation =>
        decide (some allocation.entitlementId =
            finance.allocationEntitlementId ∧
          some allocation.priceVersion = finance.allocationPriceVersion)) =
        some target)
      (entitlement : selected.entitlementId = target.entitlementId)
      (delta : selected.firstDelta = claim.delta)

theorem selects_of_selectAllocation {entryType : UsageEntryType}
    {claim : Claimed} {finance : UsageFinanceAuthorization}
    {selected : Selected}
    (isSelected : selectAllocation entryType claim finance found = .ok
      selected) : Selects entryType claim finance found selected := by
  rw [selectAllocation, Fallible.bind_eq_ok] at isSelected
  rcases isSelected with ⟨_, _, rest⟩
  rcases Fallible.bind_eq_ok.mp rest with ⟨_, _, rest⟩
  by_cases isCredit : entryType = .credit
  · rw [if_pos isCredit, Fallible.bind_eq_ok] at rest
    rcases rest with ⟨portions, allocated, rest⟩
    rcases Fallible.bind_eq_ok.mp rest with ⟨first, isFirst, last⟩
    cases Fallible.pure_eq_ok.mp last
    have head := demand_eq_ok.mp isFirst
    cases portions with
    | nil => cases head
    | cons portion others =>
      cases head
      exact .credit first others isCredit rfl
        (allocateCreditAcrossInvoice_eq_ok.mp allocated).1 rfl rfl
  · rw [if_neg isCredit, Fallible.bind_eq_ok] at rest
    rcases rest with ⟨target, isTarget, last⟩
    cases Fallible.pure_eq_ok.mp last
    exact .other target isCredit rfl (demand_eq_ok.mp isTarget) rfl rfl

/-! ## The entries of further portions -/

/-- What an entry of a further portion is, and what was checked for it. -/
structure DerivedFrom (runtime : Runtime) (db : UsageDb)
    (input : SignedInput) (claim : Claimed) (portion : Portion) (index : Nat)
    (derived : EntryInput) : Prop where
  entitled : ∃ entitlement, entitlementById db input.tenantId
    portion.allocation.entitlementId = some entitlement ∧
      derived =
        { input.entry .credit claim entitlement (-portion.credited) with
          id := creditAllocationIdentity runtime
            claim.financeAuthorizationId input.idempotencyKey index "portion"
          idempotencyKey := creditAllocationIdentity runtime
            claim.financeAuthorizationId input.idempotencyKey index
              "portion" }
  notNegative : 0 ≤ consumedSum
    (entitlementEntries db input.tenantId derived.entitlementId) +
      derived.consumedDelta

theorem derivedFrom_of_derivedEntry {runtime : Runtime} {db : UsageDb}
    {input : SignedInput} {claim : Claimed} {portion : Portion}
    {index : Nat} {derived : EntryInput}
    (isDerived : derivedEntry runtime db input claim portion index =
      .ok derived) :
    DerivedFrom runtime db input claim portion index derived := by
  rw [derivedEntry, Fallible.bind_eq_ok] at isDerived
  rcases isDerived with ⟨entitlement, isEntitlement, rest⟩
  rcases Fallible.bind_eq_ok.mp rest with ⟨totals, read, rest⟩
  rcases currentTotals_eq read with ⟨_, consumed⟩
  rcases Fallible.bind_eq_ok.mp rest with ⟨_, notNegative, last⟩
  rw [rejectIf_eq_ok, not_lt, consumed] at notNegative
  cases Fallible.pure_eq_ok.mp last
  exact ⟨⟨entitlement, demand_eq_ok.mp isEntitlement, rfl⟩, notNegative⟩

end Mendpoint.Usage
