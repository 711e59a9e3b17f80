import Mendpoint.Usage.Balance
import Mendpoint.Usage.Portions

/-!
# Every call keeps the books

What the calls write is allowed by the books: a reservation fits the quota, a
settlement or release closes an open reservation with its whole amount, and a
credit takes no more from an entitlement than was consumed.
-/

namespace Mendpoint.Usage

open Mendpoint.Library
open Mendpoint.Library.Attempt
open Mendpoint.Library.FilteredSum
open Mendpoint.Library.Run

/-! ## What is balanced -/

/-- The entries for an entitlement. -/
def entriesFor (db : UsageDb) (entitlementId : String) :
    List UsageLedgerEntry :=
  db.entries.filter fun entry => decide (entry.entitlementId = entitlementId)

/--
No balance of an entitlement is negative or exceeds its quota, and every
reservation is either wholly open, or closed by one settlement or release.
-/
structure Balanced (db : UsageDb) : Prop where
  entitlements : ∀ entitlement ∈ db.entitlements,
    0 ≤ reservedSum (entriesFor db entitlement.id) ∧
      0 ≤ consumedSum (entriesFor db entitlement.id) ∧
      reservedSum (entriesFor db entitlement.id) +
        consumedSum (entriesFor db entitlement.id) ≤
          entitlement.quotaMcuMicros
  reservations : ∀ hold ∈ db.entries, hold.entryType = .reservation →
    (references db hold.id = [] ∧
        outstanding db hold = hold.reservedMcuMicrosDelta) ∨
      ((∃ closing, references db hold.id = [closing] ∧ Closes closing) ∧
        outstanding db hold = 0)

/-! ## Entitlements which are found -/

theorem mem_of_latestBy {ρ : Type} {column : ρ → Nat} {rows : List ρ}
    {latest : ρ} (isLatest : latestBy column rows = some latest) :
    latest ∈ rows := by
  rw [latestBy] at isLatest
  exact (List.mem_insertionSort _).mp (List.mem_of_getLast? isLatest)

variable {tenantId : String} {entitlement : UsageEntitlement}

theorem mem_of_active {runtime : Runtime} {db : UsageDb} {instant : String}
    (active : getActiveUsageEntitlement runtime db tenantId instant = .ok
      (some entitlement)) :
    entitlement ∈ db.entitlements ∧ entitlement.tenantId = tenantId := by
  rw [getActiveUsageEntitlement, Fallible.bind_eq_ok] at active
  rcases active with ⟨_, _, last⟩
  have member := mem_of_latestBy (Fallible.pure_eq_ok.mp last)
  rw [List.mem_filter, decide_eq_true_eq] at member
  exact ⟨member.1, member.2.1⟩

theorem mem_of_entitlementById {db : UsageDb} {id : String}
    (found : entitlementById db tenantId id = some entitlement) :
    entitlement ∈ db.entitlements ∧ entitlement.id = id ∧
      entitlement.tenantId = tenantId := by
  have isIt := List.find?_some found
  rw [decide_eq_true_eq] at isIt
  exact ⟨List.mem_of_find?_eq_some found, isIt⟩

theorem mem_of_reservationRecord {db : UsageDb} {reservationId : String}
    {reservation : UsageLedgerEntry}
    (found : reservationRecord db tenantId reservationId = .ok reservation) :
    reservation ∈ db.entries ∧ reservation.id = reservationId ∧
      reservation.tenantId = tenantId ∧
      reservation.entryType = .reservation := by
  have isFound := demand_eq_ok.mp found
  have isIt := List.find?_some isFound
  rw [decide_eq_true_eq] at isIt
  exact ⟨List.mem_of_find?_eq_some isFound, isIt⟩

/-! ## Entries which are allowed -/

namespace Books

variable {runtime : Runtime} {db after : UsageDb}

variable {row : UsageLedgerEntry} {entryType : UsageEntryType}
  {input : SignedInput} {claim : Claimed} {derived : List EntryInput}

theorem insertEntry (books : Books db) {input : EntryInput}
    (entered : Fresh runtime db input → Entered db (nextRow runtime db
      input)) (inserted : Yields (insertEntry runtime input) db row after) :
    Books after := by
  rcases yields_insertEntry.mp inserted with
    ⟨_, _, rfl⟩ | ⟨fresh, rfl, rfl⟩
  · exact books
  · exact books.withEntry (entered fresh)

theorem entered_reservation (books : Books db) {input : ReserveInput}
    (checks : ReserveChecks runtime db input entitlement)
    (room : entryByKey db input.tenantId input.idempotencyKey = none → Room
      db input.tenantId entitlement input.mcuMicros)
    (fresh : Fresh runtime db (input.entry entitlement)) :
    Entered db (nextRow runtime db (input.entry entitlement)) where
  newId := newId_of_allowed fresh.allowed
  placed := by
    rcases mem_of_active checks.active with ⟨member, tenant⟩
    exact ⟨entitlement, member, rfl, tenant, rfl⟩
  kind := .reservation rfl rfl checks.positive
  consumed := by
    show 0 ≤ consumedSum _ + 0
    rw [Int.add_zero]
    exact books.consumed _ _
  quota := by
    rcases room fresh.newKey with ⟨totals, read, fits⟩
    rcases currentTotals_eq read with ⟨reserved, consumed⟩
    rw [reserved, consumed] at fits
    intro other placed
    cases books.entitlement_eq_of_id placed.1
      (mem_of_active checks.active).1 placed.2.1
    show reservedSum (entitlementEntries db input.tenantId entitlement.id) +
      input.mcuMicros +
        (consumedSum (entitlementEntries db input.tenantId entitlement.id) + 0) ≤ _
    omega

theorem open_of_positive (books : Books db) {hold : UsageLedgerEntry}
    (member : hold ∈ db.entries) (isHold : hold.entryType = .reservation)
    (positive : 0 < outstanding db hold) : references db hold.id = [] := by
  rcases books.settled hold member isHold with
    isOpen | ⟨closing, alone, _, whole⟩
  · exact isOpen
  · rw [outstanding, alone, reservedSum, List.map_singleton,
      List.sum_singleton, whole, Int.add_right_neg] at positive
    cases positive

theorem entered_closing (books : Books db) {request : Request}
    {reservationId : String} {reservation : UsageLedgerEntry}
    {amount consumed : Int} {provenance : Option String}
    (closes : entryType = .settlement ∨ entryType = .release)
    (checks : CloseChecks runtime db request entryType reservationId
      reservation amount consumed provenance) (notNegative : 0 ≤ consumed)
    (fits : entryByKey db request.tenantId request.idempotencyKey = none →
      consumed ≤ amount)
    (fresh : Fresh runtime db (request.closing entryType reservation
      reservationId amount consumed provenance)) :
    Entered db (nextRow runtime db (request.closing entryType reservation
      reservationId amount consumed provenance)) := by
  have newKey : entryByKey db request.tenantId request.idempotencyKey =
    none := fresh.newKey
  rcases mem_of_reservationRecord checks.state.record with
    ⟨member, isId, isTenant, isHold⟩
  rcases checks.state.first newKey with ⟨balance, _, positive⟩
  rw [← isId, ← isTenant, books.holdEntries_sum member isHold] at balance
  rw [balance] at positive
  have isOpen := books.open_of_positive member isHold positive
  have whole : amount = reservation.reservedMcuMicrosDelta := by
    rw [balance, outstanding, isOpen]
    exact Int.add_zero _
  rcases books.placed reservation member with
    ⟨entitlement, there, sameId, sameTenant, samePrice⟩
  exact
    { newId := newId_of_allowed fresh.allowed
      placed := ⟨entitlement, there, sameId, sameTenant.trans isTenant,
        samePrice⟩
      kind := by
        refine .closing reservation closes ?_
          ⟨member, isHold, isTenant, rfl⟩ isOpen ?_
        · exact congrArg some isId.symm
        · exact congrArg Neg.neg whole
      consumed := by
        have before := books.consumed request.tenantId
          reservation.entitlementId
        exact Int.add_nonneg before notNegative
      quota := by
        intro other placed
        have before := books.quota other placed.1
        rw [placed.2.1, placed.2.2.1] at before
        have within := fits newKey
        show _ + -amount + (_ + consumed) ≤ _
        omega }

/-! ## Signed changes -/

theorem entered_signed (books : Books db)
    {finance : UsageFinanceAuthorization} (financial : entryType.Financial)
    (plan : SignedPlan runtime db input entryType claim finance)
    (fresh : Fresh runtime db (input.entry entryType claim plan.entitlement
      plan.selected.firstDelta)) :
    Entered db (nextRow runtime db (input.entry entryType claim
      plan.entitlement plan.selected.firstDelta)) where
  newId := newId_of_allowed fresh.allowed
  placed := by
    rcases mem_of_entitlementById plan.isEntitlement with
      ⟨member, _, tenant⟩
    exact ⟨plan.entitlement, member, rfl, tenant, rfl⟩
  kind := .financial financial rfl rfl
  consumed := plan.notNegative
  quota := by
    intro other placed
    cases books.entitlement_eq_of_id placed.1
      (mem_of_entitlementById plan.isEntitlement).1 placed.2.1
    show reservedSum (entitlementEntries db input.tenantId
        plan.entitlement.id) + 0 +
      (consumedSum (entitlementEntries db input.tenantId
        plan.entitlement.id) + plan.selected.firstDelta) ≤ _
    by_cases positive : 0 < claim.delta
    · rw [Int.add_zero]
      exact plan.fits positive
    · have before := books.quota _ placed.1
      rw [placed.2.2.1] at before
      have notMore : plan.selected.firstDelta ≤ 0 := by
        cases selects_of_selectAllocation plan.isSelected with
        | other _ notCredit _ _ _ delta =>
          rw [delta]
          exact not_lt.mp positive
        | credit first rest _ _ taken _ delta =>
          have member : first ∈ (takePortions plan.found
              (-claim.delta)).1 := by
            rw [taken]
            exact List.mem_cons_self
          have credited := positive_of_takePortions first member
          omega
      have before : reservedSum (entitlementEntries db input.tenantId
            plan.entitlement.id) +
          consumedSum (entitlementEntries db input.tenantId
            plan.entitlement.id) ≤ plan.entitlement.quotaMcuMicros := before
      omega

/-- An entry which takes from what was consumed of an entitlement. -/
structure Takes (db : UsageDb) (entry : EntryInput) : Prop where
  isCredit : entry.entryType = .credit
  alone : entry.reservationId = none
  nothing : entry.reservedDelta = 0
  notMore : entry.consumedDelta ≤ 0
  placed : ∃ entitlement ∈ db.entitlements,
    entitlement.id = entry.entitlementId ∧
      entitlement.tenantId = entry.tenantId ∧
      entitlement.priceVersionId = entry.priceVersion
  notNegative : 0 ≤ consumedSum
    (entitlementEntries db entry.tenantId entry.entitlementId) +
      entry.consumedDelta

theorem entered_taking (books : Books db) {entry : EntryInput}
    (takes : Takes db entry) (fresh : Fresh runtime db entry) :
    Entered db (nextRow runtime db entry) where
  newId := newId_of_allowed fresh.allowed
  placed := takes.placed
  kind := by
    refine .financial ?_ takes.alone takes.nothing
    show entry.entryType.Financial
    rw [takes.isCredit]
    trivial
  consumed := takes.notNegative
  quota := by
    intro other placed
    have before := books.quota other placed.1
    rw [placed.2.1, placed.2.2.1] at before
    have notMore := takes.notMore
    have nothing := takes.nothing
    show _ + entry.reservedDelta + (_ + entry.consumedDelta) ≤ _
    omega

theorem takes_withEntry {entry : EntryInput} (takes : Takes db entry)
    (other : entry.entitlementId ≠ row.entitlementId) :
    Takes (db.withEntry row) entry := by
  refine ⟨takes.isCredit, takes.alone, takes.nothing, takes.notMore,
    takes.placed, ?_⟩
  have elsewhere : ¬ forEntitlement entry.tenantId entry.entitlementId row =
      true := by
    rw [forEntitlement, decide_eq_true_eq]
    exact fun same => other same.2.symm
  rw [consumedSum_withEntry, if_neg elsewhere, Int.add_zero]
  exact takes.notNegative

theorem insertDerived (books : Books db)
    (each : ∀ entry ∈ derived, Takes db entry)
    (distinct : (derived.map EntryInput.entitlementId).Nodup)
    (inserted : Yields (insertDerived runtime derived) db () after) :
    Books after := by
  induction derived generalizing db with
  | nil =>
    rcases yields_pure.mp inserted with ⟨_, rfl⟩
    exact books
  | cons entry rest inductionHypothesis =>
    rcases yields_insertDerived_cons.mp inserted with
      ⟨row, middle, _, first, later⟩
    rw [List.map_cons, List.nodup_cons] at distinct
    rcases List.forall_mem_cons.mp each with ⟨takes, others⟩
    have kept := books.insertEntry (books.entered_taking takes) first
    refine inductionHypothesis kept ?_ distinct.2 later
    intro other member
    rcases yields_insertEntry.mp first with
      ⟨_, _, rfl⟩ | ⟨_, rfl, rfl⟩
    · exact others other member
    · apply takes_withEntry (others other member)
      intro same
      apply distinct.1
      show entry.entitlementId ∈ _
      rw [show entry.entitlementId = other.entitlementId from same.symm]
      exact List.mem_map_of_mem member

theorem nodup_entitlements_allocations (books : Books db)
    (tenantId invoiceReference : String) (before : Option Nat) :
    ((allocations (invoiceEntries db tenantId invoiceReference before)).map
      InvoiceAllocation.entitlementId).Nodup := by
  have keys := nodup_keys_allocations
    (invoiceEntries db tenantId invoiceReference before)
  apply List.Nodup.map_on _ (List.Nodup.of_map _ keys)
  intro allocation member other memberOther same
  apply List.inj_on_of_nodup_map keys member memberOther
  rcases mem_allocations.mp member with ⟨_, entry, inside, rfl⟩
  rcases mem_allocations.mp memberOther with ⟨_, entryOther, insideOther, rfl⟩
  rcases books.placed entry (List.mem_filter.mp inside).1 with
    ⟨entitlement, there, sameId, _, samePrice⟩
  rcases books.placed entryOther (List.mem_filter.mp insideOther).1 with
    ⟨entitlementOther, thereOther, sameIdOther, _, samePriceOther⟩
  have sameEntitlement : entry.entitlementId = entryOther.entitlementId :=
    same
  cases books.entitlement_eq_of_id there thereOther
    (sameId.trans (sameEntitlement.trans sameIdOther.symm))
  exact Prod.ext same (samePrice.symm.trans samePriceOther)

theorem takes_of_derivedEntries {portions : List Portion}
    (positive : ∀ portion ∈ portions, 0 < portion.credited)
    (isDerived : derivedEntries runtime db input claim portions = .ok
      derived) : ∀ entry ∈ derived, Takes db entry := by
  rw [derivedEntries] at isDerived
  refine Fallible.forall_mem_of_mapM isDerived ?_
  rintro ⟨portion, index⟩ member entry isEntry
  rcases derivedFrom_of_derivedEntry isEntry with
    ⟨⟨entitlement, found, rfl⟩, notNegative⟩
  rcases mem_of_entitlementById found with ⟨there, _, tenant⟩
  have inside : portion ∈ portions :=
    List.fst_mem_of_mem_zipIdx (List.mem_of_mem_drop member)
  refine ⟨rfl, rfl, rfl, ?_, ⟨entitlement, there, rfl, tenant, rfl⟩,
    notNegative⟩
  exact Int.neg_nonpos_of_nonneg (Int.le_of_lt (positive portion inside))

theorem entitlements_of_derivedEntries {portions : List Portion}
    (isDerived : derivedEntries runtime db input claim portions = .ok
      derived) :
    derived.map EntryInput.entitlementId =
      (portions.drop 1).map fun portion =>
        portion.allocation.entitlementId := by
  rw [derivedEntries] at isDerived
  have entitled : ((portions.zipIdx.drop 1).map Prod.fst).map
      (fun portion => portion.allocation.entitlementId) =
        (portions.drop 1).map fun portion =>
          portion.allocation.entitlementId := by
    rw [List.map_drop, List.zipIdx_map_fst]
  rw [← entitled, List.map_map]
  refine Fallible.map_eq_of_mapM isDerived ?_
  rintro ⟨portion, index⟩ _ entry isEntry
  rcases derivedFrom_of_derivedEntry isEntry with
    ⟨⟨entitlement, found, rfl⟩, _⟩
  exact (mem_of_entitlementById found).2.1

theorem commitSigned (books : Books db) {finance : UsageFinanceAuthorization}
    (financial : entryType.Financial)
    (committed : Yields (commitSigned runtime input entryType claim finance)
      db row after) : Books after := by
  rcases plan_of_commitSigned committed with ⟨plan, ⟨writes⟩⟩
  have rooted := books.insertEntry (books.entered_signed financial plan)
    writes.root
  have finished : Books writes.finished := by
    apply rooted.insertDerived _ _ writes.inserted
    · apply takes_of_derivedEntries _ writes.isDerived
      cases selects_of_selectAllocation plan.isSelected with
      | other _ _ portions _ _ _ =>
        rw [portions]
        exact List.forall_mem_nil _
      | credit first rest _ portions taken _ _ =>
        have positive := @positive_of_takePortions plan.found
          (-claim.delta)
        rw [taken] at positive
        rw [portions]
        exact positive
    · rw [entitlements_of_derivedEntries writes.isDerived]
      cases selects_of_selectAllocation plan.isSelected with
      | other _ _ portions _ _ _ =>
        rw [portions]
        exact List.nodup_nil
      | credit first rest _ portions taken _ _ =>
        have within := allocations_takePortions plan.found (-claim.delta)
        rw [taken] at within
        have distinct := books.nodup_entitlements_allocations
          input.tenantId claim.invoiceReference none
        rw [← (invoiceAllocationsFor_eq_ok.mp plan.isFound).1] at distinct
        have apart := distinct.sublist (within.map _)
        rw [List.map_map] at apart
        rw [portions]
        exact (List.nodup_cons.mp apart).2
  rcases yields_consume.mp writes.consumed with ⟨_, isAfter⟩
  rw [isAfter]
  exact finished.congr rfl rfl

theorem entitlementAdded (books : Books db)
    (added : EntitlementAdded db after entitlement) : Books after := by
  rcases added with ⟨newId, notNegative, rfl⟩
  have wider {entry : UsageLedgerEntry}
      (there : ∃ entitlement, Placed db entry entitlement) :
      ∃ other, Placed { db with
        entitlements := db.entitlements ++ [entitlement] } entry other := by
    rcases there with ⟨other, member, rest⟩
    exact ⟨other, List.mem_append_left _ member, rest⟩
  refine ⟨books.ids, ?_, fun entry member => wider (books.placed entry
    member), books.closings, books.holds, books.settled, books.reserved,
    books.consumed, ?_⟩
  · rw [List.map_append, List.map_singleton, List.nodup_append]
    refine ⟨books.entitlementIds, List.nodup_singleton _, ?_⟩
    intro id member other isNew same
    rw [List.mem_singleton] at isNew
    rcases List.mem_map.mp member with ⟨old, inside, rfl⟩
    exact newId old inside (same.trans isNew)
  · intro other member
    rw [List.mem_append, List.mem_singleton] at member
    rcases member with before | rfl
    · exact books.quota other before
    · have none' : entitlementEntries db other.tenantId other.id = [] := by
        apply List.filter_eq_nil_iff.mpr
        intro entry inside for'
        rw [decide_eq_true_eq] at for'
        rcases books.placed entry inside with ⟨old, there, sameId, _⟩
        exact newId old there (sameId.trans for'.2)
      show reservedSum (entitlementEntries db other.tenantId other.id) +
        consumedSum (entitlementEntries db other.tenantId other.id) ≤ _
      rw [none']
      exact notNegative

theorem signedUsageChange (books : Books db)
    (financial : entryType.Financial)
    (changed : Yields (signedUsageChange runtime input entryType) db row
      after) : Books after := by
  rcases yields_signedUsageChange.mp changed with
    ⟨claim, finance, _, _, _, ⟨_, _, rfl⟩ | ⟨_, committed⟩⟩
  · exact books
  · exact books.commitSigned financial committed

theorem perform (books : Books db) {call : Call} {answer : Answer}
    (performed : Yields (call.perform runtime) db answer after) :
    Books after := by
  cases call with
  | price input =>
    rcases yields_map.mp performed with ⟨created, yields, _⟩
    rcases yields_createUsagePriceVersion yields with ⟨prices, rfl⟩
    exact books.congr rfl rfl
  | entitlement input =>
    rcases yields_map.mp performed with ⟨created, yields, _⟩
    rcases yields_createUsageEntitlement yields with rfl | added
    · exact books
    · exact books.entitlementAdded added
  | authorization input =>
    rcases yields_map.mp performed with ⟨created, yields, _⟩
    rcases yields_createUsageFinanceAuthorization yields with rfl | added
    · exact books
    · rw [added.isAfter]
      exact books.congr rfl rfl
  | reserve input =>
    rcases yields_map.mp performed with ⟨row, yields, _⟩
    rcases yields_reserveUsage.mp yields with
      ⟨entitlement, checks, room, inserted⟩
    exact books.insertEntry (books.entered_reservation checks room)
      inserted
  | settle input =>
    rcases yields_map.mp performed with ⟨row, yields, _⟩
    rcases yields_settleUsageReservation.mp yields with
      ⟨provenance, reservation, amount, _, notNegative, _, fits, checks,
        inserted⟩
    exact books.insertEntry
      (books.entered_closing (.inl rfl) checks notNegative fits) inserted
  | release input =>
    rcases yields_map.mp performed with ⟨row, yields, _⟩
    rcases yields_releaseUsageReservation.mp yields with
      ⟨reservation, amount, checks, inserted⟩
    refine books.insertEntry (books.entered_closing (.inr rfl) checks
      (Int.le_refl 0) ?_) inserted
    intro newKey
    exact Int.le_of_lt (checks.state.first newKey).2.2
  | adjust input =>
    rcases yields_map.mp performed with ⟨row, yields, _⟩
    have financial : UsageEntryType.Financial .adjustment := trivial
    exact books.signedUsageChange financial yields
  | credit input =>
    rcases yields_map.mp performed with ⟨row, yields, _⟩
    have financial : UsageEntryType.Financial .credit := trivial
    exact books.signedUsageChange financial yields

theorem step (books : Books db) (event : Event) :
    Books (step runtime db event) := by
  rcases step_cases runtime db event with
    ⟨call, answer, _, performed⟩ | same | ⟨identities, same⟩
  · exact books.perform performed
  · rw [same]
    exact books
  · rw [same]
    exact books.congr rfl rfl

theorem run (runtime : Runtime) (identities : Identities)
    (events : List Event) :
    Books (run (Usage.step runtime) (UsageDb.empty identities) events) :=
  run_invariant (fun _ event books => books.step event)
    (books_empty identities) events

theorem entriesFor_eq (books : Books db)
    (member : entitlement ∈ db.entitlements) :
    entriesFor db entitlement.id =
      entitlementEntries db entitlement.tenantId entitlement.id := by
  apply List.filter_congr
  intro entry inside
  by_cases same : entry.entitlementId = entitlement.id
  · rcases books.placed entry inside with ⟨other, there, sameId, tenant, _⟩
    cases books.entitlement_eq_of_id there member (sameId.trans same)
    simp [same, tenant]
  · simp [same]

theorem balanced (books : Books db) : Balanced db where
  entitlements := by
    intro entitlement member
    have quota := books.quota entitlement member
    have consumed := books.consumed entitlement.tenantId entitlement.id
    have reserved := books.reserved entitlement.tenantId entitlement.id
      fun _ => true
    simp only [Bool.and_true] at reserved
    rw [books.entriesFor_eq member]
    exact ⟨reserved, consumed, quota⟩
  reservations := by
    intro hold member isHold
    rcases books.settled hold member isHold with
      isOpen | ⟨closing, alone, closes, whole⟩
    · refine .inl ⟨isOpen, ?_⟩
      rw [outstanding, isOpen]
      exact Int.add_zero _
    · refine .inr ⟨⟨closing, alone, closes⟩, ?_⟩
      rw [outstanding, alone, reservedSum, List.map_singleton,
        List.sum_singleton, whole]
      exact Int.add_right_neg _

end Books

/--
Whatever has happened to a ledger, its books are balanced, and a call which
throws then leaves the whole database as it is.
-/
theorem run_balanced (runtime : Runtime) (identities : Identities)
    (events : List Event) :
    Balanced (run (step runtime) (UsageDb.empty identities) events) ∧
      ∀ call : Call, ∀ failure after,
        outcome (call.perform runtime)
            (run (step runtime) (UsageDb.empty identities) events) =
          (.error failure, after) →
        after = run (step runtime) (UsageDb.empty identities) events :=
  ⟨(Books.run runtime identities events).balanced,
    fun call failure after failed =>
      undoes_perform runtime call _ failure after failed⟩

end Mendpoint.Usage
