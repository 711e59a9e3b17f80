import Mendpoint.Library.Truncation
import Mendpoint.Usage.Bookkeeping

/-!
# What an invoice still has

The entries of an invoice for an entitlement never sum up to less than zero,
where every credit names its invoice without white space around it: a credit
takes its portions from what the invoice has.  The sign of an amount is that
of the kind of its entry, and no price is negative.
-/

namespace Mendpoint.Usage

open Mendpoint.Library
open Mendpoint.Library.Attempt
open Mendpoint.Library.FilteredSum
open Mendpoint.Library.Run

/-! ## The invariant -/

/-- An entry of an invoice for an entitlement. -/
def billedTo (tenantId invoiceReference entitlementId : String)
    (entry : UsageLedgerEntry) : Bool :=
  decide (entry.tenantId = tenantId ∧
    entry.invoiceReference = some invoiceReference ∧
    entry.entitlementId = entitlementId)

/-- What an invoice has of an entitlement, after its credits. -/
def billed (db : UsageDb) (tenantId invoiceReference entitlementId : String) :
    Int :=
  sumWhere UsageLedgerEntry.consumedMcuMicrosDelta
    (billedTo tenantId invoiceReference entitlementId) db.entries

/-- The sign of what an entry of a kind consumes. -/
def HasSign (entryType : UsageEntryType) (delta : Int) : Prop :=
  match entryType with
  | .settlement | .adjustment => 0 ≤ delta
  | .credit => delta ≤ 0
  | .reservation | .release => delta = 0

structure Billing (db : UsageDb) : Prop where
  signs : ∀ entry ∈ db.entries,
    HasSign entry.entryType entry.consumedMcuMicrosDelta
  covered : ∀ tenantId invoiceReference entitlementId,
    0 ≤ billed db tenantId invoiceReference entitlementId
  prices : ∀ price ∈ db.prices, 0 ≤ price.pricePerMcuMoneyMicros

theorem billing_empty (identities : Identities) :
    Billing (UsageDb.empty identities) where
  signs := List.forall_mem_nil _
  covered _ _ _ := Int.le_refl 0
  prices := List.forall_mem_nil _

/-- A call whose credit names its invoice without white space around it. -/
def Event.Trimmed : Event → Prop
  | .call (.credit input) =>
    input.invoiceReference.map Text.trim = input.invoiceReference
  | _ => True

/-! ## What a call says of its amount -/

theorem stated_of_claimed {input : SignedInput} {entryType : UsageEntryType}
    {claim : Claimed} (isClaim : claimed input entryType = .ok claim) :
    Stated input entryType claim := by
  rw [claimed, Fallible.bind_eq_ok] at isClaim
  rcases isClaim with ⟨delta, counted, rest⟩
  rcases micros_eq_ok.mp counted with ⟨safe, _, rfl⟩
  rcases Fallible.bind_eq_ok.mp rest with ⟨_, positive, rest⟩
  rcases Fallible.bind_eq_ok.mp rest with ⟨_, negative, rest⟩
  rcases Fallible.bind_eq_ok.mp rest with ⟨reference, invoice, rest⟩
  rcases Fallible.bind_eq_ok.mp rest with ⟨_, authorization, rest⟩
  rcases Fallible.bind_eq_ok.mp rest with ⟨_, digest, rest⟩
  rcases Fallible.bind_eq_ok.mp rest with ⟨_, actor, last⟩
  rw [rejectIf_eq_ok, not_and, not_le] at positive negative
  cases Fallible.pure_eq_ok.mp last
  exact ⟨safe, rfl, positive, negative, demand_eq_ok.mp invoice,
    authorization, digest, actor⟩

theorem portion_le_allocated {found : List InvoiceAllocation}
    {remaining : Int} :
    ∀ portion ∈ (takePortions found remaining).1,
      portion.credited ≤ portion.allocation.allocated := by
  induction found generalizing remaining with
  | nil => exact List.forall_mem_nil _
  | cons allocation rest inductionHypothesis =>
    rw [takePortions]
    split
    · exact List.forall_mem_nil _
    · show ∀ portion ∈ Prod.fst
        (if 0 < min remaining allocation.allocated then _ else _), _
      split
      · exact List.forall_mem_cons.mpr
          ⟨min_le_right _ _, inductionHypothesis⟩
      · exact inductionHypothesis

/-! ## Groups of an invoice -/

variable {runtime : Runtime} {db after : UsageDb} {row : UsageLedgerEntry}

/-- The price of the entries for an entitlement is that of the entitlement. -/
theorem Books.group_eq (books : Books db) {tenantId invoiceReference : String}
    {entry : UsageLedgerEntry}
    (member : entry ∈ invoiceEntries db tenantId invoiceReference none) :
    consumedSum ((invoiceEntries db tenantId invoiceReference none).filter
        fun other => decide (allocationKey other = allocationKey entry)) =
      billed db tenantId invoiceReference entry.entitlementId := by
  rw [billed, sumWhere, consumedSum, invoiceEntries, List.filter_filter]
  apply congrArg fun entries =>
    (List.map UsageLedgerEntry.consumedMcuMicrosDelta entries).sum
  apply List.filter_congr
  intro other inside
  rw [billedTo, ← Bool.decide_and, decide_eq_decide]
  rw [invoiceEntries, List.mem_filter, decide_eq_true_eq] at member
  constructor
  · rintro ⟨sameKey, tenant, reference, _⟩
    exact ⟨tenant, reference, congrArg Prod.fst sameKey⟩
  · rintro ⟨tenant, reference, sameEntitlement⟩
    rcases books.placed entry member.1 with
      ⟨entitlement, there, sameId, _, samePrice⟩
    rcases books.placed other inside with
      ⟨otherEntitlement, otherThere, otherId, _, otherPrice⟩
    cases books.entitlement_eq_of_id there otherThere
      (sameId.trans (sameEntitlement.symm.trans otherId.symm))
    have sameVersion : other.priceVersion = entry.priceVersion :=
      otherPrice.symm.trans samePrice
    exact ⟨Prod.ext sameEntitlement sameVersion, tenant, reference,
      fun _ impossible => by cases impossible⟩

theorem Books.allocated_eq (books : Books db)
    {tenantId invoiceReference : String} {allocation : InvoiceAllocation}
    (member : allocation ∈ allocations
      (invoiceEntries db tenantId invoiceReference none)) :
    allocation.allocated =
      billed db tenantId invoiceReference allocation.entitlementId := by
  rcases mem_allocations.mp member with ⟨_, entry, inside, rfl⟩
  exact books.group_eq inside

/-! ## One entry more -/

theorem billed_withEntry (db : UsageDb) (row : UsageLedgerEntry)
    (tenantId invoiceReference entitlementId : String) :
    billed (db.withEntry row) tenantId invoiceReference entitlementId =
      billed db tenantId invoiceReference entitlementId +
        if billedTo tenantId invoiceReference entitlementId row then
          row.consumedMcuMicrosDelta
        else 0 :=
  sumWhere_concat _ _ _ _

/-- An entry takes from its invoice no more than the invoice has. -/
def Covered (db : UsageDb) (entry : EntryInput) : Prop :=
  ∀ invoiceReference, entry.invoiceReference = some invoiceReference →
    0 ≤ billed db entry.tenantId invoiceReference entry.entitlementId +
      entry.consumedDelta

namespace Billing

theorem covered_of_nonneg (billing : Billing db) {entry : EntryInput}
    (nonneg : 0 ≤ entry.consumedDelta) : Covered db entry := by
  intro invoiceReference _
  have before := billing.covered entry.tenantId invoiceReference
    entry.entitlementId
  omega

theorem insertEntry (billing : Billing db) {entry : EntryInput}
    (sign : HasSign entry.entryType entry.consumedDelta)
    (covered : Covered db entry)
    (inserted : Yields (insertEntry runtime entry) db row after) :
    Billing after := by
  rcases yields_insertEntry.mp inserted with
    ⟨_, _, rfl⟩ | ⟨fresh, rfl, rfl⟩
  · exact billing
  refine ⟨?_, ?_, billing.prices⟩
  · intro other member
    rw [entries_withEntry, List.mem_append, List.mem_singleton] at member
    rcases member with before | rfl
    · exact billing.signs other before
    · exact sign
  · intro tenantId invoiceReference entitlementId
    rw [billed_withEntry]
    have before := billing.covered tenantId invoiceReference entitlementId
    split
    · next selected =>
        rw [billedTo, decide_eq_true_eq] at selected
        rcases selected with ⟨rfl, reference, rfl⟩
        exact covered invoiceReference reference
    · omega

theorem congr (billing : Billing db) (entries : after.entries = db.entries)
    (prices : after.prices = db.prices) : Billing after := by
  rcases billing with ⟨signs, covered, notNegative⟩
  refine ⟨?_, ?_, ?_⟩
  · rw [entries]
    exact signs
  · intro tenantId invoiceReference entitlementId
    rw [billed, entries]
    exact covered tenantId invoiceReference entitlementId
  · rw [prices]
    exact notNegative

end Billing

/-! ## Credits -/

/-- A further entry of a credit, which its invoice covers. -/
structure Draws (db : UsageDb) (entry : EntryInput) : Prop where
  isCredit : entry.entryType = .credit
  notMore : entry.consumedDelta ≤ 0
  covered : Covered db entry

theorem draws_withEntry {entry : EntryInput} (draws : Draws db entry)
    (other : entry.entitlementId ≠ row.entitlementId) :
    Draws (db.withEntry row) entry := by
  refine ⟨draws.isCredit, draws.notMore, ?_⟩
  intro invoiceReference reference
  have elsewhere : ¬ billedTo entry.tenantId invoiceReference
      entry.entitlementId row = true := by
    rw [billedTo, decide_eq_true_eq]
    exact fun same => other same.2.2.symm
  rw [billed_withEntry, if_neg elsewhere, Int.add_zero]
  exact draws.covered invoiceReference reference

theorem draws_after {entry other : EntryInput} (draws : Draws db other)
    (apart : other.entitlementId ≠ entry.entitlementId)
    (inserted : Yields (insertEntry runtime entry) db row after) :
    Draws after other := by
  rcases yields_insertEntry.mp inserted with
    ⟨_, _, rfl⟩ | ⟨_, rfl, rfl⟩
  · exact draws
  · exact draws_withEntry draws apart

namespace Billing

variable {input : SignedInput} {claim : Claimed} {derived : List EntryInput}

theorem insertDraw (billing : Billing db) {entry : EntryInput}
    (draws : Draws db entry)
    (inserted : Yields (Usage.insertEntry runtime entry) db row after) :
    Billing after := by
  refine billing.insertEntry ?_ draws.covered inserted
  rw [draws.isCredit]
  exact draws.notMore

theorem insertDerived (billing : Billing db)
    (each : ∀ entry ∈ derived, Draws db entry)
    (distinct : (derived.map EntryInput.entitlementId).Nodup)
    (inserted : Yields (insertDerived runtime derived) db () after) :
    Billing after := by
  induction derived generalizing db with
  | nil =>
    rcases yields_pure.mp inserted with ⟨_, rfl⟩
    exact billing
  | cons entry rest inductionHypothesis =>
    rcases yields_insertDerived_cons.mp inserted with
      ⟨row, middle, _, first, later⟩
    rw [List.map_cons, List.nodup_cons] at distinct
    rcases List.forall_mem_cons.mp each with ⟨draws, others⟩
    refine inductionHypothesis (billing.insertDraw draws first) ?_
      distinct.2 later
    intro other member
    refine draws_after (others other member) ?_ first
    intro same
    apply distinct.1
    rw [← same]
    exact List.mem_map_of_mem member

end Billing

/-- A portion which is taken from the part of an invoice it names. -/
structure Portion.Within (db : UsageDb) (tenantId invoiceReference : String)
    (portion : Portion) : Prop where
  positive : 0 < portion.credited
  available : portion.credited ≤
    billed db tenantId invoiceReference portion.allocation.entitlementId

theorem Portion.Within.covered {input : SignedInput} {claim : Claimed}
    {entitlement : UsageEntitlement} {portion : Portion}
    (within : portion.Within db input.tenantId claim.invoiceReference)
    (reference : input.invoiceReference = some claim.invoiceReference)
    (same : entitlement.id = portion.allocation.entitlementId) :
    Covered db
      (input.entry .credit claim entitlement (-portion.credited)) := by
  intro invoiceReference isReference
  have known : some claim.invoiceReference = some invoiceReference :=
    reference.symm.trans isReference
  cases known
  have available := within.available
  rw [← same] at available
  show 0 ≤ billed db input.tenantId claim.invoiceReference entitlement.id +
    -portion.credited
  omega

theorem draws_of_derivedEntries {written : UsageDb} {input : SignedInput}
    {claim : Claimed} {portions : List Portion} {derived : List EntryInput}
    (within : ∀ portion ∈ portions,
      portion.Within db input.tenantId claim.invoiceReference)
    (reference : input.invoiceReference = some claim.invoiceReference)
    (isDerived : derivedEntries runtime written input claim portions = .ok
      derived) : ∀ entry ∈ derived, Draws db entry := by
  rw [derivedEntries] at isDerived
  refine Fallible.forall_mem_of_mapM isDerived ?_
  rintro ⟨portion, index⟩ member entry isEntry
  rcases derivedFrom_of_derivedEntry isEntry with
    ⟨⟨entitlement, found, rfl⟩, _⟩
  have inside : portion ∈ portions :=
    List.fst_mem_of_mem_zipIdx (List.mem_of_mem_drop member)
  have portionWithin := within portion inside
  refine ⟨rfl, ?_, ?_⟩
  · exact Int.neg_nonpos_of_nonneg (Int.le_of_lt portionWithin.positive)
  · exact portionWithin.covered reference (mem_of_entitlementById found).2.1

/-- What a credit takes is there, and each time of another entitlement. -/
theorem Books.within_portions (books : Books db) {tenantId : String}
    {claim : Claimed} {found : List InvoiceAllocation}
    {portions : List Portion}
    (isFound : invoiceAllocationsFor db tenantId claim.invoiceReference
      none = .ok found)
    (taken : takePortions found (-claim.delta) = (portions, 0)) :
    (∀ portion ∈ portions,
        portion.Within db tenantId claim.invoiceReference) ∧
      (portions.map fun portion =>
        portion.allocation.entitlementId).Nodup := by
  have isAllocations := (invoiceAllocationsFor_eq_ok.mp isFound).1
  have among := allocations_takePortions found (-claim.delta)
  have positive := @positive_of_takePortions found (-claim.delta)
  have atMost := @portion_le_allocated found (-claim.delta)
  rw [taken] at among positive atMost
  constructor
  · intro portion member
    refine ⟨positive portion member, ?_⟩
    have inside : portion.allocation ∈ found :=
      among.subset (List.mem_map_of_mem member)
    rw [isAllocations] at inside
    rw [← books.allocated_eq inside]
    exact atMost portion member
  · have distinct := books.nodup_entitlements_allocations tenantId
      claim.invoiceReference none
    rw [← isAllocations] at distinct
    have apart := distinct.sublist (among.map _)
    rw [List.map_map] at apart
    exact apart

namespace Billing

variable {input : SignedInput} {claim : Claimed}
  {finance : UsageFinanceAuthorization}

theorem commitAdjustment (billing : Billing db)
    (stated : Stated input .adjustment claim)
    (committed : Yields (commitSigned runtime input .adjustment claim finance)
      db row after) : Billing after := by
  rcases plan_of_commitSigned committed with ⟨plan, ⟨writes⟩⟩
  cases selects_of_selectAllocation plan.isSelected with
  | credit _ _ impossible _ _ _ _ => cases impossible
  | other _ _ portions _ _ delta =>
    have positive := stated.positive rfl
    rw [← delta] at positive
    have notNegative := Int.le_of_lt positive
    have sign : HasSign (input.entry .adjustment claim plan.entitlement
        plan.selected.firstDelta).entryType plan.selected.firstDelta :=
      notNegative
    have rooted := billing.insertEntry sign
      (billing.covered_of_nonneg notNegative) writes.root
    have nothing : writes.derived = [] := by
      have isDerived := writes.isDerived
      rw [portions] at isDerived
      exact (Fallible.pure_eq_ok.mp isDerived).symm
    have inserted := writes.inserted
    rw [nothing] at inserted
    have finished := rooted.insertDerived (List.forall_mem_nil _)
      List.nodup_nil inserted
    rcases yields_consume.mp writes.consumed with ⟨_, isAfter⟩
    rw [isAfter]
    exact finished.congr rfl rfl

theorem commitCredit (billing : Billing db) (books : Books db)
    (reference : input.invoiceReference = some claim.invoiceReference)
    (committed : Yields (commitSigned runtime input .credit claim finance)
      db row after) : Billing after := by
  rcases plan_of_commitSigned committed with ⟨plan, ⟨writes⟩⟩
  cases selects_of_selectAllocation plan.isSelected with
  | other _ impossible _ _ _ _ => exact absurd rfl impossible
  | credit first rest _ portions taken entitlement delta =>
    rcases books.within_portions plan.isFound taken with ⟨within, distinct⟩
    rcases List.forall_mem_cons.mp within with ⟨firstWithin, restWithin⟩
    have sameEntitlement : plan.entitlement.id =
        first.allocation.entitlementId :=
      (mem_of_entitlementById plan.isEntitlement).2.1.trans entitlement
    have root := writes.root
    rw [delta] at root
    have rootDraws : Draws db (input.entry .credit claim plan.entitlement
        (-first.credited)) :=
      ⟨rfl, Int.neg_nonpos_of_nonneg (Int.le_of_lt firstWithin.positive),
        firstWithin.covered reference sameEntitlement⟩
    have rooted := billing.insertDraw rootDraws root
    have entitlements := Books.entitlements_of_derivedEntries writes.isDerived
    rw [portions] at entitlements
    rw [List.map_cons, List.nodup_cons] at distinct
    have finished : Billing writes.finished := by
      refine rooted.insertDerived ?_ ?_ writes.inserted
      · intro entry member
        have draws := draws_of_derivedEntries within reference
          (portions ▸ writes.isDerived) entry member
        refine draws_after draws ?_ root
        intro same
        apply distinct.1
        have inside : entry.entitlementId ∈
            writes.derived.map EntryInput.entitlementId :=
          List.mem_map_of_mem member
        rw [entitlements] at inside
        have isRoot : entry.entitlementId = first.allocation.entitlementId :=
          same.trans sameEntitlement
        rw [← isRoot]
        exact inside
      · rw [entitlements]
        exact distinct.2
    rcases yields_consume.mp writes.consumed with ⟨_, isAfter⟩
    rw [isAfter]
    exact finished.congr rfl rfl

theorem signedUsageChange (billing : Billing db) (books : Books db)
    {entryType : UsageEntryType} (financial : entryType.Financial)
    (trimmed : entryType = .credit →
      input.invoiceReference.map Text.trim = input.invoiceReference)
    (changed : Yields (signedUsageChange runtime input entryType) db row
      after) : Billing after := by
  rcases yields_signedUsageChange.mp changed with
    ⟨claim, finance, isClaim, _, _, ⟨_, _, rfl⟩ | ⟨_, committed⟩⟩
  · exact billing
  have stated := stated_of_claimed isClaim
  cases entryType with
  | adjustment => exact billing.commitAdjustment stated committed
  | credit =>
    have invoice := stated.invoice
    rw [trimmed rfl, truthy, Option.filter_eq_some_iff] at invoice
    exact billing.commitCredit books invoice.1 committed
  | reservation => cases financial
  | settlement => cases financial
  | release => cases financial

end Billing

/-! ## Every call -/

theorem prices_of_insertPrice {price created : UsagePriceVersion}
    (inserted : Yields (insertPrice price) db created after) :
    after.entries = db.entries ∧
      (after.prices = db.prices ∨ after.prices = db.prices ++ [price]) := by
  rw [insertPrice, yields_get_bind] at inserted
  cases found : db.prices.find? fun current =>
      decide (current.id = price.id) with
  | some current =>
    rw [found] at inserted
    rcases yields_lift_bind.mp inserted with ⟨_, _, last⟩
    rcases yields_pure.mp last with ⟨rfl, rfl⟩
    exact ⟨rfl, .inl rfl⟩
  | none =>
    rw [found] at inserted
    rcases yields_lift_bind.mp inserted with ⟨_, _, rest⟩
    rcases yields_bind.mp rest with ⟨_, middle, changed, last⟩
    have isMiddle := yields_modify.mp changed
    rcases yields_pure.mp last with ⟨rfl, rfl⟩
    rw [← isMiddle]
    exact ⟨rfl, .inr rfl⟩

namespace Billing

theorem priceVersion (billing : Billing db) {input : PriceInput}
    {price : UsagePriceVersion}
    (created : Yields (createUsagePriceVersion runtime input) db price
      after) : Billing after := by
  rw [createUsagePriceVersion] at created
  iterate 5
    rw [yields_lift_bind] at created
    rcases created with ⟨_, _, created⟩
  rw [yields_lift_bind] at created
  rcases created with ⟨amount, counted, created⟩
  rcases micros_eq_ok.mp counted with ⟨_, nonneg, rfl⟩
  iterate 4
    rw [yields_lift_bind] at created
    rcases created with ⟨_, _, created⟩
  rcases prices_of_insertPrice created with ⟨entries, same | more⟩
  · exact billing.congr entries same
  · have kept : Billing { after with prices := db.prices } :=
      billing.congr entries rfl
    refine ⟨kept.signs, kept.covered, ?_⟩
    rw [more]
    intro other member
    rw [List.mem_append, List.mem_singleton] at member
    rcases member with before | rfl
    · exact billing.prices other before
    · exact nonneg rfl

theorem perform (billing : Billing db) (books : Books db) {call : Call}
    {answer : Answer} (trimmed : (Event.call call).Trimmed)
    (performed : Yields (call.perform runtime) db answer after) :
    Billing after := by
  cases call with
  | price input =>
    rcases yields_map.mp performed with ⟨created, yields, _⟩
    exact billing.priceVersion yields
  | entitlement input =>
    rcases yields_map.mp performed with ⟨created, yields, _⟩
    rcases yields_createUsageEntitlement yields with rfl | added
    · exact billing
    · rw [added.isAfter]
      exact billing.congr rfl rfl
  | authorization input =>
    rcases yields_map.mp performed with ⟨created, yields, _⟩
    rcases yields_createUsageFinanceAuthorization yields with rfl | added
    · exact billing
    · rw [added.isAfter]
      exact billing.congr rfl rfl
  | reserve input =>
    rcases yields_map.mp performed with ⟨row, yields, _⟩
    rcases yields_reserveUsage.mp yields with ⟨_, _, _, inserted⟩
    have sign : HasSign .reservation 0 := rfl
    exact billing.insertEntry sign
      (billing.covered_of_nonneg (Int.le_refl 0)) inserted
  | settle input =>
    rcases yields_map.mp performed with ⟨row, yields, _⟩
    rcases yields_settleUsageReservation.mp yields with
      ⟨_, _, _, _, notNegative, _, _, _, inserted⟩
    have sign : HasSign .settlement input.actualMcuMicros := notNegative
    exact billing.insertEntry sign (billing.covered_of_nonneg notNegative)
      inserted
  | release input =>
    rcases yields_map.mp performed with ⟨row, yields, _⟩
    rcases yields_releaseUsageReservation.mp yields with
      ⟨_, _, _, inserted⟩
    have sign : HasSign .release 0 := rfl
    exact billing.insertEntry sign
      (billing.covered_of_nonneg (Int.le_refl 0)) inserted
  | adjust input =>
    rcases yields_map.mp performed with ⟨row, yields, _⟩
    have financial : UsageEntryType.Financial .adjustment := trivial
    exact billing.signedUsageChange books financial nofun yields
  | credit input =>
    rcases yields_map.mp performed with ⟨row, yields, _⟩
    have financial : UsageEntryType.Financial .credit := trivial
    exact billing.signedUsageChange books financial (fun _ => trimmed)
      yields

theorem step (billing : Billing db) (books : Books db) {event : Event}
    (trimmed : event.Trimmed) : Billing (step runtime db event) := by
  rcases step_cases runtime db event with
    ⟨call, answer, rfl, performed⟩ | same | ⟨identities, same⟩
  · exact billing.perform books trimmed performed
  · rw [same]
    exact billing
  · rw [same]
    exact billing.congr rfl rfl

theorem run (runtime : Runtime) (identities : Identities)
    {events : List Event} (trimmed : ∀ event ∈ events, event.Trimmed) :
    Billing (run (Usage.step runtime) (UsageDb.empty identities) events) := by
  have preserved (db : UsageDb) (event : Event)
      (both : Books db ∧ Billing db) (isTrimmed : event.Trimmed) :
      Books (Usage.step runtime db event) ∧
        Billing (Usage.step runtime db event) :=
    ⟨both.1.step event, both.2.step both.1 isTrimmed⟩
  exact (run_along_invariant preserved
    ⟨books_empty identities, billing_empty identities⟩
    (along_of_forall_mem trimmed _)).2

end Billing

end Mendpoint.Usage
