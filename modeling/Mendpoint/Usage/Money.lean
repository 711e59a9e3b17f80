import Mathlib.Algebra.BigOperators.Ring.Finset
import Mathlib.Algebra.Order.BigOperators.Group.List
import Mendpoint.Usage.Billing

/-!
# The money of an invoice

The money of an entry is its amount times its price, divided by a million and
rounded toward zero.  Every entry is rounded on its own, so that the credits
of an invoice may return what several of its charges have lost; they return
no more than that.
-/

namespace Mendpoint.Usage

open Mendpoint.Library
open Mendpoint.Library.FilteredSum
open Mendpoint.Library.Run
open Mendpoint.Library.Truncation

/-! ## The money of an entry -/

/-- How many of the parts of an MCU one of them has. -/
def microsPerMcu : Int := 1000000

def moneyForMcu (mcuMicros pricePerMcuMoneyMicros : Int) :
    Except String Int :=
  let value := (mcuMicros * pricePerMcuMoneyMicros).tdiv microsPerMcu
  if SafeInteger.Safe value then .ok value
  else .error "gross_margin_money_overflow"

/-- The price version of an entry, which a `LEFT JOIN` adds to it. -/
def priceOf (db : UsageDb) (entry : UsageLedgerEntry) : Int :=
  ((getUsagePriceVersion db entry.tenantId entry.priceVersion).map
    UsagePriceVersion.pricePerMcuMoneyMicros).getD 0

/-- The amount of an entry times its price. -/
def priced (db : UsageDb) (entry : UsageLedgerEntry) : Int :=
  entry.consumedMcuMicrosDelta * priceOf db entry

/-- The money of an entry, which is none where it has no price version. -/
def entryMoney (db : UsageDb) (entry : UsageLedgerEntry) : Int :=
  (priced db entry).tdiv microsPerMcu

theorem moneyForMcu_entry {db : UsageDb} {entry : UsageLedgerEntry}
    {money : Int} :
    moneyForMcu entry.consumedMcuMicrosDelta (priceOf db entry) =
        .ok money ↔
      SafeInteger.Safe money ∧ entryMoney db entry = money := by
  rw [moneyForMcu]
  show (if SafeInteger.Safe (entryMoney db entry) then
    Except.ok (entryMoney db entry) else _) = _ ↔ _
  split
  · next safe =>
      constructor
      · intro same
        cases same
        exact ⟨safe, rfl⟩
      · rintro ⟨_, rfl⟩
        rfl
  · next unsafe' =>
      constructor
      · intro impossible
        cases impossible
      · rintro ⟨safe, rfl⟩
        exact absurd safe unsafe'

/-! ## The money of an invoice -/

def isCharge (entry : UsageLedgerEntry) : Bool :=
  decide (entry.entryType = .settlement ∨ entry.entryType = .adjustment)

def isCredit (entry : UsageLedgerEntry) : Bool :=
  decide (entry.entryType = .credit)

/-- The money of the settlements and adjustments of an invoice. -/
def chargeMoney (db : UsageDb) (tenantId invoiceReference : String) : Int :=
  sumWhere (entryMoney db) isCharge
    (invoiceEntries db tenantId invoiceReference none)

/-- The money which the credits of an invoice return. -/
def creditMoney (db : UsageDb) (tenantId invoiceReference : String) : Int :=
  -sumWhere (entryMoney db) isCredit
    (invoiceEntries db tenantId invoiceReference none)

/-- The entries of an invoice for an entitlement under a price. -/
def groupOf (entries : List UsageLedgerEntry) (key : String × String) :
    List UsageLedgerEntry :=
  entries.filter fun entry => decide (allocationKey entry = key)

/-- The entries of a kind whose money was rounded. -/
def rounded (db : UsageDb) (kind : UsageLedgerEntry → Bool)
    (entries : List UsageLedgerEntry) : List UsageLedgerEntry :=
  entries.filter fun entry =>
    kind entry && !decide (microsPerMcu ∣ priced db entry)

/-- The rounded entries of a kind, without the first of each group. -/
def roundedAgain (db : UsageDb) (kind : UsageLedgerEntry → Bool)
    (entries : List UsageLedgerEntry) : Nat :=
  ((entries.map allocationKey).dedup.map fun key =>
    (rounded db kind (groupOf entries key)).length - 1).sum

/-! ## Signs -/

variable {db : UsageDb} {tenantId invoiceReference : String}

namespace Billing

theorem priceOf_nonneg (billing : Billing db) (entry : UsageLedgerEntry) :
    0 ≤ priceOf db entry := by
  rw [priceOf]
  cases found : getUsagePriceVersion db entry.tenantId
      entry.priceVersion with
  | none => exact Int.le_refl 0
  | some price =>
    exact billing.prices price (List.mem_of_find?_eq_some found)

theorem priced_sign (billing : Billing db) {entry : UsageLedgerEntry}
    (member : entry ∈ db.entries) :
    HasSign entry.entryType (priced db entry) := by
  have price := billing.priceOf_nonneg entry
  have sign := billing.signs entry member
  rw [priced]
  cases type : entry.entryType with
  | reservation =>
    rw [type] at sign
    have nothing : entry.consumedMcuMicrosDelta = 0 := sign
    rw [nothing]
    exact Int.zero_mul _
  | settlement =>
    rw [type] at sign
    exact Int.mul_nonneg sign price
  | release =>
    rw [type] at sign
    have nothing : entry.consumedMcuMicrosDelta = 0 := sign
    rw [nothing]
    exact Int.zero_mul _
  | adjustment =>
    rw [type] at sign
    exact Int.mul_nonneg sign price
  | credit =>
    rw [type] at sign
    exact Int.mul_nonpos_of_nonpos_of_nonneg sign price

/-- The money of an entry counts as a charge, as a credit, or not at all. -/
theorem money_split (billing : Billing db) {entry : UsageLedgerEntry}
    (member : entry ∈ db.entries) :
    entryMoney db entry =
      (if isCharge entry then entryMoney db entry else 0) +
        if isCredit entry then entryMoney db entry else 0 := by
  have sign := billing.priced_sign member
  cases type : entry.entryType with
  | reservation =>
    rw [type] at sign
    have nothing : priced db entry = 0 := sign
    simp [isCharge, isCredit, type, entryMoney, nothing]
  | settlement => simp [isCharge, isCredit, type]
  | release =>
    rw [type] at sign
    have nothing : priced db entry = 0 := sign
    simp [isCharge, isCredit, type, entryMoney, nothing]
  | adjustment => simp [isCharge, isCredit, type]
  | credit => simp [isCharge, isCredit, type]

theorem shortened_iff (billing : Billing db) {entry : UsageLedgerEntry}
    (member : entry ∈ db.entries) :
    Shortened microsPerMcu (priced db entry) ↔
      isCharge entry = true ∧ ¬ microsPerMcu ∣ priced db entry := by
  have sign := billing.priced_sign member
  rw [Shortened, and_congr_left_iff]
  intro indivisible
  have some' : priced db entry ≠ 0 := by
    intro nothing
    rw [nothing] at indivisible
    exact indivisible (Int.dvd_zero _)
  rw [isCharge, decide_eq_true_eq]
  cases type : entry.entryType with
  | reservation =>
    rw [type] at sign
    exact absurd sign some'
  | settlement =>
    rw [type] at sign
    exact iff_of_true (lt_of_le_of_ne sign some'.symm) (.inl rfl)
  | release =>
    rw [type] at sign
    exact absurd sign some'
  | adjustment =>
    rw [type] at sign
    exact iff_of_true (lt_of_le_of_ne sign some'.symm) (.inr rfl)
  | credit =>
    rw [type] at sign
    exact iff_of_false (not_lt.mpr sign) (by simp)

theorem shortened_neg_iff (billing : Billing db) {entry : UsageLedgerEntry}
    (member : entry ∈ db.entries) :
    Shortened microsPerMcu (-priced db entry) ↔
      isCredit entry = true ∧ ¬ microsPerMcu ∣ priced db entry := by
  have sign := billing.priced_sign member
  rw [Shortened, Int.dvd_neg, and_congr_left_iff, Int.neg_pos]
  intro indivisible
  have some' : priced db entry ≠ 0 := by
    intro nothing
    rw [nothing] at indivisible
    exact indivisible (Int.dvd_zero _)
  rw [isCredit, decide_eq_true_eq]
  cases type : entry.entryType with
  | reservation =>
    rw [type] at sign
    exact absurd sign some'
  | settlement =>
    rw [type] at sign
    exact iff_of_false (not_lt.mpr sign) (by simp)
  | release =>
    rw [type] at sign
    exact absurd sign some'
  | adjustment =>
    rw [type] at sign
    exact iff_of_false (not_lt.mpr sign) (by simp)
  | credit =>
    rw [type] at sign
    exact iff_of_true (lt_of_le_of_ne sign some') rfl

end Billing

/-! ## Groups -/

/-- The keys of the groups of an invoice. -/
def groupKeys (entries : List UsageLedgerEntry) : List (String × String) :=
  (entries.map allocationKey).dedup

theorem mem_groupKeys {entries : List UsageLedgerEntry}
    {entry : UsageLedgerEntry} (member : entry ∈ entries) :
    allocationKey entry ∈ groupKeys entries :=
  List.mem_dedup.mpr (List.mem_map_of_mem member)

theorem sum_by_group (amount : UsageLedgerEntry → Int)
    (entries : List UsageLedgerEntry) :
    (entries.map amount).sum =
      ((groupKeys entries).map fun key =>
        ((groupOf entries key).map amount).sum).sum :=
  sum_by_key (List.nodup_dedup _) amount fun _ => mem_groupKeys

/-- Entries of a ledger which all have one price. -/
structure OnePrice (db : UsageDb) (price : Int)
    (group : List UsageLedgerEntry) : Prop where
  inside : ∀ entry ∈ group, entry ∈ db.entries
  same : ∀ entry ∈ group, priceOf db entry = price
  nonneg : 0 ≤ price

variable {group : List UsageLedgerEntry} {price : Int}

theorem OnePrice.sum_priced (one : OnePrice db price group) :
    (group.map (priced db)).sum = consumedSum group * price := by
  rw [consumedSum, ← List.sum_map_mul_right]
  apply congrArg List.sum
  apply List.map_congr_left
  intro entry member
  rw [priced, one.same entry member]

theorem quotients_priced (entries : List UsageLedgerEntry) :
    quotients microsPerMcu (entries.map (priced db)) =
      (entries.map (entryMoney db)).sum := by
  rw [quotients, List.map_map]
  rfl

theorem shortened_eq_rounded {kind : UsageLedgerEntry → Bool}
    {numbers : UsageLedgerEntry → Int}
    (exactly : ∀ entry ∈ group,
      Shortened microsPerMcu (numbers entry) ↔
        kind entry = true ∧ ¬ microsPerMcu ∣ priced db entry) :
    shortened microsPerMcu (group.map numbers) =
      (rounded db kind group).length := by
  rw [shortened, List.countP_map, rounded, ← List.countP_eq_length_filter]
  apply List.countP_congr
  intro entry member
  rw [Function.comp_apply, decide_eq_true_eq, Bool.and_eq_true,
    Bool.not_eq_true', decide_eq_false_iff_not]
  exact exactly entry member

namespace Billing

/-- The money of a group is not negative, but for what was rounded. -/
theorem money_of_group (billing : Billing db)
    (one : OnePrice db price group) (nonneg : 0 ≤ consumedSum group) :
    0 ≤ (group.map (entryMoney db)).sum +
      ((rounded db isCharge group).length - 1 : Nat) := by
  have total : 0 ≤ (group.map (priced db)).sum := by
    rw [one.sum_priced]
    exact Int.mul_nonneg nonneg one.nonneg
  have positive : 0 < microsPerMcu := by decide
  have bound := quotients_ge positive total
  have counted := @shortened_eq_rounded db group isCharge (priced db)
    fun entry member => billing.shortened_iff (one.inside entry member)
  rw [quotients_priced, counted] at bound
  exact bound

/-- A group of which nothing is left has no money, but for what was rounded. -/
theorem money_of_credited (billing : Billing db)
    (one : OnePrice db price group) (nothing : consumedSum group = 0) :
    (group.map (entryMoney db)).sum ≤
      ((rounded db isCredit group).length - 1 : Nat) := by
  have total : ((group.map (priced db)).map fun number => -number).sum =
      0 := by
    rw [← List.sum_neg, one.sum_priced, nothing, Int.zero_mul, Int.neg_zero]
  have positive : 0 < microsPerMcu := by decide
  have bound := quotients_ge positive (Int.le_of_eq total.symm)
  have counted := @shortened_eq_rounded db group isCredit
    (fun entry => -priced db entry) fun entry member =>
      billing.shortened_neg_iff (one.inside entry member)
  rw [quotients_neg, quotients_priced, List.map_map] at bound
  have same : (fun number => -number) ∘ priced db =
      fun entry => -priced db entry := rfl
  rw [same, counted] at bound
  omega

end Billing

/-! ## Invoices -/

theorem onePrice_of_group (billing : Billing db) (key : String × String) :
    OnePrice db
      (((getUsagePriceVersion db tenantId key.2).map
        UsagePriceVersion.pricePerMcuMoneyMicros).getD 0)
      (groupOf (invoiceEntries db tenantId invoiceReference none) key) := by
  have known (entry : UsageLedgerEntry)
      (member : entry ∈ groupOf
        (invoiceEntries db tenantId invoiceReference none) key) :
      entry ∈ db.entries ∧ entry.tenantId = tenantId ∧
        allocationKey entry = key := by
    rw [groupOf, List.mem_filter, decide_eq_true_eq, invoiceEntries,
      List.mem_filter, decide_eq_true_eq] at member
    exact ⟨member.1.1, member.1.2.1, member.2⟩
  refine ⟨fun entry member => (known entry member).1, ?_, ?_⟩
  · intro entry member
    rcases known entry member with ⟨_, tenant, rfl⟩
    rw [priceOf, tenant]
    rfl
  · cases found : getUsagePriceVersion db tenantId key.2 with
    | none => exact Int.le_refl 0
    | some price =>
      exact billing.prices price (List.mem_of_find?_eq_some found)

theorem consumed_of_group (books : Books db) (billing : Billing db)
    {key : String × String} (isKey : key ∈ groupKeys
      (invoiceEntries db tenantId invoiceReference none)) :
    0 ≤ consumedSum (groupOf
      (invoiceEntries db tenantId invoiceReference none) key) := by
  rcases List.mem_map.mp (List.mem_dedup.mp isKey) with ⟨entry, inside, rfl⟩
  rw [groupOf, books.group_eq inside]
  exact billing.covered tenantId invoiceReference entry.entitlementId

/-- An invoice is credited in full where each of its groups is. -/
theorem consumed_of_credited (books : Books db) (billing : Billing db)
    (credited : consumedSum
      (invoiceEntries db tenantId invoiceReference none) = 0)
    {key : String × String} (isKey : key ∈ groupKeys
      (invoiceEntries db tenantId invoiceReference none)) :
    consumedSum (groupOf
      (invoiceEntries db tenantId invoiceReference none) key) = 0 := by
  rw [consumedSum, sum_by_group] at credited
  refine List.all_zero_of_le_zero_le_of_sum_eq_zero ?_ credited
    (List.mem_map_of_mem isKey)
  intro part member
  rcases List.mem_map.mp member with ⟨other, isOther, rfl⟩
  exact consumed_of_group books billing isOther

theorem net_eq (billing : Billing db) :
    chargeMoney db tenantId invoiceReference -
        creditMoney db tenantId invoiceReference =
      ((invoiceEntries db tenantId invoiceReference none).map
        (entryMoney db)).sum := by
  have inside : ∀ entry ∈ invoiceEntries db tenantId invoiceReference none,
      entry ∈ db.entries := fun entry member => (List.mem_filter.mp member).1
  rw [chargeMoney, creditMoney, Int.sub_neg]
  generalize invoiceEntries db tenantId invoiceReference none = entries
    at inside
  induction entries with
  | nil => rfl
  | cons entry rest inductionHypothesis =>
    rcases List.forall_mem_cons.mp inside with ⟨isEntry, others⟩
    have split := billing.money_split isEntry
    rw [← List.singleton_append, sumWhere_append, sumWhere_append,
      sumWhere_singleton, sumWhere_singleton, List.map_append,
      List.sum_append, ← inductionHypothesis others, List.map_singleton,
      List.sum_singleton]
    omega

/-- The rounded entries of an invoice, as a sum of whole numbers. -/
theorem roundedAgain_eq (kind : UsageLedgerEntry → Bool)
    (entries : List UsageLedgerEntry) :
    (roundedAgain db kind entries : Int) =
      ((groupKeys entries).map fun key =>
        (((rounded db kind (groupOf entries key)).length - 1 : Nat) : Int)
        ).sum := by
  rw [roundedAgain, groupKeys, Nat.cast_list_sum, List.map_map]
  rfl

theorem credits_le (books : Books db) (billing : Billing db) :
    creditMoney db tenantId invoiceReference ≤
      chargeMoney db tenantId invoiceReference +
        roundedAgain db isCharge
          (invoiceEntries db tenantId invoiceReference none) := by
  have net := @net_eq db tenantId invoiceReference billing
  have each : 0 ≤ ((groupKeys
      (invoiceEntries db tenantId invoiceReference none)).map fun key =>
        ((groupOf (invoiceEntries db tenantId invoiceReference none)
            key).map (entryMoney db)).sum +
          (((rounded db isCharge (groupOf (invoiceEntries db tenantId
            invoiceReference none) key)).length - 1 : Nat) : Int)).sum := by
    apply List.sum_nonneg
    intro part member
    rcases List.mem_map.mp member with ⟨key, isKey, rfl⟩
    exact billing.money_of_group (onePrice_of_group billing key)
      (consumed_of_group books billing isKey)
  rw [List.sum_map_add, ← sum_by_group, ← roundedAgain_eq, ← net] at each
  omega

theorem charges_le (books : Books db) (billing : Billing db)
    (credited : consumedSum
      (invoiceEntries db tenantId invoiceReference none) = 0) :
    chargeMoney db tenantId invoiceReference ≤
      creditMoney db tenantId invoiceReference +
        roundedAgain db isCredit
          (invoiceEntries db tenantId invoiceReference none) := by
  have net := @net_eq db tenantId invoiceReference billing
  have each := List.sum_le_sum fun key
      (isKey : key ∈ groupKeys
        (invoiceEntries db tenantId invoiceReference none)) =>
    billing.money_of_credited (onePrice_of_group billing key)
      (consumed_of_credited books billing credited isKey)
  rw [← sum_by_group, ← roundedAgain_eq, ← net] at each
  omega

/--
Where every credit names its invoice without white space around it, the
credits of an invoice return at most its charges and one part of money for
every rounded charge but the first of each entitlement and price; and once all
of it is credited, at most one part is missing for every rounded credit but
the first of each.
-/
theorem credits_within_charges (runtime : Runtime) (identities : Identities)
    (events : List Event) (trimmed : ∀ event ∈ events, event.Trimmed)
    (tenantId invoiceReference : String) (db : UsageDb)
    (reached : db = run (step runtime) (UsageDb.empty identities) events) :
    creditMoney db tenantId invoiceReference ≤
        chargeMoney db tenantId invoiceReference +
          roundedAgain db isCharge
            (invoiceEntries db tenantId invoiceReference none) ∧
      (consumedSum (invoiceEntries db tenantId invoiceReference none) = 0 →
        chargeMoney db tenantId invoiceReference ≤
          creditMoney db tenantId invoiceReference +
            roundedAgain db isCredit
              (invoiceEntries db tenantId invoiceReference none)) := by
  have books : Books db := by
    rw [reached]
    exact Books.run runtime identities events
  have billing : Billing db := by
    rw [reached]
    exact Billing.run runtime identities trimmed
  exact ⟨credits_le books billing, charges_le books billing⟩

/-! ### Two parts of an MCU -/

/-- A runtime which knows two years, and whose digests are all the same. -/
def yearly : Runtime where
  sha256 := fun _ => "5e"
  parseDate := fun text =>
    if text = "2026" then some 1767225600000
    else if text = "2027" then some 1798761600000
    else none
  upperCase := id

/-- A tenant with its owner. -/
def oneOwner : Identities where
  tenants := ["t"]
  principals := [{
    id := "p"
    tenantId := "t"
    kind := "human"
    subject := "i|s"
    audience := some "i"
    expiresAt := none
    revokedAt := none
    createdAt := "2026" }]
  memberships := [{
    tenantId := "t"
    issuer := "i"
    subject := "s"
    role := "owner"
    status := "active"
    updatedAt := "2026" }]

/-- A request of the owner, which is its own idempotency key. -/
def ownRequest (id : String) (invoiceReference : Option String) :
    Request where
  id := id
  tenantId := "t"
  idempotencyKey := id
  invoiceReference := invoiceReference
  reason := "r"
  actorPrincipalId := some "p"
  financeAuthorizationId := none
  financeAuthorizationDigest := none
  createdAt := "2026"

/-- A price of one part of money for an MCU. -/
def unitPrice : PriceInput where
  id := "v"
  tenantId := "t"
  formulaVersion := "f"
  currency := "USD"
  pricePerMcuMoneyMicros := 1
  effectiveAt := "2026"
  expiresAt := none
  contractReference := "c"
  createdAt := "2026"

def unitEntitlement : EntitlementInput where
  id := "e"
  tenantId := "t"
  priceVersionId := "v"
  quotaMcuMicros := 10000000
  features := ["x"]
  contractReference := "c"
  periodStart := "2026"
  periodEnd := "2027"
  createdAt := "2026"

def reservePart (id : String) : ReserveInput :=
  { ownRequest id none with
    taskId := "k"
    campaignId := none
    consumptionProvenance := none
    mcuMicros := 600000 }

def settlePart (id reservationId : String) : SettleInput :=
  { ownRequest id (some "n") with
    reservationId := reservationId
    actualMcuMicros := 600000
    consumption := some .measured }

def creditAuthorization : AuthorizationInput where
  id := "a"
  tenantId := "t"
  approvedByPrincipalId := "p"
  actorPrincipalId := "p"
  entryType := .credit
  invoiceReference := "n"
  entryIdempotencyKey := "5"
  mcuMicrosDelta := -1200000
  reason := "r"
  allocationEntitlementId := none
  allocationPriceVersion := none
  approvedAt := "2026"
  expiresAt := "2027"

def creditParts : SignedInput :=
  { ownRequest "5" (some "n") with
    financeAuthorizationId := some "a"
    financeAuthorizationDigest := some "sha256:5e"
    taskId := "k"
    campaignId := none
    consumptionProvenance := none
    mcuMicrosDelta := -1200000 }

/-- Two parts of an MCU are settled and credited together. -/
def partEvents : List Event :=
  [.call (.price unitPrice), .call (.entitlement unitEntitlement),
    .call (.reserve (reservePart "1")), .call (.settle (settlePart "2" "1")),
    .call (.reserve (reservePart "3")), .call (.settle (settlePart "4" "3")),
    .call (.authorization creditAuthorization), .call (.credit creditParts)]

def partLedger : UsageDb :=
  run (step yearly) (UsageDb.empty oneOwner) partEvents

theorem trimmed_partEvents : ∀ event ∈ partEvents, event.Trimmed := by
  have credit : (Event.call (.credit creditParts)).Trimmed := rfl
  simp only [partEvents, List.forall_mem_cons]
  exact ⟨trivial, trivial, trivial, trivial, trivial, trivial, trivial,
    credit, List.forall_mem_nil _⟩

theorem credits_within_charges_partLedger :
    creditMoney partLedger "t" "n" ≤
        chargeMoney partLedger "t" "n" +
          roundedAgain partLedger isCharge
            (invoiceEntries partLedger "t" "n" none) ∧
      (consumedSum (invoiceEntries partLedger "t" "n" none) = 0 →
        chargeMoney partLedger "t" "n" ≤
          creditMoney partLedger "t" "n" +
            roundedAgain partLedger isCredit
              (invoiceEntries partLedger "t" "n" none)) :=
  credits_within_charges yearly oneOwner partEvents trimmed_partEvents "t"
    "n" partLedger rfl

set_option maxRecDepth 20000 in
/-- Neither part is worth any money, and their credit is. -/
theorem partLedger_returns_more :
    ¬ creditMoney partLedger "t" "n" ≤ chargeMoney partLedger "t" "n" ∧
      consumedSum (invoiceEntries partLedger "t" "n" none) = 0 ∧
        creditMoney partLedger "t" "n" ≠ chargeMoney partLedger "t" "n" := by
  decide

end Mendpoint.Usage
