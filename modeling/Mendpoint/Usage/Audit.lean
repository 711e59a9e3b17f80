import Mendpoint.Library.OrderedMap
import Mendpoint.Usage.Store

/-!
# The auditor of the usage ledger

What an entry of finance has to be by its authorization, and the
reconciliation of a tenant's ledger: hashes, authorizations, provenance and
running balances, entry after entry.
-/

namespace Mendpoint.Usage

open Mendpoint.Library
open Mendpoint.Library.Attempt

/-! ## Authorizations -/

/-- There is evidence about an entry, for its hash. -/
def hasEvidence (evidence : List LegacyEvidence) (migrationVersion : String)
    (entry : UsageLedgerEntry) : Bool :=
  match evidence.find? fun found =>
    decide (found.tenantId = entry.tenantId ∧ found.entryId = entry.id) with
  | none => false
  | some found =>
    decide (found.entryHash = entry.entryHash ∧
      found.status = "legacy_unverified" ∧
      found.migrationVersion = migrationVersion)

def isLegacyUnverifiedFinanceEntry (db : UsageDb)
    (entry : UsageLedgerEntry) : Bool :=
  if ¬ entry.entryType.Financial then false
  else if entry.financeAuthorizationId ≠ none ∨
      entry.financeAuthorizationDigest ≠ none then false
  else hasEvidence db.legacyFinance "usage-finance-authority/1" entry

def isLegacyUnverifiedMeasurementEntry (db : UsageDb)
    (entry : UsageLedgerEntry) : Bool :=
  if entry.entryType ≠ .settlement ∨
      entry.consumptionProvenance ≠ none then false
  else hasEvidence db.legacyMeasurement legacyMigrationVersion entry

def authorizationById (db : UsageDb) (tenantId id : String) :
    Option UsageFinanceAuthorization :=
  db.authorizations.find? fun finance =>
    decide (finance.id = id ∧ finance.tenantId = tenantId)

/-- An adjustment is the one which its authorization was consumed by. -/
def matchesAdjustment (runtime : Runtime)
    (finance : UsageFinanceAuthorization) (entry : UsageLedgerEntry) :
    Bool :=
  decide (entry.entryType = .adjustment ∧
    finance.intentDigest = sha256 runtime (usageFinanceIntent entry.tenantId
      entry.actorPrincipalId entry.entryType entry.invoiceReference
      entry.idempotencyKey entry.consumedMcuMicrosDelta entry.reason
      finance.allocationEntitlementId finance.allocationPriceVersion) ∧
    some finance.authorizationDigest = entry.financeAuthorizationDigest ∧
    finance.consumedEntryId = some entry.id ∧
    finance.consumedAt = some entry.createdAt)

/-- The first entry of a credit says what its authorization says. -/
def matchesRoot (runtime : Runtime) (finance : UsageFinanceAuthorization)
    (root : UsageLedgerEntry) : Prop :=
  root.entryType = .credit ∧
    root.idempotencyKey = finance.entryIdempotencyKey ∧
    root.invoiceReference = some finance.invoiceReference ∧
    root.actorPrincipalId = some finance.actorPrincipalId ∧
    root.financeAuthorizationDigest = some finance.authorizationDigest ∧
    root.reason = finance.reason ∧
    finance.intentDigest = sha256 runtime (usageFinanceIntent root.tenantId
      root.actorPrincipalId root.entryType root.invoiceReference
      root.idempotencyKey finance.mcuMicrosDelta root.reason
      finance.allocationEntitlementId finance.allocationPriceVersion) ∧
    finance.consumedAt = some root.createdAt

instance (runtime : Runtime) (finance : UsageFinanceAuthorization)
    (root : UsageLedgerEntry) : Decidable (matchesRoot runtime finance root) :=
  inferInstanceAs (Decidable (_ ∧ _))

/-- The entry which a portion of a credit has to have. -/
structure ExpectedPortion where
  id : String
  idempotencyKey : String
  entitlementId : String
  priceVersion : String
  consumedDelta : Int

/-- The entries of the portions: the first one's is the root. -/
def expectedPortions (runtime : Runtime)
    (finance : UsageFinanceAuthorization) (root : UsageLedgerEntry)
    (portions : List Portion) : List ExpectedPortion :=
  portions.zipIdx.map fun (portion, index) =>
    let identity := creditAllocationIdentity runtime finance.id
      finance.entryIdempotencyKey index "portion"
    { id := if index = 0 then root.id else identity
      idempotencyKey :=
        if index = 0 then finance.entryIdempotencyKey else identity
      entitlementId := portion.allocation.entitlementId
      priceVersion := portion.allocation.priceVersion
      consumedDelta := -portion.credited }

/-- An entry is the one which a portion has to have. -/
def matchesPortion (finance : UsageFinanceAuthorization)
    (root candidate : UsageLedgerEntry) (wanted : ExpectedPortion) : Prop :=
  candidate.id = wanted.id ∧
    candidate.idempotencyKey = wanted.idempotencyKey ∧
    candidate.entryType = .credit ∧
    candidate.entitlementId = wanted.entitlementId ∧
    candidate.priceVersion = wanted.priceVersion ∧
    candidate.reservedMcuMicrosDelta = 0 ∧
    candidate.consumedMcuMicrosDelta = wanted.consumedDelta ∧
    candidate.taskId = root.taskId ∧
    candidate.campaignId = root.campaignId ∧
    candidate.reservationId = none ∧
    candidate.invoiceReference = some finance.invoiceReference ∧
    candidate.reason = finance.reason ∧
    candidate.actorPrincipalId = some finance.actorPrincipalId ∧
    candidate.financeAuthorizationDigest = some finance.authorizationDigest ∧
    candidate.createdAt = root.createdAt

instance (finance : UsageFinanceAuthorization)
    (root candidate : UsageLedgerEntry) (wanted : ExpectedPortion) :
    Decidable (matchesPortion finance root candidate wanted) :=
  inferInstanceAs (Decidable (_ ∧ _))

/-- The entries of a tenant under an authorization. -/
def authorizedEntries (db : UsageDb) (tenantId id : String) :
    List UsageLedgerEntry :=
  orderBy UsageLedgerEntry.entrySequence (db.entries.filter fun entry =>
    decide (entry.tenantId = tenantId ∧
      entry.financeAuthorizationId = some id))

/-- The entries under an authorization are the portions of its credit. -/
def matchesCredit (runtime : Runtime) (db : UsageDb)
    (finance : UsageFinanceAuthorization) : Bool :=
  match truthy finance.consumedEntryId with
  | none => false
  | some consumedEntryId =>
    match entryById db finance.tenantId consumedEntryId with
    | none => false
    | some root =>
      if ¬ matchesRoot runtime finance root then false
      else
        let portions := do
          let found ← invoiceAllocationsFor db finance.tenantId
            finance.invoiceReference (some root.entrySequence)
          allocateCreditAcrossInvoice found (-finance.mcuMicrosDelta)
        match portions with
        | .error _ => false
        | .ok portions =>
          let expected := expectedPortions runtime finance root portions
          let actual := authorizedEntries db finance.tenantId finance.id
          decide (actual.length = expected.length) &&
            (actual.zip expected).all fun (candidate, wanted) =>
              decide (matchesPortion finance root candidate wanted)

def matchesAuthorization (runtime : Runtime) (db : UsageDb)
    (finance : UsageFinanceAuthorization) (entry : UsageLedgerEntry) :
    Bool :=
  if finance.authorizationDigest ≠
      usageFinanceAuthorizationDigest runtime finance then false
  else if finance.entryType = .adjustment then
    matchesAdjustment runtime finance entry
  else matchesCredit runtime db finance

def financeAuthorizationMatchesEntry (runtime : Runtime) (db : UsageDb)
    (entry : UsageLedgerEntry) : Bool :=
  if ¬ entry.entryType.Financial then
    decide (entry.financeAuthorizationId = none ∧
      entry.financeAuthorizationDigest = none)
  else if isLegacyUnverifiedFinanceEntry db entry then true
  else
    match truthy entry.financeAuthorizationId with
    | none => false
    | some financeAuthorizationId =>
      if truthy entry.financeAuthorizationDigest = none ∨
          truthy entry.invoiceReference = none ∨
          truthy entry.actorPrincipalId = none then false
      else
        match authorizationById db entry.tenantId
          financeAuthorizationId with
        | none => false
        | some finance => matchesAuthorization runtime db finance entry

/-! ## Reconciliation -/

inductive AuthorityStatus where
  | invalid
  | legacyUnverified
  | verified
  deriving DecidableEq

inductive MeasurementStatus where
  | invalid
  | unmeasured
  | legacyUnverified
  | verified
  deriving DecidableEq

/-- The answer of a reconciliation; two of its errors leave fields out. -/
structure Reconciliation where
  ok : Bool
  checked : Nat
  error : Option String
  reservedMcuMicros : Option Int
  consumedMcuMicros : Option Int
  invoices : Option (OrderedMap String Int)
  financeAuthorityStatus : AuthorityStatus
  legacyUnverifiedFinanceEntryIds : List String
  measurementStatus : Option MeasurementStatus
  legacyUnverifiedMeasurementEntryIds : Option (List String)
  unmeasuredSettlementEntryIds : Option (List String)

/-- What the loop carries from entry to entry. -/
structure Tally where
  reservations : OrderedMap String Int
  reserved : Int
  consumed : Int
  invoices : OrderedMap String Int
  previousHash : Option String
  legacyFinance : List String
  legacyMeasurement : List String
  unmeasured : List String

def Tally.start : Tally where
  reservations := ∅
  reserved := 0
  consumed := 0
  invoices := ∅
  previousHash := none
  legacyFinance := []
  legacyMeasurement := []
  unmeasured := []

/--
The names which every object has: an invoice of such a name is summed up to a
text, which is never found to be negative.
-/
def inheritedNames : List String :=
  ["constructor", "__defineGetter__", "__defineSetter__", "hasOwnProperty",
    "__lookupGetter__", "__lookupSetter__", "isPrototypeOf",
    "propertyIsEnumerable", "toString", "valueOf", "__proto__",
    "toLocaleString"]

/-- The answer where the loop ends early. -/
def failure (tally : Tally) (index : Nat) (error : String) :
    Reconciliation where
  ok := false
  checked := index
  error := some error
  reservedMcuMicros := none
  consumedMcuMicros := none
  invoices := none
  financeAuthorityStatus := .invalid
  legacyUnverifiedFinanceEntryIds := tally.legacyFinance
  measurementStatus := some .invalid
  legacyUnverifiedMeasurementEntryIds := some tally.legacyMeasurement
  unmeasuredSettlementEntryIds := some tally.unmeasured

/-- The answer of the checks of reservations, which leaves fields out. -/
def shortFailure (tally : Tally) (index : Nat) (error : String) :
    Reconciliation :=
  { failure tally index error with
    measurementStatus := none
    legacyUnverifiedMeasurementEntryIds := none
    unmeasuredSettlementEntryIds := none }

/-- The place, the link and the hash of an entry are what they have to be. -/
def Intact (runtime : Runtime) (previousHash : Option String) (index : Nat)
    (entry : UsageLedgerEntry) : Prop :=
  entry.entrySequence = index + 1 ∧ entry.previousHash = previousHash ∧
    entry.entryHash = usageEntryHash runtime entry.input entry.entrySequence
      previousHash

instance (runtime : Runtime) (previousHash : Option String) (index : Nat)
    (entry : UsageLedgerEntry) :
    Decidable (Intact runtime previousHash index entry) :=
  inferInstanceAs (Decidable (_ ∧ _))

/-- The integrity and the authorization of an entry. -/
def examineRecord (runtime : Runtime) (db : UsageDb) (index : Nat)
    (tally : Tally) (entry : UsageLedgerEntry) :
    Except Reconciliation Tally := do
  rejectIf (¬ Intact runtime tally.previousHash index entry)
    (failure tally index ("usage_integrity:" ++ entry.id))
  rejectIf (financeAuthorizationMatchesEntry runtime db entry = false)
    (failure tally index ("usage_finance_authorization_invalid:" ++ entry.id))
  if isLegacyUnverifiedFinanceEntry db entry then
    return { tally with legacyFinance := tally.legacyFinance ++ [entry.id] }
  else return tally

/-- The provenance of a settlement. -/
def examineProvenance (db : UsageDb) (index : Nat) (tally : Tally)
    (entry : UsageLedgerEntry) : Except Reconciliation Tally :=
  if entry.entryType ≠ .settlement then .ok tally
  else
    match entry.consumptionProvenance with
    | none =>
      if isLegacyUnverifiedMeasurementEntry db entry then
        .ok { tally with
          legacyMeasurement := tally.legacyMeasurement ++ [entry.id] }
      else
        .error (failure tally index
          ("usage_consumption_unattested:" ++ entry.id))
    | some provenance =>
      if Text.startsWith provenance notMeasuredPrefix then
        .ok { tally with unmeasured := tally.unmeasured ++ [entry.id] }
      else .ok tally

/-- The balance of the reservation to which an entry belongs. -/
def examineReservation (index : Nat) (tally : Tally)
    (entry : UsageLedgerEntry) : Except Reconciliation Tally :=
  if entry.entryType = .reservation then
    .ok { tally with
      reservations :=
        tally.reservations.set entry.id entry.reservedMcuMicrosDelta }
  else
    match truthy entry.reservationId with
    | none => .ok tally
    | some reservationId =>
      match tally.reservations.get? reservationId with
      | none =>
        .error (shortFailure tally index
          ("usage_reservation_missing:" ++ entry.id))
      | some outstanding =>
        let left := SafeInteger.add outstanding
          entry.reservedMcuMicrosDelta
        if left < 0 then
          .error (shortFailure tally index
            ("usage_reservation_negative:" ++ entry.id))
        else
          .ok { tally with
            reservations := tally.reservations.set reservationId left }

/-- The running total of the invoice of an entry. -/
def examineInvoice (index : Nat) (tally : Tally)
    (entry : UsageLedgerEntry) : Except Reconciliation Tally :=
  match truthy entry.invoiceReference with
  | none => .ok tally
  | some invoiceReference =>
    if invoiceReference ∈ inheritedNames then .ok tally
    else
      let total := SafeInteger.add
        (tally.invoices.getD invoiceReference 0)
        entry.consumedMcuMicrosDelta
      if total < 0 then
        .error (failure tally index ("usage_invoice_negative:" ++ entry.id))
      else
        .ok { tally with
          invoices := tally.invoices.set invoiceReference total }

/-- One turn of the loop. -/
def examine (runtime : Runtime) (db : UsageDb) (index : Nat) (tally : Tally)
    (entry : UsageLedgerEntry) : Except Reconciliation Tally := do
  let tally ← examineRecord runtime db index tally entry
  let tally ← examineProvenance db index tally entry
  let tally := { tally with
    reserved := SafeInteger.add tally.reserved entry.reservedMcuMicrosDelta
    consumed := SafeInteger.add tally.consumed entry.consumedMcuMicrosDelta }
  let tally ← examineReservation index tally entry
  rejectIf (tally.reserved < 0 ∨ tally.consumed < 0)
    (failure tally index ("usage_balance_negative:" ++ entry.id))
  let tally ← examineInvoice index tally entry
  return { tally with previousHash := some entry.entryHash }

/-- The loop over the entries from an index on. -/
def examineFrom (runtime : Runtime) (db : UsageDb) :
    Nat → Tally → List UsageLedgerEntry → Except Reconciliation Tally
  | _, tally, [] => .ok tally
  | index, tally, entry :: rest => do
      let tally ← examine runtime db index tally entry
      examineFrom runtime db (index + 1) tally rest

/-- The answer after the loop. -/
def conclude (tally : Tally) (checked : Nat)
    (reserved consumed : Int) : Reconciliation :=
  let totalsMatch : Bool :=
    decide (tally.reserved = reserved ∧ tally.consumed = consumed)
  let financeAuthorityStatus : AuthorityStatus :=
    if totalsMatch = false then .invalid
    else if tally.legacyFinance ≠ [] then .legacyUnverified
    else .verified
  let measurementStatus : MeasurementStatus :=
    if totalsMatch = false then .invalid
    else if tally.unmeasured ≠ [] then .unmeasured
    else if tally.legacyMeasurement ≠ [] then .legacyUnverified
    else .verified
  { ok := totalsMatch && decide (financeAuthorityStatus = .verified ∧
      measurementStatus = .verified)
    checked := checked
    error :=
      if totalsMatch = false then some "usage_totals_mismatch"
      else if measurementStatus = .unmeasured then
        some "usage_consumption_unmeasured"
      else if financeAuthorityStatus = .legacyUnverified then
        some "usage_finance_authority_legacy_unverified"
      else if measurementStatus = .legacyUnverified then
        some "usage_consumption_measurement_legacy_unverified"
      else none
    reservedMcuMicros := some tally.reserved
    consumedMcuMicros := some tally.consumed
    invoices := some tally.invoices
    financeAuthorityStatus := financeAuthorityStatus
    legacyUnverifiedFinanceEntryIds := tally.legacyFinance
    measurementStatus := some measurementStatus
    legacyUnverifiedMeasurementEntryIds := some tally.legacyMeasurement
    unmeasuredSettlementEntryIds := some tally.unmeasured }

def reconcileUsageLedger (runtime : Runtime) (db : UsageDb)
    (tenantId : String) : Except String Reconciliation := do
  let entries := ledger db tenantId
  match examineFrom runtime db 0 Tally.start entries with
  | .error failed => return failed
  | .ok tally =>
    let reserved ← readNumber (reservedSum (tenantEntries db tenantId))
    let consumed ← readNumber (consumedSum (tenantEntries db tenantId))
    return conclude tally entries.length reserved consumed

end Mendpoint.Usage
