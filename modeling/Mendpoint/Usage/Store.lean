import Mendpoint.Library.Collation
import Mendpoint.Usage.Records

/-!
# Checks and queries of the usage ledger

The checks of what callers say, the selections from the tables, the hash of an
entry, and the insertion of an entry under its idempotency key.
-/

namespace Mendpoint.Usage

open Mendpoint.Library
open Mendpoint.Library.Attempt

/-! ## Checks -/

/-- A text which counts as true: present and not empty. -/
def truthy (text : Option String) : Option String :=
  text.filter fun content => decide (content ≠ "")

/-- The trimmed text, which has to be there and not too long. -/
def required (name value : String) : Except String String :=
  let normalized := Text.trim value
  if normalized = "" ∨ 256 < (Text.codeUnits normalized).length then
    .error (name ++ "_invalid")
  else .ok normalized

def time (runtime : Runtime) (name value : String) : Except String Int :=
  demand (runtime.parseDate value) (name ++ "_invalid")

def micros (name : String) (value : Int) (allowNegative : Bool) :
    Except String Int :=
  if ¬ SafeInteger.Safe value ∨ (allowNegative = false ∧ value < 0) then
    .error (name ++ "_invalid")
  else .ok value

def measured : String := "measured"

def notMeasuredPrefix : String := "not_measured:"

def legacyMigrationVersion : String := "usage-consumption-measurement/1"

/-- A lower case letter or a digit of ASCII. -/
def isReasonChar (char : Char) : Bool :=
  ('a' ≤ char && char ≤ 'z') || ('0' ≤ char && char ≤ '9')

/-- Words of letters and digits with a separator between each two. -/
def reasonWords (atStart : Bool) : List Char → Bool
  | [] => !atStart
  | char :: rest =>
    if isReasonChar char then reasonWords false rest
    else if char ∈ ['.', '_', '-'] ∧ atStart = false then
      reasonWords true rest
    else false

/-- The test of `NOT_MEASURED_REASON`, and that of the length. -/
def isNotMeasuredReason (reason : String) : Prop :=
  reasonWords true reason.toList = true ∧
    (Text.codeUnits reason).length ≤ 128

instance (reason : String) : Decidable (isNotMeasuredReason reason) :=
  inferInstanceAs (Decidable (_ ∧ _))

def settlementProvenance :
    Option SettlementConsumption → Except String String
  | none => .error "usage_consumption_provenance_required"
  | some .measured => .ok measured
  | some (.notMeasured reason) =>
    if isNotMeasuredReason reason then .ok (notMeasuredPrefix ++ reason)
    else .error "usage_consumption_provenance_invalid"

/-- What a provenance may be on an entry of a type. -/
def checkProvenance (entryType : UsageEntryType)
    (consumptionProvenance : Option String) : Except String Unit :=
  match entryType, consumptionProvenance with
  | .settlement, none => .error "usage_consumption_provenance_required"
  | .settlement, some provenance =>
    if provenance = measured then .ok ()
    else if Text.startsWith provenance notMeasuredPrefix ∧
        isNotMeasuredReason
          (Text.dropPrefix notMeasuredPrefix provenance) then .ok ()
    else .error "usage_consumption_provenance_invalid"
  | _, none => .ok ()
  | _, some _ => .error "usage_consumption_provenance_not_applicable"

/-! ## Selections -/

/-- The order which SQLite gives to texts. -/
def textLe (left right : String) : Bool :=
  Text.unitsLe (Text.codePoints left) (Text.codePoints right)

/-- `ORDER BY` a column of numbers. -/
def orderBy {ρ : Type} (column : ρ → Nat) (rows : List ρ) : List ρ :=
  rows.insertionSort fun left right => column left ≤ column right

/-- `ORDER BY` a column of unique numbers `DESC LIMIT 1`. -/
def latestBy {ρ : Type} (column : ρ → Nat) (rows : List ρ) : Option ρ :=
  (orderBy column rows).getLast?

/-- A number of the database, which must fit into a double. -/
def readNumber (value : Int) : Except String Int :=
  if SafeInteger.Safe value then .ok value
  else .error "ERR_OUT_OF_RANGE"

def getUsagePriceVersion (db : UsageDb) (tenantId id : String) :
    Option UsagePriceVersion :=
  db.prices.find? fun price =>
    decide (price.tenantId = tenantId ∧ price.id = id)

def entitlementById (db : UsageDb) (tenantId id : String) :
    Option UsageEntitlement :=
  db.entitlements.find? fun entitlement =>
    decide (entitlement.id = id ∧ entitlement.tenantId = tenantId)

def getActiveUsageEntitlement (runtime : Runtime) (db : UsageDb)
    (tenantId instant : String) : Except String (Option UsageEntitlement) :=
  do
    let _ ← time runtime "usage_at" instant
    return latestBy UsageEntitlement.version
      (db.entitlements.filter fun entitlement =>
        decide (entitlement.tenantId = tenantId ∧
          textLe entitlement.periodStart instant = true ∧
          textLe entitlement.periodEnd instant = false))

/-- The entries of a tenant. -/
def tenantEntries (db : UsageDb) (tenantId : String) :
    List UsageLedgerEntry :=
  db.entries.filter fun entry => decide (entry.tenantId = tenantId)

/-- The entries of a tenant `ORDER BY entry_sequence`. -/
def ledger (db : UsageDb) (tenantId : String) : List UsageLedgerEntry :=
  orderBy UsageLedgerEntry.entrySequence (tenantEntries db tenantId)

def entryByKey (db : UsageDb) (tenantId idempotencyKey : String) :
    Option UsageLedgerEntry :=
  db.entries.find? fun entry =>
    decide (entry.tenantId = tenantId ∧
      entry.idempotencyKey = idempotencyKey)

def entryById (db : UsageDb) (tenantId id : String) :
    Option UsageLedgerEntry :=
  db.entries.find? fun entry =>
    decide (entry.tenantId = tenantId ∧ entry.id = id)

/-- `SUM(reserved_mcu_micros_delta)`. -/
def reservedSum (entries : List UsageLedgerEntry) : Int :=
  (entries.map UsageLedgerEntry.reservedMcuMicrosDelta).sum

/-- `SUM(consumed_mcu_micros_delta)`. -/
def consumedSum (entries : List UsageLedgerEntry) : Int :=
  (entries.map UsageLedgerEntry.consumedMcuMicrosDelta).sum

/-- The entries of a tenant for an entitlement. -/
def entitlementEntries (db : UsageDb) (tenantId entitlementId : String) :
    List UsageLedgerEntry :=
  db.entries.filter fun entry =>
    decide (entry.tenantId = tenantId ∧
      entry.entitlementId = entitlementId)

structure Totals where
  reserved : Int
  consumed : Int
  credited : Int

def currentTotals (db : UsageDb) (tenantId entitlementId : String) :
    Except String Totals := do
  let entries := entitlementEntries db tenantId entitlementId
  let reserved ← readNumber (reservedSum entries)
  let consumed ← readNumber (consumedSum entries)
  let credited ← readNumber
    (-consumedSum (entries.filter fun entry =>
      decide (entry.entryType = .credit)))
  return { reserved, consumed, credited }

/-! ## Invoices -/

structure InvoiceAllocation where
  entitlementId : String
  priceVersion : String
  allocated : Int
  firstSequence : Nat

/-- The entries of an invoice, all of them or those before a sequence. -/
def invoiceEntries (db : UsageDb) (tenantId invoiceReference : String)
    (beforeSequence : Option Nat) : List UsageLedgerEntry :=
  db.entries.filter fun entry =>
    decide (entry.tenantId = tenantId ∧
      entry.invoiceReference = some invoiceReference ∧
      ∀ before ∈ beforeSequence, entry.entrySequence < before)

/-- The columns by which the entries of an invoice are grouped. -/
def allocationKey (entry : UsageLedgerEntry) : String × String :=
  (entry.entitlementId, entry.priceVersion)

/-- The row of a group of entries. -/
def allocationOf (entries : List UsageLedgerEntry)
    (key : String × String) : InvoiceAllocation :=
  let group := entries.filter fun entry =>
    decide (allocationKey entry = key)
  { entitlementId := key.1
    priceVersion := key.2
    allocated := consumedSum group
    firstSequence := ((group.map
      UsageLedgerEntry.entrySequence).min?).getD 0 }

/-- `ORDER BY first_sequence, entitlement_id, price_version`. -/
def allocationLe (left right : InvoiceAllocation) : Bool :=
  if left.firstSequence = right.firstSequence then
    if left.entitlementId = right.entitlementId then
      textLe left.priceVersion right.priceVersion
    else textLe left.entitlementId right.entitlementId
  else decide (left.firstSequence < right.firstSequence)

/-- What each entitlement and price still has of an invoice. -/
def allocations (entries : List UsageLedgerEntry) :
    List InvoiceAllocation :=
  (((entries.map allocationKey).dedup.map (allocationOf entries)).filter
    fun allocation => decide (0 < allocation.allocated)).insertionSort
      fun left right => allocationLe left right = true

def invoiceAllocationsFor (db : UsageDb)
    (tenantId invoiceReference : String) (beforeSequence : Option Nat) :
    Except String (List InvoiceAllocation) :=
  (allocations (invoiceEntries db tenantId invoiceReference
    beforeSequence)).mapM fun allocation => do
      let allocated ← readNumber allocation.allocated
      return { allocation with allocated }

/-- A part of a credit, and the allocation which it is taken from. -/
structure Portion where
  allocation : InvoiceAllocation
  credited : Int

/-- The portions of a credit in order, and what is left of it. -/
def takePortions : List InvoiceAllocation → Int → List Portion × Int
  | [], remaining => ([], remaining)
  | allocation :: rest, remaining =>
    if remaining = 0 then ([], 0)
    else
      let credited := min remaining allocation.allocated
      let later := takePortions rest (remaining - credited)
      if 0 < credited then ({ allocation, credited } :: later.1, later.2)
      else later

def allocateCreditAcrossInvoice (found : List InvoiceAllocation)
    (creditMcuMicros : Int) : Except String (List Portion) :=
  let taken := takePortions found creditMcuMicros
  if taken.2 ≠ 0 ∨ taken.1 = [] then
    .error "usage_credit_exceeds_invoice_allocation"
  else .ok taken.1

/-! ## Digests -/

def optionalText : Option String → Written
  | some text => .str text
  | none => .null

def sha256 (runtime : Runtime) (value : Written) : String :=
  "sha256:" ++ runtime.sha256 value.stringify

def usageFinanceIntent (tenantId : String) (actorPrincipalId : Option String)
    (entryType : UsageEntryType) (invoiceReference : Option String)
    (entryIdempotencyKey : String) (mcuMicrosDelta : Int) (reason : String)
    (allocationEntitlementId allocationPriceVersion : Option String) :
    Written :=
  .obj
    [("tenantId", .str tenantId),
      ("actorPrincipalId", optionalText actorPrincipalId),
      ("entryType", .str entryType.text),
      ("invoiceReference", optionalText invoiceReference),
      ("entryIdempotencyKey", .str entryIdempotencyKey),
      ("mcuMicrosDelta", .int mcuMicrosDelta),
      ("reason", .str reason),
      ("allocationEntitlementId", optionalText allocationEntitlementId),
      ("allocationPriceVersion", optionalText allocationPriceVersion)]

/-- The intent of an authorization itself. -/
def authorizationIntent (finance : UsageFinanceAuthorization) : Written :=
  usageFinanceIntent finance.tenantId (some finance.actorPrincipalId)
    finance.entryType (some finance.invoiceReference)
    finance.entryIdempotencyKey finance.mcuMicrosDelta finance.reason
    finance.allocationEntitlementId finance.allocationPriceVersion

def usageFinanceAuthorizationDigest (runtime : Runtime)
    (finance : UsageFinanceAuthorization) : String :=
  sha256 runtime <| .obj
    [("id", .str finance.id),
      ("tenantId", .str finance.tenantId),
      ("approvedByPrincipalId", .str finance.approvedByPrincipalId),
      ("approvedByRole", .str finance.approvedByRole),
      ("actorPrincipalId", .str finance.actorPrincipalId),
      ("entryType", .str finance.entryType.text),
      ("invoiceReference", .str finance.invoiceReference),
      ("entryIdempotencyKey", .str finance.entryIdempotencyKey),
      ("mcuMicrosDelta", .int finance.mcuMicrosDelta),
      ("reason", .str finance.reason),
      ("allocationEntitlementId",
        optionalText finance.allocationEntitlementId),
      ("allocationPriceVersion",
        optionalText finance.allocationPriceVersion),
      ("intentDigest", .str finance.intentDigest),
      ("approvedAt", .str finance.approvedAt),
      ("expiresAt", .str finance.expiresAt)]

def creditAllocationIdentity (runtime : Runtime)
    (financeAuthorizationId rootIdempotencyKey : String) (ordinal : Nat)
    (role : String) : String :=
  "credit-allocation:" ++ sha256 runtime (.str (Written.stringify (.obj
    [("version", .str "usage-credit-allocation/1"),
      ("financeAuthorizationId", .str financeAuthorizationId),
      ("rootIdempotencyKey", .str rootIdempotencyKey),
      ("ordinal", .int ordinal),
      ("role", .str role)])))

/-! ## Entries -/

/-- A provenance which the hash of an entry leaves out. -/
def Neutral (consumptionProvenance : Option String) : Prop :=
  consumptionProvenance = none ∨ consumptionProvenance = some measured

instance (consumptionProvenance : Option String) :
    Decidable (Neutral consumptionProvenance) :=
  inferInstanceAs (Decidable (_ ∨ _))

/-- The fields which are hashed of every entry, in front of the others. -/
def commonContent (input : EntryInput) (entrySequence : Nat) :
    List (String × Written) :=
  [("id", .str input.id),
    ("tenantId", .str input.tenantId),
    ("entrySequence", .int entrySequence),
    ("entryType", .str input.entryType.text),
    ("entitlementId", .str input.entitlementId),
    ("idempotencyKey", .str input.idempotencyKey),
    ("taskId", .str input.taskId),
    ("campaignId", optionalText input.campaignId),
    ("reservationId", optionalText input.reservationId),
    ("priceVersion", .str input.priceVersion),
    ("reservedDelta", .int input.reservedDelta),
    ("consumedDelta", .int input.consumedDelta),
    ("invoiceReference", optionalText input.invoiceReference),
    ("reason", .str input.reason),
    ("actorPrincipalId", optionalText input.actorPrincipalId)]

/-- The fields of an authorization, which only some entries have. -/
def financeContent (input : EntryInput) : List (String × Written) :=
  if input.financeAuthorizationId = none then []
  else
    [("financeAuthorizationId", optionalText input.financeAuthorizationId),
      ("financeAuthorizationDigest",
        optionalText input.financeAuthorizationDigest)]

/-- The provenance, where it is not neutral. -/
def provenanceContent (input : EntryInput) : List (String × Written) :=
  if Neutral input.consumptionProvenance then []
  else
    [("consumptionProvenance", optionalText input.consumptionProvenance)]

/-- The fields over which an entry is hashed. -/
def entryContent (input : EntryInput) (entrySequence : Nat)
    (previousHash : Option String) : List (String × Written) :=
  commonContent input entrySequence ++ (financeContent input ++
    ("previousHash", optionalText previousHash) ::
      ("createdAt", .str input.createdAt) :: provenanceContent input)

def usageEntryHash (runtime : Runtime) (input : EntryInput)
    (entrySequence : Nat) (previousHash : Option String) : String :=
  runtime.sha256
    (Written.obj (entryContent input entrySequence previousHash)).stringify

/-- The entry which is written from an input. -/
def EntryInput.row (input : EntryInput) (entrySequence : Nat)
    (previousHash : Option String) (entryHash : String) :
    UsageLedgerEntry where
  id := input.id
  tenantId := input.tenantId
  entryType := input.entryType
  entitlementId := input.entitlementId
  idempotencyKey := input.idempotencyKey
  taskId := input.taskId
  campaignId := input.campaignId
  reservationId := input.reservationId
  priceVersion := input.priceVersion
  reservedMcuMicrosDelta := input.reservedDelta
  consumedMcuMicrosDelta := input.consumedDelta
  invoiceReference := input.invoiceReference
  reason := input.reason
  actorPrincipalId := input.actorPrincipalId
  financeAuthorizationId := input.financeAuthorizationId
  financeAuthorizationDigest := input.financeAuthorizationDigest
  consumptionProvenance := input.consumptionProvenance
  entrySequence := entrySequence
  previousHash := previousHash
  entryHash := entryHash
  createdAt := input.createdAt

/-- What an entry was written from. -/
def UsageLedgerEntry.input (entry : UsageLedgerEntry) : EntryInput where
  id := entry.id
  tenantId := entry.tenantId
  entryType := entry.entryType
  entitlementId := entry.entitlementId
  idempotencyKey := entry.idempotencyKey
  taskId := entry.taskId
  campaignId := entry.campaignId
  reservationId := entry.reservationId
  priceVersion := entry.priceVersion
  reservedDelta := entry.reservedMcuMicrosDelta
  consumedDelta := entry.consumedMcuMicrosDelta
  invoiceReference := entry.invoiceReference
  reason := entry.reason
  actorPrincipalId := entry.actorPrincipalId
  financeAuthorizationId := entry.financeAuthorizationId
  financeAuthorizationDigest := entry.financeAuthorizationDigest
  consumptionProvenance := entry.consumptionProvenance
  createdAt := entry.createdAt

/-- The entry under an idempotency key is the one which is asked for again. -/
structure Repeats (input : EntryInput) (row : UsageLedgerEntry) : Prop where
  entryType : row.entryType = input.entryType
  entitlementId : row.entitlementId = input.entitlementId
  taskId : row.taskId = input.taskId
  campaignId : row.campaignId = input.campaignId
  reservationId : row.reservationId = input.reservationId
  priceVersion : row.priceVersion = input.priceVersion
  reserved : row.reservedMcuMicrosDelta = input.reservedDelta
  consumed : row.consumedMcuMicrosDelta = input.consumedDelta
  invoiceReference : row.invoiceReference = input.invoiceReference
  reason : row.reason = input.reason
  actorPrincipalId : row.actorPrincipalId = input.actorPrincipalId
  financeAuthorizationId :
    row.financeAuthorizationId = input.financeAuthorizationId
  financeAuthorizationDigest :
    row.financeAuthorizationDigest = input.financeAuthorizationDigest
  consumptionProvenance :
    row.consumptionProvenance = input.consumptionProvenance

theorem repeats_iff (input : EntryInput) (row : UsageLedgerEntry) :
    Repeats input row ↔
      row.input = { input with
        id := row.id
        tenantId := row.tenantId
        idempotencyKey := row.idempotencyKey
        createdAt := row.createdAt } := by
  constructor
  · intro repeats
    cases repeats
    simp_all only [UsageLedgerEntry.input]
  · intro same
    simp only [UsageLedgerEntry.input, EntryInput.mk.injEq] at same
    rcases same with ⟨_, _, entryType, entitlementId, _, taskId, campaignId,
      reservationId, priceVersion, reserved, consumed, invoiceReference,
      reason, actorPrincipalId, financeAuthorizationId,
      financeAuthorizationDigest, consumptionProvenance, _⟩
    exact ⟨entryType, entitlementId, taskId, campaignId, reservationId,
      priceVersion, reserved, consumed, invoiceReference, reason,
      actorPrincipalId, financeAuthorizationId, financeAuthorizationDigest,
      consumptionProvenance⟩

instance (input : EntryInput) (row : UsageLedgerEntry) :
    Decidable (Repeats input row) :=
  decidable_of_iff' _ (repeats_iff input row)

/-- The constraint of the entries' table which a row does not meet. -/
def entryConstraint (db : UsageDb) (row : UsageLedgerEntry) :
    Option String :=
  if ∃ entry ∈ db.entries, entry.id = row.id then
    some "UNIQUE constraint failed: usage_ledger_entries.id"
  else if ∃ entry ∈ db.entries, entry.tenantId = row.tenantId ∧
      entry.idempotencyKey = row.idempotencyKey then
    some ("UNIQUE constraint failed: usage_ledger_entries.tenant_id, " ++
      "usage_ledger_entries.idempotency_key")
  else if ∃ entry ∈ db.entries, entry.tenantId = row.tenantId ∧
      entry.entrySequence = row.entrySequence then
    some ("UNIQUE constraint failed: usage_ledger_entries.tenant_id, " ++
      "usage_ledger_entries.entry_sequence")
  else if row.tenantId ∉ db.identities.tenants ∨
      (¬ ∃ entitlement ∈ db.entitlements,
        entitlement.id = row.entitlementId) ∨
      ∃ reservationId ∈ row.reservationId, reservationId ≠ row.id ∧
        ¬ ∃ entry ∈ db.entries, entry.id = reservationId then
    some "FOREIGN KEY constraint failed"
  else none

/-- The row which an input becomes at the end of its tenant's ledger. -/
def nextRow (runtime : Runtime) (db : UsageDb) (input : EntryInput) :
    UsageLedgerEntry :=
  let previous := latestBy UsageLedgerEntry.entrySequence
    (tenantEntries db input.tenantId)
  let entrySequence := (previous.map UsageLedgerEntry.entrySequence).getD 0 + 1
  let previousHash := previous.map UsageLedgerEntry.entryHash
  input.row entrySequence previousHash
    (usageEntryHash runtime input entrySequence previousHash)

/-- `INSERT INTO usage_ledger_entries`. -/
def insertRow (row : UsageLedgerEntry) : UsageM UsageLedgerEntry := do
  let db ← get
  match entryConstraint db row with
  | some failure => throw failure
  | none =>
    modify fun db => { db with entries := db.entries ++ [row] }
    return row

def insertEntry (runtime : Runtime) (input : EntryInput) :
    UsageM UsageLedgerEntry := do
  let db ← get
  match entryByKey db input.tenantId input.idempotencyKey with
  | some row =>
    rejectIf (¬ Repeats input row) "usage_idempotency_conflict"
    return row
  | none => insertRow (nextRow runtime db input)

def assertActor (db : UsageDb) (tenantId : String)
    (actorPrincipalId : Option String) : Except String Unit :=
  match truthy actorPrincipalId with
  | none => .ok ()
  | some actor =>
    rejectIf (¬ ∃ principal ∈ db.identities.principals,
        principal.id = actor ∧ principal.tenantId = tenantId)
      "usage_actor_tenant_mismatch"

/-- A text which has to be well formed where it counts as true. -/
def requiredIf (name : String) (value : Option String) :
    Except String Unit :=
  match truthy value with
  | none => .ok ()
  | some text => do
      let _ ← required name text
      return ()

def prepareEntry (runtime : Runtime) (db : UsageDb) (input : EntryInput) :
    Except String Unit := do
  let _ ← required "usage_entry_id" input.id
  let _ ← required "tenant_id" input.tenantId
  let _ ← required "usage_entitlement_id" input.entitlementId
  let _ ← required "usage_idempotency_key" input.idempotencyKey
  let _ ← required "usage_task_id" input.taskId
  let _ ← required "usage_price_version" input.priceVersion
  let _ ← required "usage_reason" input.reason
  requiredIf "usage_campaign_id" input.campaignId
  requiredIf "usage_invoice_reference" input.invoiceReference
  requiredIf "usage_finance_authorization_id" input.financeAuthorizationId
  requiredIf "usage_finance_authorization_digest"
    input.financeAuthorizationDigest
  rejectIf ((truthy input.financeAuthorizationId).isSome ≠
      (truthy input.financeAuthorizationDigest).isSome)
    "usage_finance_authorization_binding_invalid"
  checkProvenance input.entryType input.consumptionProvenance
  let _ ← time runtime "usage_created_at" input.createdAt
  let _ ← micros "usage_reserved_delta" input.reservedDelta true
  let _ ← micros "usage_consumed_delta" input.consumedDelta true
  assertActor db input.tenantId input.actorPrincipalId

end Mendpoint.Usage
