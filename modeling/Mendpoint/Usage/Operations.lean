import Mendpoint.Usage.Audit

/-!
# The operations of the usage ledger

Price versions, entitlements and finance authorizations are created; usage is
reserved, settled, released, adjusted and credited.  Every operation is a
transaction of its own: where it throws, it has changed nothing.
-/

namespace Mendpoint.Usage

open Mendpoint.Library
open Mendpoint.Library.Attempt

/-! ## Price versions and entitlements -/

/-- Three capital letters of ASCII. -/
def isCurrency (text : String) : Bool :=
  decide (text.toList.length = 3) &&
    text.toList.all fun char => 'A' ≤ char && char ≤ 'Z'

/-- The end of a period, which has to meet a condition where there is one. -/
def checkExpiry (runtime : Runtime) (name : String)
    (expiresAt : Option String) (bad : Int → Prop) [DecidablePred bad]
    (failure : String) : Except String Unit :=
  match truthy expiresAt with
  | none => .ok ()
  | some text => do
      let expires ← time runtime name text
      rejectIf (bad expires) failure

/-- The insertion of a price version, or the one which is there. -/
def insertPrice (price : UsagePriceVersion) : UsageM UsagePriceVersion := do
  let db ← get
  match db.prices.find? fun current => decide (current.id = price.id) with
  | some current =>
    rejectIf (¬ (current.tenantId = price.tenantId ∧
        current.formulaVersion = price.formulaVersion ∧
        current.currency = price.currency ∧
        current.pricePerMcuMoneyMicros = price.pricePerMcuMoneyMicros ∧
        current.effectiveAt = price.effectiveAt ∧
        current.expiresAt = price.expiresAt ∧
        current.contractReference = price.contractReference))
      "usage_price_id_conflict"
    return current
  | none =>
    rejectIf (price.tenantId ∉ db.identities.tenants)
      "FOREIGN KEY constraint failed"
    modify fun db => { db with prices := db.prices ++ [price] }
    return price

def createUsagePriceVersion (runtime : Runtime) (input : PriceInput) :
    UsageM UsagePriceVersion := do
  let id ← required "usage_price_id" input.id
  let tenantId ← required "tenant_id" input.tenantId
  let formulaVersion ← required "usage_formula_version" input.formulaVersion
  let currencyText ← required "usage_currency" input.currency
  let currency := runtime.upperCase currencyText
  rejectIf (isCurrency currency = false) "usage_currency_invalid"
  let amount ← micros "usage_price_per_mcu_money_micros"
    input.pricePerMcuMoneyMicros false
  let effective ← time runtime "usage_price_effective_at" input.effectiveAt
  checkExpiry runtime "usage_price_expires_at" input.expiresAt
    (fun expires => expires ≤ effective) "usage_price_period_invalid"
  let _ ← time runtime "usage_created_at" input.createdAt
  let contractReference ←
    required "usage_contract_reference" input.contractReference
  insertPrice
    { id, tenantId, formulaVersion, currency
      pricePerMcuMoneyMicros := amount
      effectiveAt := input.effectiveAt
      expiresAt := input.expiresAt
      contractReference
      createdAt := input.createdAt }

/-- `[...new Set(features.map(trim))].sort()`. -/
def featureNames (features : List String) : List String :=
  Text.sortTexts (features.map Text.trim).dedup

/-- The insertion of an entitlement, or the one which is there. -/
def insertEntitlement (entitlement : UsageEntitlement) :
    UsageM UsageEntitlement := do
  let db ← get
  match db.entitlements.find? fun current =>
    decide (current.id = entitlement.id) with
  | some current =>
    rejectIf (¬ (current.tenantId = entitlement.tenantId ∧
        current.priceVersionId = entitlement.priceVersionId ∧
        current.quotaMcuMicros = entitlement.quotaMcuMicros ∧
        current.features = entitlement.features ∧
        current.contractReference = entitlement.contractReference ∧
        current.periodStart = entitlement.periodStart ∧
        current.periodEnd = entitlement.periodEnd))
      "usage_entitlement_id_conflict"
    return current
  | none =>
    let latest := latestBy UsageEntitlement.version
      (db.entitlements.filter fun current =>
        decide (current.tenantId = entitlement.tenantId))
    let inserted := { entitlement with
      version := (latest.map UsageEntitlement.version).getD 0 + 1 }
    rejectIf (inserted.tenantId ∉ db.identities.tenants)
      "FOREIGN KEY constraint failed"
    modify fun db =>
      { db with entitlements := db.entitlements ++ [inserted] }
    return inserted

def createUsageEntitlement (runtime : Runtime) (input : EntitlementInput) :
    UsageM UsageEntitlement := do
  let id ← required "usage_entitlement_id" input.id
  let tenantId ← required "tenant_id" input.tenantId
  let contractReference ←
    required "usage_contract_reference" input.contractReference
  let db ← get
  let priceVersion ← demand
    (getUsagePriceVersion db tenantId input.priceVersionId)
    "usage_price_version_required"
  let quota ← micros "usage_quota_mcu_micros" input.quotaMcuMicros false
  let periodStart ← time runtime "usage_period_start" input.periodStart
  let periodEnd ← time runtime "usage_period_end" input.periodEnd
  let _ ← time runtime "usage_created_at" input.createdAt
  rejectIf (periodEnd ≤ periodStart) "usage_period_invalid"
  rejectIf (priceVersion.contractReference ≠ contractReference)
    "usage_contract_reference_mismatch"
  let effective ← time runtime "usage_price_effective_at"
    priceVersion.effectiveAt
  rejectIf (periodStart < effective) "usage_price_does_not_cover_entitlement"
  checkExpiry runtime "usage_price_expires_at" priceVersion.expiresAt
    (fun expires => expires < periodEnd)
    "usage_price_does_not_cover_entitlement"
  rejectIf (∃ feature ∈ input.features, Text.trim feature = "")
    "usage_features_invalid"
  transaction (insertEntitlement
    { id, tenantId
      version := 0
      priceVersionId := priceVersion.id
      quotaMcuMicros := quota
      features := featureNames input.features
      contractReference
      periodStart := input.periodStart
      periodEnd := input.periodEnd
      createdAt := input.createdAt })

/-! ## Finance authorizations -/

/-- A principal who is there and whose access has not ended at a time. -/
def LiveAt (principal : Principal) (tenantId principalId instant : String) :
    Prop :=
  principal.id = principalId ∧ principal.tenantId = tenantId ∧
    textLe principal.createdAt instant = true ∧ principal.revokedAt = none ∧
    ∀ expiresAt ∈ principal.expiresAt, textLe expiresAt instant = false

instance (principal : Principal) (tenantId principalId instant : String) :
    Decidable (LiveAt principal tenantId principalId instant) :=
  inferInstanceAs (Decidable (_ ∧ _))

def assertActiveActorAt (db : UsageDb) (tenantId actorPrincipalId instant :
    String) : Except String Unit :=
  rejectIf (¬ ∃ principal ∈ db.identities.principals,
      LiveAt principal tenantId actorPrincipalId instant)
    "usage_finance_actor_inactive"

/-- A membership which makes a human principal the owner of the tenant. -/
def OwnsAt (membership : TenantMembership) (principal : Principal)
    (instant : String) : Prop :=
  membership.tenantId = principal.tenantId ∧ principal.kind = "human" ∧
    principal.audience = some membership.issuer ∧
    principal.subject = membership.issuer ++ "|" ++ membership.subject ∧
    membership.role = "owner" ∧ membership.status = "active" ∧
    textLe membership.updatedAt instant = true

instance (membership : TenantMembership) (principal : Principal)
    (instant : String) : Decidable (OwnsAt membership principal instant) :=
  inferInstanceAs (Decidable (_ ∧ _))

def assertFinanceOwnerAt (db : UsageDb) (tenantId principalId instant :
    String) : Except String Unit :=
  if ∃ principal ∈ db.identities.principals,
      LiveAt principal tenantId principalId instant ∧
        ∃ membership ∈ db.identities.memberships,
          OwnsAt membership principal instant then .ok ()
  else if ∃ principal ∈ db.identities.principals,
      LiveAt principal tenantId principalId instant then
    .error "usage_finance_owner_required"
  else .error "usage_finance_owner_inactive"

/-- The target of an adjustment among the allocations of its invoice. -/
def adjustmentTarget (found : List InvoiceAllocation)
    (allocationEntitlementId allocationPriceVersion : Option String) :
    Except String InvoiceAllocation := do
  rejectIf (found = []) "usage_invoice_allocation_not_found"
  let requestedEntitlement ← allocationEntitlementId.mapM
    (required "usage_adjustment_allocation_entitlement_id")
  let requestedPrice ← allocationPriceVersion.mapM
    (required "usage_adjustment_allocation_price_version")
  rejectIf (requestedEntitlement.isNone ≠ requestedPrice.isNone)
    "usage_adjustment_allocation_target_invalid"
  rejectIf (requestedEntitlement = none ∧ found.length ≠ 1)
    "usage_adjustment_allocation_target_required"
  demand
    (if requestedEntitlement = none then found.head?
    else found.find? fun allocation =>
      decide (some allocation.entitlementId = requestedEntitlement ∧
        some allocation.priceVersion = requestedPrice))
    "usage_adjustment_allocation_target_invalid"

/-- The constraint of the authorizations' table which a row does not meet. -/
def authorizationConstraint (db : UsageDb)
    (finance : UsageFinanceAuthorization) : Option String :=
  if ∃ other ∈ db.authorizations, other.id = finance.id then
    some "UNIQUE constraint failed: usage_finance_authorizations.id"
  else if ∃ other ∈ db.authorizations, other.tenantId = finance.tenantId ∧
      other.entryIdempotencyKey = finance.entryIdempotencyKey then
    some ("UNIQUE constraint failed: usage_finance_authorizations.tenant_id, " ++
      "usage_finance_authorizations.entry_idempotency_key")
  else if ∃ other ∈ db.authorizations, other.tenantId = finance.tenantId ∧
      other.authorizationDigest = finance.authorizationDigest then
    some ("UNIQUE constraint failed: usage_finance_authorizations.tenant_id, " ++
      "usage_finance_authorizations.authorization_digest")
  else if finance.tenantId ∉ db.identities.tenants ∨
      (¬ ∃ principal ∈ db.identities.principals,
        principal.id = finance.approvedByPrincipalId) ∨
      ¬ ∃ principal ∈ db.identities.principals,
        principal.id = finance.actorPrincipalId then
    some "FOREIGN KEY constraint failed"
  else none

/-- The allocation columns of a new authorization. -/
def authorizationAllocation (db : UsageDb) (input : AuthorizationInput)
    (tenantId invoiceReference : String) :
    Except String (Option String × Option String) :=
  if input.entryType = .adjustment then do
    let found ← invoiceAllocationsFor db tenantId invoiceReference none
    let selected ← adjustmentTarget found input.allocationEntitlementId
      input.allocationPriceVersion
    return (some selected.entitlementId, some selected.priceVersion)
  else if input.allocationEntitlementId ≠ none ∨
      input.allocationPriceVersion ≠ none then
    .error "usage_credit_allocation_target_invalid"
  else .ok (none, none)

/-- The two digests of an authorization over its other fields. -/
def sealAuthorization (runtime : Runtime)
    (finance : UsageFinanceAuthorization) : UsageFinanceAuthorization :=
  let intended := { finance with
    intentDigest := sha256 runtime (authorizationIntent finance) }
  { intended with
    authorizationDigest := usageFinanceAuthorizationDigest runtime intended }

/-- The authorization which is written from checked fields. -/
structure AuthorizationFields where
  id : String
  tenantId : String
  approvedByPrincipalId : String
  actorPrincipalId : String
  invoiceReference : String
  entryIdempotencyKey : String
  reason : String
  delta : Int

/-- An authorization which an input may stand for again. -/
def SameAuthorization (runtime : Runtime) (input : AuthorizationInput)
    (fields : AuthorizationFields)
    (authorization : UsageFinanceAuthorization) : Prop :=
  authorization.tenantId = fields.tenantId ∧
    authorization.approvedByPrincipalId = fields.approvedByPrincipalId ∧
    authorization.actorPrincipalId = fields.actorPrincipalId ∧
    authorization.entryType = input.entryType ∧
    authorization.invoiceReference = fields.invoiceReference ∧
    authorization.entryIdempotencyKey = fields.entryIdempotencyKey ∧
    authorization.mcuMicrosDelta = fields.delta ∧
    authorization.reason = fields.reason ∧
    authorization.intentDigest =
      sha256 runtime (authorizationIntent authorization) ∧
    authorization.authorizationDigest =
      usageFinanceAuthorizationDigest runtime authorization ∧
    (∀ requested ∈ input.allocationEntitlementId,
      authorization.allocationEntitlementId = some (Text.trim requested)) ∧
    ∀ requested ∈ input.allocationPriceVersion,
      authorization.allocationPriceVersion = some (Text.trim requested)

instance (runtime : Runtime) (input : AuthorizationInput)
    (fields : AuthorizationFields)
    (authorization : UsageFinanceAuthorization) :
    Decidable (SameAuthorization runtime input fields authorization) :=
  inferInstanceAs (Decidable (_ ∧ _))

/-- The checks of an authorization in front of the database. -/
def authorizationFields (runtime : Runtime) (input : AuthorizationInput) :
    Except String AuthorizationFields := do
  rejectIf (¬ input.entryType.Financial) "usage_finance_entry_type_invalid"
  let id ← required "usage_finance_authorization_id" input.id
  let tenantId ← required "tenant_id" input.tenantId
  let approvedByPrincipalId ← required
    "usage_finance_approved_by_principal_id" input.approvedByPrincipalId
  let actorPrincipalId ← required "usage_finance_actor_principal_id"
    input.actorPrincipalId
  let invoiceReference ← required "usage_invoice_reference"
    input.invoiceReference
  let entryIdempotencyKey ← required "usage_idempotency_key"
    input.entryIdempotencyKey
  let reason ← required "usage_reason" input.reason
  let delta ← micros "usage_adjustment_mcu_micros" input.mcuMicrosDelta true
  rejectIf (input.entryType = .adjustment ∧ delta ≤ 0)
    "usage_adjustment_invalid"
  rejectIf (input.entryType = .credit ∧ 0 ≤ delta) "usage_credit_invalid"
  let approvedAtMs ← time runtime "usage_finance_approved_at" input.approvedAt
  let expiresAtMs ← time runtime "usage_finance_expires_at" input.expiresAt
  rejectIf (expiresAtMs ≤ approvedAtMs)
    "usage_finance_authorization_window_invalid"
  return { id, tenantId, approvedByPrincipalId, actorPrincipalId
           invoiceReference, entryIdempotencyKey, reason, delta }

/-- The authorization over the fields of an input, with its digests. -/
def newAuthorization (runtime : Runtime) (input : AuthorizationInput)
    (fields : AuthorizationFields)
    (allocation : Option String × Option String) :
    UsageFinanceAuthorization :=
  sealAuthorization runtime
    { id := fields.id
      tenantId := fields.tenantId
      approvedByPrincipalId := fields.approvedByPrincipalId
      approvedByRole := "finance_owner"
      actorPrincipalId := fields.actorPrincipalId
      entryType := input.entryType
      invoiceReference := fields.invoiceReference
      entryIdempotencyKey := fields.entryIdempotencyKey
      mcuMicrosDelta := fields.delta
      reason := fields.reason
      allocationEntitlementId := allocation.1
      allocationPriceVersion := allocation.2
      intentDigest := ""
      authorizationDigest := ""
      approvedAt := input.approvedAt
      expiresAt := input.expiresAt
      consumedAt := none
      consumedEntryId := none }

/-- `INSERT INTO usage_finance_authorizations`. -/
def insertAuthorization (finance : UsageFinanceAuthorization) :
    UsageM UsageFinanceAuthorization := do
  let db ← get
  match authorizationConstraint db finance with
  | some failure => throw failure
  | none =>
    modify fun db =>
      { db with authorizations := db.authorizations ++ [finance] }
    return finance

def createUsageFinanceAuthorization (runtime : Runtime)
    (input : AuthorizationInput) : UsageM UsageFinanceAuthorization := do
  let fields ← authorizationFields runtime input
  let db ← get
  match db.authorizations.find? fun finance =>
    decide (finance.tenantId = fields.tenantId ∧ (finance.id = fields.id ∨
      finance.entryIdempotencyKey = fields.entryIdempotencyKey)) with
  | some authorization =>
    rejectIf (¬ SameAuthorization runtime input fields authorization)
      "usage_finance_authorization_conflict"
    return authorization
  | none =>
    assertFinanceOwnerAt db fields.tenantId fields.approvedByPrincipalId
      input.approvedAt
    assertActiveActorAt db fields.tenantId fields.actorPrincipalId
      input.approvedAt
    let allocation ← authorizationAllocation db input fields.tenantId
      fields.invoiceReference
    insertAuthorization (newAuthorization runtime input fields allocation)

/-! ## Reservations -/

/-- The entry which is written from a request: `{ ...input, … }`. -/
def Request.entry (request : Request) (entryType : UsageEntryType)
    (entitlementId taskId : String) (campaignId reservationId : Option String)
    (priceVersion : String) (reservedDelta consumedDelta : Int)
    (consumptionProvenance : Option String) : EntryInput where
  id := request.id
  tenantId := request.tenantId
  entryType := entryType
  entitlementId := entitlementId
  idempotencyKey := request.idempotencyKey
  taskId := taskId
  campaignId := campaignId
  reservationId := reservationId
  priceVersion := priceVersion
  reservedDelta := reservedDelta
  consumedDelta := consumedDelta
  invoiceReference := request.invoiceReference
  reason := request.reason
  actorPrincipalId := request.actorPrincipalId
  financeAuthorizationId := request.financeAuthorizationId
  financeAuthorizationDigest := request.financeAuthorizationDigest
  consumptionProvenance := consumptionProvenance
  createdAt := request.createdAt

/-- The entry of a reservation under an entitlement. -/
def ReserveInput.entry (input : ReserveInput)
    (entitlement : UsageEntitlement) : EntryInput :=
  input.toRequest.entry .reservation entitlement.id input.taskId
    input.campaignId none entitlement.priceVersionId input.mcuMicros 0
    input.consumptionProvenance

def reserveUsage (runtime : Runtime) (input : ReserveInput) :
    UsageM UsageLedgerEntry := do
  let amount ← micros "usage_reservation_mcu_micros" input.mcuMicros false
  rejectIf (amount = 0) "usage_reservation_empty"
  transaction do
    let db ← get
    let active ← getActiveUsageEntitlement runtime db input.tenantId
      input.createdAt
    let entitlement ← demand active "usage_entitlement_required"
    let entry := input.entry entitlement
    prepareEntry runtime db entry
    match entryByKey db input.tenantId input.idempotencyKey with
    | some _ => insertEntry runtime entry
    | none =>
      let totals ← currentTotals db input.tenantId entitlement.id
      rejectIf (entitlement.quotaMcuMicros <
          totals.reserved + totals.consumed + amount)
        "usage_quota_exceeded"
      insertEntry runtime entry

def reservationRecord (db : UsageDb) (tenantId reservationId : String) :
    Except String UsageLedgerEntry :=
  demand
    (db.entries.find? fun entry =>
      decide (entry.id = reservationId ∧ entry.tenantId = tenantId ∧
        entry.entryType = .reservation))
    "usage_reservation_not_found"

/-- The entries of a tenant which make up the balance of a reservation. -/
def holdEntries (db : UsageDb) (tenantId reservationId : String) :
    List UsageLedgerEntry :=
  db.entries.filter fun entry =>
    decide (entry.tenantId = tenantId ∧ (entry.id = reservationId ∨
      entry.reservationId = some reservationId))

def outstandingReservation (db : UsageDb)
    (tenantId reservationId : String) :
    Except String (UsageLedgerEntry × Int) := do
  let reservation ← reservationRecord db tenantId reservationId
  let total ← readNumber (reservedSum (holdEntries db tenantId reservationId))
  rejectIf (total ≤ 0) "usage_reservation_closed"
  return (reservation, total)

/-- A reservation, and what is taken back from it by an entry under a key. -/
def reservationState (db : UsageDb)
    (tenantId idempotencyKey reservationId : String) :
    Except String (UsageLedgerEntry × Int) := do
  let reservation ← reservationRecord db tenantId reservationId
  match entryByKey db tenantId idempotencyKey with
  | some existing => return (reservation, -existing.reservedMcuMicrosDelta)
  | none => outstandingReservation db tenantId reservationId

/-- The entry which closes a reservation. -/
def Request.closing (request : Request) (entryType : UsageEntryType)
    (reservation : UsageLedgerEntry) (reservationId : String)
    (outstanding consumed : Int) (consumptionProvenance : Option String) :
    EntryInput :=
  request.entry entryType reservation.entitlementId reservation.taskId
    reservation.campaignId (some reservationId) reservation.priceVersion
    (-outstanding) consumed consumptionProvenance

def settleUsageReservation (runtime : Runtime) (input : SettleInput) :
    UsageM UsageLedgerEntry := do
  let actual ← micros "usage_settlement_mcu_micros" input.actualMcuMicros
    false
  let consumptionProvenance ← settlementProvenance input.consumption
  transaction do
    let db ← get
    let (reservation, outstanding) ← reservationState db input.tenantId
      input.idempotencyKey input.reservationId
    rejectIf (entryByKey db input.tenantId input.idempotencyKey = none ∧
        outstanding < actual)
      "usage_settlement_exceeds_reservation"
    let entry := input.toRequest.closing .settlement reservation
      input.reservationId outstanding actual (some consumptionProvenance)
    prepareEntry runtime db entry
    insertEntry runtime entry

def releaseUsageReservation (runtime : Runtime) (input : ReleaseInput) :
    UsageM UsageLedgerEntry :=
  transaction do
    let db ← get
    let (reservation, outstanding) ← reservationState db input.tenantId
      input.idempotencyKey input.reservationId
    let entry := input.toRequest.closing .release reservation
      input.reservationId outstanding 0 input.consumptionProvenance
    prepareEntry runtime db entry
    insertEntry runtime entry

/-! ## Adjustments and credits -/

/-- What a call says about its authorization, with white space removed. -/
structure Claimed where
  delta : Int
  invoiceReference : String
  financeAuthorizationId : String
  financeAuthorizationDigest : String
  actorPrincipalId : String

/-- The checks of a signed change in front of its transaction. -/
def claimed (input : SignedInput) (entryType : UsageEntryType) :
    Except String Claimed := do
  let delta ← micros "usage_adjustment_mcu_micros" input.mcuMicrosDelta true
  rejectIf (entryType = .adjustment ∧ delta ≤ 0) "usage_adjustment_invalid"
  rejectIf (entryType = .credit ∧ 0 ≤ delta) "usage_credit_invalid"
  let invoiceReference ← demand
    (truthy (input.invoiceReference.map Text.trim))
    "usage_invoice_reference_required"
  let financeAuthorizationId ← required "usage_finance_authorization_id"
    (input.financeAuthorizationId.getD "")
  let financeAuthorizationDigest ← required
    "usage_finance_authorization_digest"
    (input.financeAuthorizationDigest.getD "")
  let actorPrincipalId ← required "usage_finance_actor_principal_id"
    (input.actorPrincipalId.getD "")
  return { delta, invoiceReference, financeAuthorizationId
           financeAuthorizationDigest, actorPrincipalId }

/-- An authorization is for a call: for its intent, and under its digest. -/
def Binds (runtime : Runtime) (finance : UsageFinanceAuthorization)
    (input : SignedInput) (entryType : UsageEntryType) (claim : Claimed) :
    Prop :=
  finance.approvedByRole = "finance_owner" ∧
    finance.intentDigest = sha256 runtime (usageFinanceIntent input.tenantId
      (some claim.actorPrincipalId) entryType (some claim.invoiceReference)
      input.idempotencyKey claim.delta input.reason
      finance.allocationEntitlementId finance.allocationPriceVersion) ∧
    finance.authorizationDigest = claim.financeAuthorizationDigest ∧
    finance.authorizationDigest =
      usageFinanceAuthorizationDigest runtime finance

instance (runtime : Runtime) (finance : UsageFinanceAuthorization)
    (input : SignedInput) (entryType : UsageEntryType) (claim : Claimed) :
    Decidable (Binds runtime finance input entryType claim) :=
  inferInstanceAs (Decidable (_ ∧ _))

/-- The entry under the key of a call is the one which the call wrote. -/
def ExactReplay (runtime : Runtime) (db : UsageDb)
    (finance : UsageFinanceAuthorization) (input : SignedInput)
    (entryType : UsageEntryType) (claim : Claimed)
    (committed : UsageLedgerEntry) : Prop :=
  committed.entryType = entryType ∧ committed.taskId = input.taskId ∧
    committed.campaignId = input.campaignId ∧
    committed.reservationId = none ∧ committed.reservedMcuMicrosDelta = 0 ∧
    (entryType = .credit ∨ committed.consumedMcuMicrosDelta = claim.delta) ∧
    committed.invoiceReference = some claim.invoiceReference ∧
    committed.reason = input.reason ∧
    committed.actorPrincipalId = some claim.actorPrincipalId ∧
    committed.financeAuthorizationId = some claim.financeAuthorizationId ∧
    committed.financeAuthorizationDigest =
      some claim.financeAuthorizationDigest ∧
    finance.consumedEntryId = some committed.id ∧
    financeAuthorizationMatchesEntry runtime db committed = true

instance (runtime : Runtime) (db : UsageDb)
    (finance : UsageFinanceAuthorization) (input : SignedInput)
    (entryType : UsageEntryType) (claim : Claimed)
    (committed : UsageLedgerEntry) :
    Decidable (ExactReplay runtime db finance input entryType claim
      committed) :=
  inferInstanceAs (Decidable (_ ∧ _))

/-- The part of an invoice to which a call applies, and its share of it. -/
structure Selected where
  portions : List Portion
  entitlementId : String
  firstDelta : Int

/-- The first allocation of a change, and the portions of a credit. -/
def selectAllocation (entryType : UsageEntryType) (claim : Claimed)
    (finance : UsageFinanceAuthorization)
    (found : List InvoiceAllocation) : Except String Selected := do
  let total := (found.map InvoiceAllocation.allocated).sum
  rejectIf (total ≤ 0) "usage_invoice_allocation_not_found"
  rejectIf (entryType = .credit ∧ total + claim.delta < 0)
    "usage_credit_exceeds_invoice_allocation"
  if entryType = .credit then
    let portions ← allocateCreditAcrossInvoice found (-claim.delta)
    let first ← demand portions.head? "usage_credit_exceeds_consumption"
    return { portions
             entitlementId := first.allocation.entitlementId
             firstDelta := -first.credited }
  else
    let allocation ← demand
      (found.find? fun allocation =>
        decide (some allocation.entitlementId =
            finance.allocationEntitlementId ∧
          some allocation.priceVersion = finance.allocationPriceVersion))
      "usage_adjustment_allocation_target_invalid"
    return { portions := []
             entitlementId := allocation.entitlementId
             firstDelta := claim.delta }

/-- An entry of a signed change under an entitlement. -/
def SignedInput.entry (input : SignedInput) (entryType : UsageEntryType)
    (claim : Claimed) (entitlement : UsageEntitlement)
    (consumedDelta : Int) : EntryInput :=
  { input.toRequest.entry entryType entitlement.id input.taskId
      input.campaignId none entitlement.priceVersionId 0 consumedDelta
      input.consumptionProvenance with
    financeAuthorizationId := some claim.financeAuthorizationId
    financeAuthorizationDigest := some claim.financeAuthorizationDigest }

/-- The entry of a further portion of a credit, after the checks for it. -/
def derivedEntry (runtime : Runtime) (db : UsageDb) (input : SignedInput)
    (claim : Claimed) (portion : Portion) (index : Nat) :
    Except String EntryInput := do
  let entitlement ← demand
    (entitlementById db input.tenantId portion.allocation.entitlementId)
    "usage_credit_allocation_entitlement_missing"
  let totals ← currentTotals db input.tenantId entitlement.id
  rejectIf (totals.consumed - portion.credited < 0)
    "usage_credit_exceeds_consumption"
  let identity := creditAllocationIdentity runtime
    claim.financeAuthorizationId input.idempotencyKey index "portion"
  return { input.entry .credit claim entitlement (-portion.credited) with
    id := identity
    idempotencyKey := identity }

/-- The entries of the portions behind the first one. -/
def derivedEntries (runtime : Runtime) (db : UsageDb) (input : SignedInput)
    (claim : Claimed) (portions : List Portion) :
    Except String (List EntryInput) :=
  (portions.zipIdx.drop 1).mapM fun (portion, index) =>
    derivedEntry runtime db input claim portion index

/-- Write the entries of the further portions, one after the other. -/
def insertDerived (runtime : Runtime) : List EntryInput → UsageM Unit
  | [] => pure ()
  | derived :: rest => do
      let db ← get
      prepareEntry runtime db derived
      let _ ← insertEntry runtime derived
      insertDerived runtime rest

/-- Mark an authorization as consumed by an entry. -/
def consume (finance : UsageFinanceAuthorization) (tenantId createdAt
    entryId : String) : UsageM Unit := do
  let db ← get
  let open_ := fun (other : UsageFinanceAuthorization) =>
    decide (other.id = finance.id ∧ other.tenantId = tenantId ∧
      other.consumedAt = none ∧ other.consumedEntryId = none)
  rejectIf (db.authorizations.countP open_ ≠ 1)
    "usage_finance_authorization_consumed"
  modify fun db =>
    { db with
      authorizations := db.authorizations.map fun other =>
        if open_ other then
          { other with
            consumedAt := some createdAt
            consumedEntryId := some entryId }
        else other }

/-- A signed change whose idempotency key is new. -/
def commitSigned (runtime : Runtime) (input : SignedInput)
    (entryType : UsageEntryType) (claim : Claimed)
    (finance : UsageFinanceAuthorization) : UsageM UsageLedgerEntry := do
  let db ← get
  let occurredAtMs ← time runtime "usage_created_at" input.createdAt
  let approvedAtMs ← time runtime "usage_finance_approved_at"
    finance.approvedAt
  rejectIf (occurredAtMs < approvedAtMs) "usage_finance_authorization_expired"
  let expiresAtMs ← time runtime "usage_finance_expires_at" finance.expiresAt
  rejectIf (expiresAtMs ≤ occurredAtMs) "usage_finance_authorization_expired"
  assertFinanceOwnerAt db input.tenantId finance.approvedByPrincipalId
    input.createdAt
  assertActiveActorAt db input.tenantId claim.actorPrincipalId input.createdAt
  rejectIf (finance.consumedEntryId ≠ none)
    "usage_finance_authorization_consumed"
  let found ← invoiceAllocationsFor db input.tenantId claim.invoiceReference
    none
  let selected ← selectAllocation entryType claim finance found
  let entitlement ← demand
    (entitlementById db input.tenantId selected.entitlementId)
    (if entryType = .credit then "usage_credit_exceeds_consumption"
    else "usage_entitlement_required")
  let totals ← currentTotals db input.tenantId entitlement.id
  let nextConsumed := totals.consumed + selected.firstDelta
  rejectIf (nextConsumed < 0) "usage_credit_exceeds_consumption"
  rejectIf (0 < claim.delta ∧
      entitlement.quotaMcuMicros < totals.reserved + nextConsumed)
    "usage_quota_exceeded"
  let entry := input.entry entryType claim entitlement selected.firstDelta
  prepareEntry runtime db entry
  let result ← insertEntry runtime entry
  let written ← get
  let derived ← derivedEntries runtime written input claim selected.portions
  insertDerived runtime derived
  consume finance input.tenantId input.createdAt result.id
  return result

def signedUsageChange (runtime : Runtime) (input : SignedInput)
    (entryType : UsageEntryType) : UsageM UsageLedgerEntry := do
  let claim ← claimed input entryType
  transaction do
    let db ← get
    let finance ← demand
      (authorizationById db input.tenantId claim.financeAuthorizationId)
      "usage_finance_authorization_required"
    rejectIf (¬ Binds runtime finance input entryType claim)
      "usage_finance_authorization_binding_invalid"
    match entryByKey db input.tenantId input.idempotencyKey with
    | some committed =>
      rejectIf (¬ ExactReplay runtime db finance input entryType claim
          committed)
        "usage_idempotency_conflict"
      return committed
    | none => commitSigned runtime input entryType claim finance

def adjustUsage (runtime : Runtime) (input : SignedInput) :
    UsageM UsageLedgerEntry :=
  signedUsageChange runtime input .adjustment

def creditUsage (runtime : Runtime) (input : SignedInput) :
    UsageM UsageLedgerEntry :=
  signedUsageChange runtime input .credit

/-! ## Runs -/

/-- A call of the ledger. -/
inductive Call where
  | price (input : PriceInput)
  | entitlement (input : EntitlementInput)
  | authorization (input : AuthorizationInput)
  | reserve (input : ReserveInput)
  | settle (input : SettleInput)
  | release (input : ReleaseInput)
  | adjust (input : SignedInput)
  | credit (input : SignedInput)

/-- What a call returns. -/
inductive Answer where
  | price (created : UsagePriceVersion)
  | entitlement (created : UsageEntitlement)
  | authorization (created : UsageFinanceAuthorization)
  | entry (written : UsageLedgerEntry)

def Call.perform (runtime : Runtime) : Call → UsageM Answer
  | .price input => Answer.price <$> createUsagePriceVersion runtime input
  | .entitlement input =>
    Answer.entitlement <$> createUsageEntitlement runtime input
  | .authorization input =>
    Answer.authorization <$> createUsageFinanceAuthorization runtime input
  | .reserve input => Answer.entry <$> reserveUsage runtime input
  | .settle input => Answer.entry <$> settleUsageReservation runtime input
  | .release input => Answer.entry <$> releaseUsageReservation runtime input
  | .adjust input => Answer.entry <$> adjustUsage runtime input
  | .credit input => Answer.entry <$> creditUsage runtime input

/-- What happens to a database: a call, or a change of who there is. -/
inductive Event where
  | call (call : Call)
  | identities (identities : Identities)

/-- The database after an event. -/
def step (runtime : Runtime) (db : UsageDb) : Event → UsageDb
  | .call call => (outcome (call.perform runtime) db).2
  | .identities identities => { db with identities }

end Mendpoint.Usage
