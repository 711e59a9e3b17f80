import Mendpoint.Library.Attempt
import Mendpoint.Library.JsonText
import Mendpoint.Library.Numbers
import Mathlib.Algebra.BigOperators.Group.List.Basic

/-!
# The records of the usage ledger

Price versions, entitlements, ledger entries, finance authorizations, and the
database which holds them.  What node provides is a parameter: SHA-256, the
parsing of dates and upper case.  Numbers are whole; where doubles round, the
comparisons of the writer come out the same.
-/

namespace Mendpoint.Usage

open Mendpoint.Library

/-- What the code takes from its runtime. -/
structure Runtime where
  /-- `createHash("sha256").update(text).digest("hex")`. -/
  sha256 : String → String
  /-- `Date.parse(text)`, which finds no time in some texts. -/
  parseDate : String → Option Int
  /-- `text.toUpperCase()`. -/
  upperCase : String → String

/-! ## Rows -/

structure UsagePriceVersion where
  id : String
  tenantId : String
  formulaVersion : String
  currency : String
  pricePerMcuMoneyMicros : Int
  effectiveAt : String
  expiresAt : Option String
  contractReference : String
  createdAt : String

structure UsageEntitlement where
  id : String
  tenantId : String
  version : Nat
  priceVersionId : String
  quotaMcuMicros : Int
  features : List String
  contractReference : String
  periodStart : String
  periodEnd : String
  createdAt : String

inductive UsageEntryType where
  | reservation
  | settlement
  | release
  | adjustment
  | credit
  deriving DecidableEq

namespace UsageEntryType

def text : UsageEntryType → String
  | reservation => "reservation"
  | settlement => "settlement"
  | release => "release"
  | adjustment => "adjustment"
  | credit => "credit"

/-- The entries which finance authorizes. -/
def Financial : UsageEntryType → Prop
  | adjustment | credit => True
  | _ => False

instance (entryType : UsageEntryType) : Decidable entryType.Financial := by
  cases entryType
  all_goals
    unfold Financial
    infer_instance

theorem text_injective : Function.Injective text := by
  intro left right same
  cases left
  all_goals
    cases right
    all_goals first
      | rfl
      | exact absurd same (by decide)

end UsageEntryType

structure UsageLedgerEntry where
  id : String
  tenantId : String
  entryType : UsageEntryType
  entitlementId : String
  idempotencyKey : String
  taskId : String
  campaignId : Option String
  reservationId : Option String
  priceVersion : String
  reservedMcuMicrosDelta : Int
  consumedMcuMicrosDelta : Int
  invoiceReference : Option String
  reason : String
  actorPrincipalId : Option String
  financeAuthorizationId : Option String
  financeAuthorizationDigest : Option String
  consumptionProvenance : Option String
  entrySequence : Nat
  previousHash : Option String
  entryHash : String
  createdAt : String

structure UsageFinanceAuthorization where
  id : String
  tenantId : String
  approvedByPrincipalId : String
  approvedByRole : String
  actorPrincipalId : String
  entryType : UsageEntryType
  invoiceReference : String
  entryIdempotencyKey : String
  mcuMicrosDelta : Int
  reason : String
  allocationEntitlementId : Option String
  allocationPriceVersion : Option String
  intentDigest : String
  authorizationDigest : String
  approvedAt : String
  expiresAt : String
  consumedAt : Option String
  consumedEntryId : Option String

/-- Evidence about an entry which is older than a check, by its hash. -/
structure LegacyEvidence where
  entryId : String
  tenantId : String
  entryHash : String
  status : String
  migrationVersion : String

structure Principal where
  id : String
  tenantId : String
  kind : String
  subject : String
  audience : Option String
  expiresAt : Option String
  revokedAt : Option String
  createdAt : String

structure TenantMembership where
  tenantId : String
  issuer : String
  subject : String
  role : String
  status : String
  updatedAt : String

/-- Who there is; the ledger reads these tables and never writes them. -/
structure Identities where
  tenants : List String
  principals : List Principal
  memberships : List TenantMembership

/-- The tables of the usage ledger, each in the order of its insertions. -/
structure UsageDb where
  identities : Identities
  prices : List UsagePriceVersion
  entitlements : List UsageEntitlement
  entries : List UsageLedgerEntry
  authorizations : List UsageFinanceAuthorization
  legacyFinance : List LegacyEvidence
  legacyMeasurement : List LegacyEvidence

/-- A database in which only the identities are known. -/
def UsageDb.empty (identities : Identities) : UsageDb where
  identities := identities
  prices := []
  entitlements := []
  entries := []
  authorizations := []
  legacyFinance := []
  legacyMeasurement := []

abbrev UsageM (α : Type) : Type :=
  Attempt UsageDb String α

/-! ## What is asked for -/

/-- What an entry is written from. -/
structure EntryInput where
  id : String
  tenantId : String
  entryType : UsageEntryType
  entitlementId : String
  idempotencyKey : String
  taskId : String
  campaignId : Option String
  reservationId : Option String
  priceVersion : String
  reservedDelta : Int
  consumedDelta : Int
  invoiceReference : Option String
  reason : String
  actorPrincipalId : Option String
  financeAuthorizationId : Option String
  financeAuthorizationDigest : Option String
  consumptionProvenance : Option String
  createdAt : String
  deriving DecidableEq

structure PriceInput where
  id : String
  tenantId : String
  formulaVersion : String
  currency : String
  pricePerMcuMoneyMicros : Int
  effectiveAt : String
  expiresAt : Option String
  contractReference : String
  createdAt : String

structure EntitlementInput where
  id : String
  tenantId : String
  priceVersionId : String
  quotaMcuMicros : Int
  features : List String
  contractReference : String
  periodStart : String
  periodEnd : String
  createdAt : String

structure AuthorizationInput where
  id : String
  tenantId : String
  approvedByPrincipalId : String
  actorPrincipalId : String
  entryType : UsageEntryType
  invoiceReference : String
  entryIdempotencyKey : String
  mcuMicrosDelta : Int
  reason : String
  allocationEntitlementId : Option String
  allocationPriceVersion : Option String
  approvedAt : String
  expiresAt : String

inductive SettlementConsumption where
  | measured
  | notMeasured (reason : String)

/-- What the callers of all entries say; the rest differs with the kind. -/
structure Request where
  id : String
  tenantId : String
  idempotencyKey : String
  invoiceReference : Option String
  reason : String
  actorPrincipalId : Option String
  financeAuthorizationId : Option String
  financeAuthorizationDigest : Option String
  createdAt : String

structure ReserveInput extends Request where
  taskId : String
  campaignId : Option String
  consumptionProvenance : Option String
  mcuMicros : Int

structure SettleInput extends Request where
  reservationId : String
  actualMcuMicros : Int
  consumption : Option SettlementConsumption

structure ReleaseInput extends Request where
  reservationId : String
  consumptionProvenance : Option String

structure SignedInput extends Request where
  taskId : String
  campaignId : Option String
  consumptionProvenance : Option String
  mcuMicrosDelta : Int

end Mendpoint.Usage
