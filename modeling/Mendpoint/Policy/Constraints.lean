import Mendpoint.Library.Collation
import Mendpoint.Library.Fallible
import Mendpoint.Library.IsoTime
import Mendpoint.Library.OrderedMap
import Mendpoint.Library.PosixPath
import Mendpoint.Library.TextOrder

/-!
# Constraints of an organization

A contract holds the rules of an organization's sources.  Whether a file of a
repository may be read, changed or deleted is decided by the rules whose
patterns match its path, and among them by those whose sources have the
highest precedence.
-/

namespace Mendpoint.Policy.Constraints

open Mendpoint.Library
open Mendpoint.Library.Fallible

/-! ## Contracts -/

inductive SourceKind where
  | serviceMap
  | codeowners
  | buildSetting
  | ciSetting
  | protectedPath
  | architectureDecision
  | explicitPolicy

/-- `ORGANIZATION_CONSTRAINT_PRECEDENCE` -/
def SourceKind.precedence : SourceKind → Nat
  | serviceMap => 100
  | codeowners => 200
  | buildSetting => 300
  | ciSetting => 400
  | protectedPath => 500
  | architectureDecision => 600
  | explicitPolicy => 700

inductive Effect where
  | allow
  | deny
  deriving DecidableEq

structure Source where
  id : String
  kind : SourceKind
  repositoryId : String
  revision : String
  digest : String
  locator : String
  evidenceRefs : List String

structure Rule where
  id : String
  sourceId : String
  repositoryId : String
  pathPattern : String
  actions : List String
  effect : Effect
  ownerIds : List String
  rationale : String

/-- What a contract says; the version of the schema is the same
everywhere. -/
structure ContractBody where
  tenantId : String
  organizationId : String
  version : Int
  effectiveAt : String
  sources : List Source
  rules : List Rule

structure Contract extends ContractBody where
  digest : String

structure Decision where
  allowed : Bool
  tenantId : String
  organizationId : String
  contractVersion : Int
  contractDigest : String
  repositoryId : String
  path : String
  action : String
  reasons : List String
  evidenceRefs : List String

structure Request where
  tenantId : String
  organizationId : String
  repositoryId : String
  path : String
  action : String

/-! ## Checks of texts -/

/-- `/^[A-Za-z0-9][A-Za-z0-9._:-]{0,199}$/` -/
def isId (text : String) : Bool :=
  Pattern.isName ['.', '_', ':', '-'] 199 text

/-- A comparison of texts which tells identifiers apart, which texts are
dates, and the digest of a contract. -/
structure Host where
  collation : Collation
  separates : ∀ left right, isId left = true → isId right = true →
    collation.le left right = true → collation.le right left = true →
    left = right
  isDate : String → Bool
  digest : ContractBody → String

def ACTIONS : List String := ["read", "change", "delete"]

def text (value code : String) (maximum : Nat) : Except String String := do
  throwIf (value = "" ∨ value ≠ Text.trim value ∨
    maximum < (Text.codeUnits value).length) code
  return value

def id (value code : String) : Except String String := do
  let result ← text value code 200
  throwIf (isId result = false) code
  return result

def list (values : List String) (code : String) :
    Except String (List String) := do
  throwIf (values = []) code
  let normalized ← values.mapM fun value => text value code 1000
  throwIf (¬ normalized.Nodup) code
  return Text.sortTexts normalized

/-- `pattern.slice(0, -3)` -/
def stem (pattern : String) : String :=
  String.ofList (pattern.toList.take (pattern.toList.length - 3))

def pathPattern (value : String) : Except String String := do
  let pattern ← text value "organization_constraint_path_invalid" 1000
  if pattern = "**" then return pattern
  throwIf (Text.includes pattern "\\" = true ∨
      Text.includes pattern "\u0000" = true ∨
      Text.startsWith pattern "/" = true ∨
      Text.includes pattern "../" = true ∨ pattern = ".." ∨
      Text.includes pattern "//" = true ∨
      (Text.includes pattern "*" = true ∧
        Text.endsWith pattern "/**" = false) ∨
      Text.includes (stem pattern) "*" = true)
    "organization_constraint_path_invalid"
  return pattern

def normalizedPath (value : String) : Except String String := do
  let path ← text value "organization_constraint_path_invalid" 1000
  throwIf (Text.includes path "\\" = true ∨
      Text.includes path "\u0000" = true ∨
      Text.startsWith path "/" = true ∨
      Text.includes path "../" = true ∨ path = "..")
    "organization_constraint_path_invalid"
  return path

/-- `matches(pattern, path)` -/
def «matches» (pattern path : String) : Bool :=
  if pattern = "**" then true
  else if Text.endsWith pattern "/**" = false then decide (pattern = path)
  else decide (path = stem pattern) ||
    Text.startsWith path (stem pattern ++ "/")

/-! ## The creation of a contract -/

/-- The source which is kept for a candidate. -/
def checkSource (candidate : Source) : Except String Source := do
  let sourceId ← id candidate.id "organization_constraint_source_id_invalid"
  let repositoryId ← id candidate.repositoryId
    "organization_constraint_repository_invalid"
  let revision ← text candidate.revision
    "organization_constraint_source_revision_invalid" 1000
  let digest ← text candidate.digest
    "organization_constraint_source_digest_invalid" 1000
  let locator ← text candidate.locator
    "organization_constraint_source_locator_invalid" 1000
  let evidenceRefs ← list candidate.evidenceRefs
    "organization_constraint_source_evidence_required"
  throwIf (Pattern.isHexText 40 revision.toList = false)
    "organization_constraint_source_revision_invalid"
  throwIf (Pattern.isDigest digest = false)
    "organization_constraint_source_digest_invalid"
  return {
    id := sourceId
    kind := candidate.kind
    repositoryId := repositoryId
    revision := revision
    digest := digest
    locator := locator
    evidenceRefs := evidenceRefs }

/-- `new Map(sources.map((source) => [source.id, source]))` -/
def sourceById (sources : List Source) : OrderedMap String Source :=
  OrderedMap.ofList (sources.map fun source => (source.id, source))

/-- The rule which is kept for a candidate. -/
def checkRule (sources : OrderedMap String Source) (candidate : Rule) :
    Except String Rule := do
  let sourceId ← id candidate.sourceId
    "organization_constraint_rule_source_invalid"
  match sources.get? sourceId with
  | none => .error "organization_constraint_rule_source_unknown"
  | some source => do
    let repositoryId ← id candidate.repositoryId
      "organization_constraint_rule_repository_invalid"
    throwIf (repositoryId ≠ source.repositoryId)
      "organization_constraint_rule_repository_mismatch"
    throwIf (candidate.actions = [] ∨
        ∃ action ∈ candidate.actions, action ∉ ACTIONS)
      "organization_constraint_rule_actions_invalid"
    let actions := Text.sortTexts candidate.actions.dedup
    throwIf (actions.length ≠ candidate.actions.length)
      "organization_constraint_rule_actions_duplicate"
    let ruleId ← id candidate.id "organization_constraint_rule_id_invalid"
    let pattern ← pathPattern candidate.pathPattern
    let ownerIds ← list candidate.ownerIds
      "organization_constraint_rule_owner_required"
    let rationale ← text candidate.rationale
      "organization_constraint_rule_rationale_required" 2000
    return {
      id := ruleId
      sourceId := sourceId
      repositoryId := repositoryId
      pathPattern := pattern
      actions := actions
      effect := candidate.effect
      ownerIds := ownerIds
      rationale := rationale }

def precedenceOf (sources : OrderedMap String Source) (rule : Rule) : Nat :=
  ((sources.get? rule.sourceId).map (·.kind.precedence)).getD 0

def decisionKey (sources : OrderedMap String Source) (rule : Rule)
    (action : String) : String :=
  rule.repositoryId ++ "\u0000" ++ rule.pathPattern ++ "\u0000" ++ action ++
    "\u0000" ++ toString (precedenceOf sources rule)

/-- The effects of the rules under the keys of their decisions. -/
def exactDecisions (sources : OrderedMap String Source) (rules : List Rule) :
    List (String × Effect) :=
  rules.flatMap fun rule =>
    rule.actions.map fun action =>
      (decisionKey sources rule action, rule.effect)

def checkDecisions (decided : OrderedMap String Effect) :
    List (String × Effect) → Except String Unit
  | [] => .ok ()
  | (key, effect) :: rest => do
    throwIf (∃ prior ∈ decided.get? key, prior ≠ effect)
      "organization_constraint_equal_precedence_conflict"
    checkDecisions (decided.set key effect) rest

def createOrganizationConstraintContract (host : Host)
    (input : ContractBody) : Except String Contract := do
  let tenantId ← id input.tenantId "organization_constraint_tenant_invalid"
  let organizationId ← id input.organizationId
    "organization_constraint_organization_invalid"
  throwIf (9007199254740991 < input.version ∨ input.version < 1)
    "organization_constraint_version_invalid"
  throwIf (IsoTime.Instant.parse? input.effectiveAt = none)
    (if host.isDate input.effectiveAt then
      "organization_constraint_effective_at_invalid"
    else "Invalid time value")
  throwIf (input.sources = []) "organization_constraint_sources_required"
  let sources ← input.sources.mapM checkSource
  throwIf (¬ (sources.map (·.id)).Nodup)
    "organization_constraint_source_id_duplicate"
  throwIf (input.rules = []) "organization_constraint_rules_required"
  let rules ← input.rules.mapM (checkRule (sourceById sources))
  throwIf (¬ (rules.map (·.id)).Nodup)
    "organization_constraint_rule_id_duplicate"
  checkDecisions OrderedMap.empty (exactDecisions (sourceById sources) rules)
  let body : ContractBody := {
    tenantId := tenantId
    organizationId := organizationId
    version := input.version
    effectiveAt := input.effectiveAt
    sources := host.collation.sortBy (·.id) sources
    rules := host.collation.sortBy (·.id) rules }
  return { toContractBody := body, digest := host.digest body }

/-! ## The assessment of a request -/

/-- A rule with its source. -/
def withSource (sources : OrderedMap String Source) (rule : Rule) :
    Except String (Rule × Source) :=
  match sources.get? rule.sourceId with
  | none =>
    .error "Cannot read properties of undefined (reading 'kind')"
  | some source => .ok (rule, source)

def matchesForPath (contract : Contract) (request : Request)
    (path : String) : Except String (List (Rule × Source)) :=
  (contract.rules.filter fun rule =>
      decide (rule.repositoryId = request.repositoryId) &&
        decide (request.action ∈ rule.actions) &&
        «matches» rule.pathPattern path).mapM
    (withSource (sourceById contract.sources))

def highest (matched : List (Rule × Source)) : Nat :=
  (matched.map (·.2.kind.precedence)).foldl max 0

/-- The matching rules of the highest precedence. -/
def decisive (matched : List (Rule × Source)) : List (Rule × Source) :=
  matched.filter fun pair =>
    decide (pair.2.kind.precedence = highest matched)

/-- A reason which is given on a condition. -/
def reasonIf (condition : Prop) [Decidable condition] (reason : String) :
    List String :=
  if condition then [reason] else []

def reasonsOf (contract : Contract) (request : Request)
    (matched : List (Rule × Source)) : List String :=
  reasonIf (request.tenantId ≠ contract.tenantId)
      "constraint_tenant_mismatch" ++
    reasonIf (request.organizationId ≠ contract.organizationId)
      "constraint_organization_mismatch" ++
    reasonIf (request.action ∉ ACTIONS) "constraint_action_invalid" ++
    reasonIf (matched = []) "constraint_default_deny" ++
    reasonIf (1 < ((decisive matched).map (·.1.effect)).dedup.length)
      "constraint_equal_precedence_conflict" ++
    reasonIf (∃ pair ∈ decisive matched, pair.1.effect = .deny)
      "constraint_denied"

def assessOrganizationConstraint (contract : Contract) (request : Request) :
    Except String Decision := do
  let path ← normalizedPath request.path
  let matched ← matchesForPath contract request path
  let reasons := reasonsOf contract request matched
  return {
    allowed := decide (reasons = [] ∧ decisive matched ≠ [] ∧
      ∀ pair ∈ decisive matched, pair.1.effect = .allow)
    tenantId := request.tenantId
    organizationId := request.organizationId
    contractVersion := contract.version
    contractDigest := contract.digest
    repositoryId := request.repositoryId
    path := path
    action := request.action
    reasons := Text.sortTexts reasons.dedup
    evidenceRefs := Text.sortTexts
      ((decisive matched).flatMap (·.2.evidenceRefs)).dedup }

/-! ## The file which a path denotes -/

/-- The names which lead to the file; they start with `..` where the path
leaves the repository. -/
def fileOf (path : String) : List String :=
  RelativePath.resolve (PosixPath.segments path)

/-- The pattern covers the file. -/
def Covers (pattern : String) (file : List String) : Prop :=
  file.head? ≠ some ".." ∧
    (pattern = "**" ∨
      if Text.endsWith pattern "/**" = true then
        fileOf (stem pattern) <+: file
      else fileOf pattern = file)

instance (pattern : String) (file : List String) :
    Decidable (Covers pattern file) :=
  inferInstanceAs (Decidable (_ ∧ (_ ∨ ite _ _ _)))

/-- A rule for the repository and the action whose pattern covers the file. -/
def Covering (contract : Contract) (request : Request) (rule : Rule) :
    Prop :=
  rule ∈ contract.rules ∧ rule.repositoryId = request.repositoryId ∧
    request.action ∈ rule.actions ∧
    Covers rule.pathPattern (fileOf request.path)

/-- The rules which are judged to concern the request are not none, and those
of the highest precedence all allow it. -/
def AllowedBy (contract : Contract) (request : Request)
    (judged : Rule → Prop) : Prop :=
  request.tenantId = contract.tenantId ∧
    request.organizationId = contract.organizationId ∧
    request.action ∈ ACTIONS ∧ (∃ rule, judged rule) ∧
    ∀ rule, judged rule →
      (∀ other, judged other →
        precedenceOf (sourceById contract.sources) other ≤
          precedenceOf (sourceById contract.sources) rule) →
      rule.effect = .allow

/-- What the decision should be. -/
def Allowed (contract : Contract) (request : Request) : Prop :=
  AllowedBy contract request (Covering contract request)

end Mendpoint.Policy.Constraints
