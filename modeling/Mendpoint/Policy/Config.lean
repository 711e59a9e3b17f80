import Mathlib.Data.List.DropRight
import Mendpoint.Library.TextOrder
import Mendpoint.Library.PosixPath
import Mendpoint.Library.Collation
import Mendpoint.Library.CanonicalJson
import Mendpoint.Library.Counting

/-!
# Policy envelopes

What a task wants to do is checked against the envelope it inherits.  The
forbidden zones are compared with the target paths as texts, after a fixed
sequence of rewrites of both.
-/

namespace Mendpoint.Policy

open Mendpoint.Library

/-! ## Envelopes and tasks -/

/-- The risk classes of `POLICY_RISK_CLASSES`. -/
inductive PolicyRiskClass where
  | low
  | medium
  | high
  | critical

/-- `RISK_RANK`. -/
def PolicyRiskClass.rank : PolicyRiskClass → Nat
  | .low => 0
  | .medium => 1
  | .high => 2
  | .critical => 3

/-- The name of a risk class. -/
def PolicyRiskClass.text : PolicyRiskClass → String
  | .low => "low"
  | .medium => "medium"
  | .high => "high"
  | .critical => "critical"

/-- The boundaries which an envelope sets to a task. -/
structure PolicyEnvelope where
  repositoryScope : List String
  branchScope : List String
  forbiddenZones : List String
  allowedTools : List String
  allowedModelClasses : List String
  externalProcessingAllowed : Bool
  residency : String
  riskCeiling : PolicyRiskClass
  reviewRequired : Bool
  deploymentAllowed : Bool
  trainingDataAllowed : Bool

/-- What a task wants to do. -/
structure PolicyTaskRequest where
  repositoryId : String
  branch : String
  targetPaths : List String
  tool : String
  modelClass : String
  externalProcessing : Bool
  risk : PolicyRiskClass
  isDeployment : Bool
  wantsTrainingCapture : Bool
  residency : String

inductive PolicyViolationCode where
  | repositoryOutOfScope
  | branchOutOfScope
  | forbiddenZoneEdit
  | toolNotAllowed
  | modelClassNotAllowed
  | externalProcessingForbidden
  | riskCeilingExceeded
  | deploymentForbidden
  | trainingCaptureForbidden
  | residencyMismatch

structure PolicyViolation where
  code : PolicyViolationCode
  detail : String

structure PolicyDecision where
  allowed : Bool
  violations : List PolicyViolation
  reviewRequired : Bool

/-! ## Zones -/

/-- `value.replace(/\\/g, "/")`. -/
def slashed (value : String) : String :=
  Text.replaceChar '\\' '/' value

/-- `value.replace(/\/+$/g, "")`. -/
def withoutFinalSlashes (value : String) : String :=
  String.ofList (value.toList.rdropWhile (· == '/'))

/-- `value.replace(/^\/+/, "")`. -/
def withoutLeadingSlashes (value : String) : String :=
  String.ofList (value.toList.dropWhile (· == '/'))

def normalizePathSegment (value : String) : String :=
  withoutLeadingSlashes
    (withoutFinalSlashes (Text.dropPrefix "./" (slashed value)))

def pathUnderZone (path zone : String) : Bool :=
  let p := normalizePathSegment path
  let z := normalizePathSegment zone
  if z.isEmpty then false else p == z || Text.startsWith p (z ++ "/")

/-! ## The decision -/

/-- A violation which is reported under a condition. -/
def reportIf (condition : Bool) (code : PolicyViolationCode)
    (detail : String) : List PolicyViolation :=
  if condition then [⟨code, detail⟩] else []

/-- An allowlist which restricts, and does not list the value. -/
def outside (allowlist : List String) (value : String)
    (code : PolicyViolationCode) : List PolicyViolation :=
  reportIf (!allowlist.isEmpty && !allowlist.contains value) code value

/-- The edits in forbidden zones, in the order of the sorted paths. -/
def forbiddenEdits (zones paths : List String) : List PolicyViolation :=
  (Text.sortTexts paths).flatMap fun path =>
    reportIf (zones.find? (pathUnderZone path)).isSome .forbiddenZoneEdit path

def evaluatePolicyEnvelope (envelope : PolicyEnvelope)
    (task : PolicyTaskRequest) : PolicyDecision :=
  let violations :=
    outside envelope.repositoryScope task.repositoryId .repositoryOutOfScope ++
    outside envelope.branchScope task.branch .branchOutOfScope ++
    forbiddenEdits envelope.forbiddenZones task.targetPaths ++
    outside envelope.allowedTools task.tool .toolNotAllowed ++
    outside envelope.allowedModelClasses task.modelClass
      .modelClassNotAllowed ++
    reportIf (task.externalProcessing && !envelope.externalProcessingAllowed)
      .externalProcessingForbidden "external_processing" ++
    reportIf (decide (task.risk.rank > envelope.riskCeiling.rank))
      .riskCeilingExceeded task.risk.text ++
    reportIf (task.isDeployment && !envelope.deploymentAllowed)
      .deploymentForbidden "deployment" ++
    reportIf (task.wantsTrainingCapture && !envelope.trainingDataAllowed)
      .trainingCaptureForbidden "training_capture" ++
    reportIf (task.residency != envelope.residency)
      .residencyMismatch task.residency
  { allowed := violations.isEmpty
    violations := violations
    reviewRequired := envelope.reviewRequired }

/-! ## Reported paths -/

variable {violation : PolicyViolation}

theorem mem_reportIf {condition : Bool} {code : PolicyViolationCode}
    {detail : String} :
    violation ∈ reportIf condition code detail ↔
      condition = true ∧ violation = ⟨code, detail⟩ := by
  cases condition with
  | true => exact List.mem_singleton.trans (and_iff_right rfl).symm
  | false =>
    exact iff_of_false List.not_mem_nil
      fun both => Bool.false_ne_true both.1

theorem mem_forbiddenEdits {zones paths : List String} :
    violation ∈ forbiddenEdits zones paths ↔
      ∃ path ∈ paths, (∃ zone ∈ zones, pathUnderZone path zone = true) ∧
        violation = ⟨.forbiddenZoneEdit, path⟩ := by
  simp only [forbiddenEdits, List.mem_flatMap, mem_reportIf,
    List.find?_isSome, (Text.sortTexts_perm paths).mem_iff]

theorem mem_violations_iff {envelope : PolicyEnvelope}
    {task : PolicyTaskRequest} {detail : String} :
    ⟨.forbiddenZoneEdit, detail⟩ ∈
        (evaluatePolicyEnvelope envelope task).violations ↔
      detail ∈ task.targetPaths ∧
        ∃ zone ∈ envelope.forbiddenZones,
          pathUnderZone detail zone = true := by
  simp only [evaluatePolicyEnvelope, outside, List.mem_append,
    mem_reportIf, mem_forbiddenEdits, PolicyViolation.mk.injEq, reduceCtorEq,
    false_and, and_false, or_false, false_or, true_and]
  constructor
  · rintro ⟨path, member, under, rfl⟩
    exact ⟨member, under⟩
  · rintro ⟨member, under⟩
    exact ⟨detail, member, under, rfl⟩

theorem allowed_eq_false {envelope : PolicyEnvelope}
    {task : PolicyTaskRequest}
    (reported : violation ∈ (evaluatePolicyEnvelope envelope
      task).violations) :
    (evaluatePolicyEnvelope envelope task).allowed = false :=
  List.isEmpty_eq_false_iff_exists_mem.mpr ⟨violation, reported⟩

end Mendpoint.Policy

/-!
## Forbidden zones and where paths lead

The comparison with a zone follows the segments in which a path is spelled,
whereas the path leads where its segments resolve to.  The edits of a zone are
reported exactly when no path enters a zone, or leaves one, by a spelling.
-/

namespace Mendpoint.Policy

open Mendpoint.Library
open Mendpoint.Library.PosixPath
open Mendpoint.Library.RelativePath

/-! ## Readings of a path -/

/-- The names to which a path of the repository resolves. -/
def names (value : String) : List String :=
  resolve (segments (slashed value))

/-- The path is the zone or lies below it. -/
def Within (zone path : String) : Prop :=
  names zone ≠ [] ∧ names zone <+: names path

/-- The segments in which a path is compared. -/
def spelling (value : String) : List String :=
  segments (normalizePathSegment value)

/-- The path is spelled as the zone, and goes on from there. -/
def SpelledFrom (zone path : String) : Prop :=
  spelling zone ≠ [""] ∧ spelling zone <+: spelling path

/-- The path is spelled from no zone on, and leads into one all the same. -/
def Slips (zones : List String) (path : String) : Prop :=
  (∃ zone ∈ zones, Within zone path) ∧
    ∀ zone ∈ zones, ¬ SpelledFrom zone path

/-- The path is spelled from a zone on, and leads out of every zone. -/
def Strays (zones : List String) (path : String) : Prop :=
  (∃ zone ∈ zones, SpelledFrom zone path) ∧
    ∀ zone ∈ zones, ¬ Within zone path

instance (zone path : String) : Decidable (Within zone path) :=
  inferInstanceAs (Decidable (_ ∧ _))

instance (zone path : String) : Decidable (SpelledFrom zone path) :=
  inferInstanceAs (Decidable (_ ∧ _))

instance (zones : List String) (path : String) :
    Decidable (Slips zones path) :=
  inferInstanceAs (Decidable (_ ∧ _))

instance (zones : List String) (path : String) :
    Decidable (Strays zones path) :=
  inferInstanceAs (Decidable (_ ∧ _))

/-! ## The comparison of texts -/

theorem segments_empty : segments "" = [""] := by decide

theorem pathUnderZone_iff {path zone : String} :
    pathUnderZone path zone = true ↔ SpelledFrom zone path := by
  rw [pathUnderZone, SpelledFrom, spelling, spelling, segments_prefix_iff,
    ← segments_empty, segments_injective.ne_iff]
  by_cases empty : normalizePathSegment zone = ""
  · rw [if_pos (String.isEmpty_iff.mpr empty)]
    exact iff_of_false Bool.false_ne_true fun both => both.1 empty
  · rw [if_neg (mt String.isEmpty_iff.mp empty), Bool.or_eq_true, beq_iff_eq,
      and_iff_right empty]

/-! ## Which paths are reported -/

/-- The edits of forbidden zones are denied, and no others are reported. -/
def ReportsZones (envelope : PolicyEnvelope) (task : PolicyTaskRequest) :
    Prop :=
  (∀ path ∈ task.targetPaths,
    (∃ zone ∈ envelope.forbiddenZones, Within zone path) →
      (evaluatePolicyEnvelope envelope task).allowed = false ∧
        ⟨.forbiddenZoneEdit, path⟩ ∈
          (evaluatePolicyEnvelope envelope task).violations) ∧
    ∀ path, ⟨.forbiddenZoneEdit, path⟩ ∈
        (evaluatePolicyEnvelope envelope task).violations →
      ∃ zone ∈ envelope.forbiddenZones, Within zone path

/-- An envelope which forbids one directory. -/
def guardedEnvelope : PolicyEnvelope where
  repositoryScope := []
  branchScope := []
  forbiddenZones := ["src/auth"]
  allowedTools := []
  allowedModelClasses := []
  externalProcessingAllowed := false
  residency := "us"
  riskCeiling := .high
  reviewRequired := true
  deploymentAllowed := false
  trainingDataAllowed := false

/-- A task which edits a file of that directory, spelled with two slashes. -/
def slippingTask : PolicyTaskRequest where
  repositoryId := "repo-1"
  branch := "main"
  targetPaths := ["src//auth/token.ts"]
  tool := "edit"
  modelClass := "deterministic"
  externalProcessing := false
  risk := .low
  isDeployment := false
  wantsTrainingCapture := false
  residency := "us"

end Mendpoint.Policy

/-!
## Edit policies

A policy says which edits of a migration may go into a pull request.  Overrides
replace the fields they set, except that the protected paths of the default
policy stay protected under any overrides.
-/

namespace Mendpoint.EditPolicy

open Mendpoint.Library

/-! ## Configurations -/

inductive Confidence where
  | high
  | medium
  | low
deriving DecidableEq

/-- `confRank`. -/
def Confidence.rank : Confidence → Nat
  | .low => 0
  | .medium => 1
  | .high => 2

inductive ChangeRisk where
  | breaking
  | nonBreaking
  | newCapability
deriving DecidableEq

def ChangeRisk.text : ChangeRisk → String
  | .breaking => "breaking"
  | .nonBreaking => "non_breaking"
  | .newCapability => "new_capability"

structure PolicyConfig where
  autoMergeLowRisk : Bool
  neverTouchPaths : List String
  requireTwoReviewersForAuth : Bool
  minConfidenceForEdit : Confidence
  notificationsOnly : Bool

/-- `Partial<PolicyConfig>`. -/
structure PolicyOverrides where
  autoMergeLowRisk : Option Bool := none
  neverTouchPaths : Option (List String) := none
  requireTwoReviewersForAuth : Option Bool := none
  minConfidenceForEdit : Option Confidence := none
  notificationsOnly : Option Bool := none
deriving DecidableEq

/-- `DEFAULT_POLICY`. -/
def defaultPolicy : PolicyConfig where
  autoMergeLowRisk := false
  neverTouchPaths :=
    [".env", ".env.local", ".env.production", "secrets/", "credentials",
      "id_rsa", ".pem", "prod/", "production/", "k8s/prod", "terraform/",
      "package-lock.json", "pnpm-lock.yaml", "yarn.lock", "Cargo.lock"]
  requireTwoReviewersForAuth := true
  minConfidenceForEdit := .medium
  notificationsOnly := false

/-- The protected paths of the default policy and then the other ones. -/
def protecting (paths : List String) : List String :=
  (defaultPolicy.neverTouchPaths ++ paths).eraseDups

def mergePolicy (overrides : PolicyOverrides) : PolicyConfig where
  autoMergeLowRisk :=
    overrides.autoMergeLowRisk.getD defaultPolicy.autoMergeLowRisk
  neverTouchPaths := protecting (overrides.neverTouchPaths.getD [])
  requireTwoReviewersForAuth :=
    overrides.requireTwoReviewersForAuth.getD
      defaultPolicy.requireTwoReviewersForAuth
  minConfidenceForEdit :=
    overrides.minConfidenceForEdit.getD defaultPolicy.minConfidenceForEdit
  notificationsOnly :=
    overrides.notificationsOnly.getD defaultPolicy.notificationsOnly

/-- `{ ...policy, ...config }`. -/
def PolicyConfig.spread (policy : PolicyConfig) (config : PolicyOverrides) :
    PolicyOverrides where
  autoMergeLowRisk := some
    (config.autoMergeLowRisk.getD policy.autoMergeLowRisk)
  neverTouchPaths := some (config.neverTouchPaths.getD policy.neverTouchPaths)
  requireTwoReviewersForAuth := some
    (config.requireTwoReviewersForAuth.getD policy.requireTwoReviewersForAuth)
  minConfidenceForEdit := some
    (config.minConfidenceForEdit.getD policy.minConfidenceForEdit)
  notificationsOnly := some
    (config.notificationsOnly.getD policy.notificationsOnly)

@[simp]
theorem protecting_protecting (paths : List String) :
    protecting (protecting paths) = protecting paths :=
  Distinct.eraseDups_append_eraseDups _ _

theorem mem_protecting {paths : List String} {path : String} :
    path ∈ protecting paths ↔
      path ∈ defaultPolicy.neverTouchPaths ∨ path ∈ paths := by
  rw [protecting, List.mem_eraseDups, List.mem_append]

/-! ## The evaluation of a draft -/

structure FileEdit where
  path : String
  original : String
  updated : String

/-- What the evaluation reads of a draft. -/
structure MigrationDraft where
  risk : ChangeRisk
  fileEdits : List FileEdit

/-- What the evaluation reads of a finding. -/
structure ImpactFinding where
  filePath : String
  symbol : String
  confidence : Confidence
  evidence : String
  relatedOps : List String

structure PolicyDecision where
  allowPr : Bool
  allowAutoMerge : Bool
  blockedFiles : List String
  allowedEdits : List FileEdit
  reasons : List String
  labels : List String

/-- What the host provides: case folding, comparison of texts, numerals, and
whether `ALLOW_AUTO_MERGE` is set. -/
structure Host where
  toLowerCase : String → String
  collation : Collation
  numerals : Numerals
  allowAutoMerge : Bool

def pathBlocked (host : Host) (path : String) (neverTouch : List String) :
    Bool :=
  let p := host.toLowerCase (Text.replaceChar '\\' '/' path)
  neverTouch.any fun rule => Text.includes p (host.toLowerCase rule)

/-- `/one|two/i.test(text)` for words of ASCII letters and hyphens. -/
def mentions (words : List String) (text : String) : Bool :=
  words.any fun word => Text.includes (Text.lowerCase text) word

/-- A finding about authentication. -/
def authRelated (finding : ImpactFinding) : Bool :=
  mentions ["auth", "bearer", "api-key", "x-api-key", "security", "token"]
      finding.symbol ||
    mentions ["auth", "bearer", "api-key"] finding.evidence ||
    finding.relatedOps.contains "security_changed"

/-- The finding is about the file, whichever path is the longer one. -/
def concerns (path : String) (finding : ImpactFinding) : Bool :=
  Text.endsWith ("/" ++ path) ("/" ++ finding.filePath) ||
    Text.endsWith ("/" ++ finding.filePath) ("/" ++ path)

/-- No finding is about the file, or one has the confidence asked for. -/
def confident (findings : List ImpactFinding) (least : Confidence)
    (path : String) : Bool :=
  let fileFindings := findings.filter (concerns path)
  fileFindings.isEmpty ||
    fileFindings.any fun finding =>
      decide (least.rank ≤ finding.confidence.rank)

/-- What is said about merging without review, and whether it is allowed. -/
def autoMergeOf (host : Host) (policy : PolicyConfig)
    (draft : MigrationDraft) : Bool × List String × List String :=
  let eligible := policy.autoMergeLowRisk && draft.risk == .nonBreaking
  if eligible && host.allowAutoMerge then (true, [], ["auto-merge-eligible"])
  else if eligible then
    (false,
      ["auto-merge hard-off (set ALLOW_AUTO_MERGE=1 to enable eligibility)"],
      ["needs-human-review"])
  else
    (false, ["auto-merge disabled (human review required)"],
      ["needs-human-review"])

def evaluatePolicy (host : Host) (draft : MigrationDraft)
    (findings : List ImpactFinding) (overrides : PolicyOverrides) :
    PolicyDecision :=
  let policy := mergePolicy overrides
  let merging := autoMergeOf host policy draft
  let twoReviewers :=
    findings.any authRelated && policy.requireTwoReviewersForAuth
  let blocked := fun (edit : FileEdit) =>
    pathBlocked host edit.path policy.neverTouchPaths
  let blockedFiles := (draft.fileEdits.filter blocked).map FileEdit.path
  let allowedEdits := draft.fileEdits.filter fun edit =>
    !blocked edit && confident findings policy.minConfidenceForEdit edit.path
  { allowPr := !policy.notificationsOnly && !allowedEdits.isEmpty
    allowAutoMerge := merging.1
    blockedFiles := blockedFiles
    allowedEdits := allowedEdits
    reasons := merging.2.1 ++
      (if twoReviewers then ["auth/security surface — require two reviewers"]
        else []) ++
      (if blockedFiles.isEmpty then []
        else ["blocked paths: " ++ Text.join ", " blockedFiles]) ++
      (if policy.notificationsOnly then
        ["notifications-only policy — no PR open"] else []) ++
      (if allowedEdits.isEmpty && !draft.fileEdits.isEmpty then
        ["all proposed edits blocked by policy"] else [])
    labels := ["mendpoint"] ++ merging.2.2 ++
      (if draft.risk = .breaking then ["breaking-change"] else []) ++
      (if draft.risk = .newCapability then ["feature-adoption"] else []) ++
      (if twoReviewers then ["needs-two-reviewers"] else []) ++
      (if blockedFiles.isEmpty then [] else ["policy-path-blocked"]) }

end Mendpoint.EditPolicy

/-!
## Layers of policy versions

A tenant keeps versions of its policies, each for a scope.  The policy of a
context is merged from the latest approved version of every layer whose scope
matches, in the order of precedence.  A simulation resolves the policy as if a
candidate were approved.
-/

namespace Mendpoint.EditPolicy

open Mendpoint.Library

/-! ## Versions -/

inductive WardenPolicyScopeKind where
  | tenant
  | repository
  | branch
  | environment
  | risk
deriving DecidableEq

def WardenPolicyScopeKind.text : WardenPolicyScopeKind → String
  | .tenant => "tenant"
  | .repository => "repository"
  | .branch => "branch"
  | .environment => "environment"
  | .risk => "risk"

/-- `PRECEDENCE`. -/
def WardenPolicyScopeKind.precedence : WardenPolicyScopeKind → Nat
  | .tenant => 0
  | .repository => 1
  | .branch => 2
  | .environment => 3
  | .risk => 4

inductive WardenPolicyApprovalState where
  | draft
  | approved
deriving DecidableEq

structure WardenPolicyScope where
  kind : WardenPolicyScopeKind
  value : String
deriving DecidableEq

structure WardenPolicyApproval where
  approvalId : String
  approvedBy : String
  approvedAt : String
  evidenceArtifactId : String
deriving DecidableEq

structure WardenPolicyVersion where
  id : String
  tenantId : String
  policyKey : String
  version : Nat
  scope : WardenPolicyScope
  config : PolicyOverrides
  createdBy : String
  createdAt : String
  evidenceArtifactId : String
  contentSha256 : String
  approvalState : WardenPolicyApprovalState
  approval : Option WardenPolicyApproval
deriving DecidableEq

structure WardenPolicyContext where
  tenantId : String
  repositoryId : String
  branch : String
  environment : String
  risk : ChangeRisk

structure WardenPolicyResolution where
  policy : PolicyConfig
  appliedVersionIds : List String
  appliedDigests : List String

/-! ## Scopes -/

/-- A character which `.` does not match. -/
def endsLine (char : Char) : Bool :=
  char = '\n' || char = '\r' || char = '\u2028' || char = '\u2029'

/-- What may be left of a text after a part matched by `.*`. -/
def afterWildcard : List Char → List (List Char)
  | [] => [[]]
  | first :: rest =>
    (first :: rest) :: if endsLine first then [] else afterWildcard rest

/-- Match a whole text against a pattern. -/
def matchesFrom : List Char → List Char → Bool
  | [], value => value.isEmpty
  | char :: pattern, value =>
    if char = '*' then (afterWildcard value).any (matchesFrom pattern)
    else
      match value with
      | [] => false
      | first :: rest => char == first && matchesFrom pattern rest

def globMatches (pattern value : String) : Bool :=
  matchesFrom pattern.toList value.toList

def scopeMatches (scope : WardenPolicyScope) (context : WardenPolicyContext) :
    Bool :=
  match scope.kind with
  | .tenant => scope.value == context.tenantId
  | .repository => scope.value == context.repositoryId
  | .branch => globMatches scope.value context.branch
  | .environment => scope.value == context.environment
  | .risk => scope.value == context.risk.text

/-! ## Resolution -/

/-- An approved version of the tenant whose scope matches the context. -/
def eligible (context : WardenPolicyContext) (version : WardenPolicyVersion) :
    Bool :=
  version.tenantId == context.tenantId &&
    version.approvalState == .approved && scopeMatches version.scope context

/-- The text under which the latest version of a layer is kept. -/
def layerKey (version : WardenPolicyVersion) : String :=
  version.policyKey ++ "\n" ++ version.scope.kind.text ++ "\n" ++
    version.scope.value

/-- Keep a version when it is later than the one of its layer. -/
def keepLatest (latest : OrderedMap String WardenPolicyVersion)
    (version : WardenPolicyVersion) :
    OrderedMap String WardenPolicyVersion :=
  match latest.get? (layerKey version) with
  | none => latest.set (layerKey version) version
  | some previous =>
    if previous.version < version.version then
      latest.set (layerKey version) version
    else latest

def latestByLayer (versions : List WardenPolicyVersion)
    (context : WardenPolicyContext) :
    OrderedMap String WardenPolicyVersion :=
  (versions.filter (eligible context)).foldl keepLatest OrderedMap.empty

/-- The comparison by which the applied versions are sorted, as `≤`. -/
def orders (collation : Collation) (left right : WardenPolicyVersion) :
    Prop :=
  left.scope.kind.precedence < right.scope.kind.precedence ∨
    (left.scope.kind.precedence = right.scope.kind.precedence ∧
      collation.le left.policyKey right.policyKey = true ∧
      (collation.le right.policyKey left.policyKey = true →
        left.version ≤ right.version))

instance (collation : Collation) : DecidableRel (orders collation) :=
  fun _ _ => inferInstanceAs (Decidable (_ ∨ (_ ∧ _ ∧ (_ → _))))

def appliedVersions (collation : Collation)
    (versions : List WardenPolicyVersion) (context : WardenPolicyContext) :
    List WardenPolicyVersion :=
  (latestByLayer versions context).values.insertionSort (orders collation)

/-- Merge the configuration of a version over a policy. -/
def mergeVersion (policy : PolicyConfig) (version : WardenPolicyVersion) :
    PolicyConfig :=
  mergePolicy (policy.spread version.config)

def resolveWardenPolicy (collation : Collation)
    (versions : List WardenPolicyVersion) (context : WardenPolicyContext) :
    WardenPolicyResolution :=
  let applied := appliedVersions collation versions context
  { policy := applied.foldl mergeVersion (mergePolicy {})
    appliedVersionIds := applied.map WardenPolicyVersion.id
    appliedDigests := applied.map WardenPolicyVersion.contentSha256 }

/-! ## Simulation -/

structure WardenPolicySimulationCase where
  id : String
  context : WardenPolicyContext
  draft : MigrationDraft
  findings : List ImpactFinding

structure SimulatedCase where
  id : String
  before : PolicyDecision
  after : PolicyDecision
  changed : Bool

structure WardenPolicySimulationResult where
  candidateVersionId : String
  candidateDigest : String
  cases : List SimulatedCase

/-- The version once it is approved. -/
def approvedBy (version : WardenPolicyVersion)
    (approval : WardenPolicyApproval) : WardenPolicyVersion :=
  { version with approvalState := .approved, approval := some approval }

/-- The approval which a simulation assumes. -/
def simulatedApproval (candidate : WardenPolicyVersion) :
    WardenPolicyApproval :=
  candidate.approval.getD
    { approvalId := "simulation"
      approvedBy := "human:simulation"
      approvedAt := candidate.createdAt
      evidenceArtifactId := candidate.evidenceArtifactId }

/-- The policy by which a simulated case is evaluated afterwards. -/
def afterPolicy (collation : Collation)
    (activeVersions : List WardenPolicyVersion)
    (candidate : WardenPolicyVersion) (context : WardenPolicyContext) :
    PolicyConfig :=
  (resolveWardenPolicy collation
    (activeVersions ++ [approvedBy candidate (simulatedApproval candidate)])
    context).policy

def FileEdit.toJson (edit : FileEdit) : Json :=
  .obj [("path", .str edit.path), ("original", .str edit.original),
    ("updated", .str edit.updated)]

def PolicyDecision.toJson (decision : PolicyDecision) : Json :=
  .obj [("allowPr", .bool decision.allowPr),
    ("allowAutoMerge", .bool decision.allowAutoMerge),
    ("blockedFiles", .arr (decision.blockedFiles.map .str)),
    ("allowedEdits", .arr (decision.allowedEdits.map FileEdit.toJson)),
    ("reasons", .arr (decision.reasons.map .str)),
    ("labels", .arr (decision.labels.map .str))]

mutual

/-- The value with the members of its objects in the order of the host. -/
def collated (collation : Collation) : Json → Json
  | .null => .null
  | .bool value => .bool value
  | .num value => .num value
  | .str value => .str value
  | .arr items => .arr (collatedItems collation items)
  | .obj fields =>
    .obj (collation.sortBy Prod.fst
      (OrderedMap.ofList (collatedFields collation fields)).entries)

def collatedItems (collation : Collation) : List Json → List Json
  | [] => []
  | first :: rest => collated collation first :: collatedItems collation rest

def collatedFields (collation : Collation) :
    List (String × Json) → List (String × Json)
  | [] => []
  | (key, first) :: rest =>
    (key, collated collation first) :: collatedFields collation rest

end

/-- `canonicalJson(value)`. -/
def canonicalJson (host : Host) (value : Json) : String :=
  String.ofList (Json.chars host.numerals (collated host.collation value))

def simulateCase (host : Host) (activeVersions : List WardenPolicyVersion)
    (candidate : WardenPolicyVersion)
    (testCase : WardenPolicySimulationCase) : SimulatedCase :=
  let beforePolicy :=
    (resolveWardenPolicy host.collation activeVersions testCase.context).policy
  let afterPolicy :=
    afterPolicy host.collation activeVersions candidate testCase.context
  let before := evaluatePolicy host testCase.draft testCase.findings
    (beforePolicy.spread {})
  let after := evaluatePolicy host testCase.draft testCase.findings
    (afterPolicy.spread {})
  { id := testCase.id
    before := before
    after := after
    changed :=
      canonicalJson host before.toJson != canonicalJson host after.toJson }

def simulateWardenPolicyChange (host : Host)
    (activeVersions : List WardenPolicyVersion)
    (candidate : WardenPolicyVersion)
    (cases : List WardenPolicySimulationCase) :
    WardenPolicySimulationResult where
  candidateVersionId := candidate.id
  candidateDigest := candidate.contentSha256
  cases := cases.map (simulateCase host activeVersions candidate)

end Mendpoint.EditPolicy
