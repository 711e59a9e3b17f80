import Mendpoint.Library.JsonEncoding
import Mendpoint.Library.OrderedMap
import Mendpoint.Library.TextOrder

/-!
# Evidence packs

What a verification is given: the criteria, the sources, the checks and the
candidates, under a digest of their canonical text.  A candidate is eligible
when no check, path or hard criterion speaks against it.
-/

namespace Mendpoint.Verifier

open Mendpoint.Library

/-! ## Enumerations -/

inductive VerifierProduct where
  | fettler
  | regauge
  deriving DecidableEq

def VerifierProduct.text : VerifierProduct → String
  | fettler => "fettler"
  | regauge => "regauge"

inductive VerifierRisk where
  | low
  | medium
  | high
  | critical
  deriving DecidableEq

def VerifierRisk.text : VerifierRisk → String
  | low => "low"
  | medium => "medium"
  | high => "high"
  | critical => "critical"

inductive VerifierDataClassification where
  | isPublic
  | isInternal
  | confidential
  | restricted
  deriving DecidableEq

def VerifierDataClassification.text : VerifierDataClassification → String
  | isPublic => "public"
  | isInternal => "internal"
  | confidential => "confidential"
  | restricted => "restricted"

inductive VerifierSourceKind where
  | repositoryExcerpt
  | graph
  | retrieval
  | verification
  | owner
  | human
  deriving DecidableEq

def VerifierSourceKind.text : VerifierSourceKind → String
  | repositoryExcerpt => "repository_excerpt"
  | graph => "graph"
  | retrieval => "retrieval"
  | verification => "verification"
  | owner => "owner"
  | human => "human"

inductive VerifierStatus where
  | passed
  | failed
  | incomplete
  deriving DecidableEq

def VerifierStatus.text : VerifierStatus → String
  | passed => "passed"
  | failed => "failed"
  | incomplete => "incomplete"

inductive VerifierCandidateKind where
  | plan
  | patch
  | completion
  deriving DecidableEq

def VerifierCandidateKind.text : VerifierCandidateKind → String
  | plan => "plan"
  | patch => "patch"
  | completion => "completion"

/-! ## Parts of a pack -/

structure VerifierCriterion where
  id : String
  title : String
  description : String
  hard : Bool
  weight : ℚ

structure VerifierSource where
  id : String
  kind : VerifierSourceKind
  digest : String
  locator : String
  content : String
  contentDigest : String

structure VerifierDeterministicCheck where
  id : String
  status : VerifierStatus
  evidenceRefs : List String
  candidateIds : Option (List String)

structure VerifierHardCriterionResult where
  criterionId : String
  status : VerifierStatus
  evidenceRefs : List String
  deriving DecidableEq

structure VerifierCandidate where
  candidateId : String
  artifactDigest : String
  kind : VerifierCandidateKind
  observableOutput : String
  changedPaths : List String
  evidenceRefs : List String
  deterministicCheckIds : List String
  hardCriterionResults : List VerifierHardCriterionResult
  deriving DecidableEq

structure VerifierGovernance where
  dataClassification : VerifierDataClassification
  requiredRegion : String
  processingRegion : String
  externalModelAllowed : Bool
  mayLeaveTenantBoundary : Bool
  consentId : String
  consentActive : Bool

/-- What a pack holds besides its digest. -/
structure VerifierEvidence where
  tenantId : String
  missionId : String
  taskId : String
  product : VerifierProduct
  repositoryId : String
  snapshotDigest : String
  objective : String
  risk : VerifierRisk
  governance : VerifierGovernance
  allowedChangedPaths : List String
  criteria : List VerifierCriterion
  sources : List VerifierSource
  checks : List VerifierDeterministicCheck
  candidates : List VerifierCandidate
  assembledAt : String
  assemblerVersion : String

/-! ## Canonical JSON -/

def VerifierProduct.encoding : Encoding VerifierProduct :=
  .named text [fettler, regauge] (by decide) (by rintro ⟨⟩ <;> decide)

def VerifierRisk.encoding : Encoding VerifierRisk :=
  .named text [low, medium, high, critical] (by decide)
    (by rintro ⟨⟩ <;> decide)

def VerifierDataClassification.encoding :
    Encoding VerifierDataClassification :=
  .named text [isPublic, isInternal, confidential, restricted] (by decide)
    (by rintro ⟨⟩ <;> decide)

def VerifierSourceKind.encoding : Encoding VerifierSourceKind :=
  .named text [repositoryExcerpt, graph, retrieval, verification, owner, human]
    (by decide) (by rintro ⟨⟩ <;> decide)

def VerifierStatus.encoding : Encoding VerifierStatus :=
  .named text [passed, failed, incomplete] (by decide)
    (by rintro ⟨⟩ <;> decide)

def VerifierCandidateKind.encoding : Encoding VerifierCandidateKind :=
  .named text [plan, patch, completion] (by decide)
    (by rintro ⟨⟩ <;> decide)

/-- The encoding of a list of texts. -/
def texts : Encoding (List String) :=
  .list .text

/-- The encoding of a list of texts or null. -/
def textsOrNull : Encoding (Option (List String)) :=
  texts.nullable (by intro value impossible; cases impossible)

def VerifierCriterion.encoding : Encoding VerifierCriterion :=
  .record ["id", "title", "description", "hard", "weight"]
    [fun value => .str value.id, fun value => .str value.title,
      fun value => .str value.description, fun value => .bool value.hard,
      fun value => .num value.weight]
    (by decide) rfl (by
      rintro ⟨⟩ ⟨⟩ same
      simp only [List.map_cons, List.cons.injEq, Json.sorted, Json.str.injEq,
        Json.bool.injEq, Json.num.injEq] at same
      simp only [same])

def VerifierSource.encoding : Encoding VerifierSource :=
  .record ["id", "kind", "digest", "locator", "content", "contentDigest"]
    [fun value => .str value.id,
      fun value => VerifierSourceKind.encoding.write value.kind,
      fun value => .str value.digest, fun value => .str value.locator,
      fun value => .str value.content, fun value => .str value.contentDigest]
    (by decide) rfl (by
      rintro ⟨⟩ ⟨⟩ same
      simp only [List.map_cons, List.cons.injEq, Json.sorted, Json.str.injEq,
        VerifierSourceKind.encoding.injective.eq_iff] at same
      simp only [same])

def VerifierDeterministicCheck.encoding :
    Encoding VerifierDeterministicCheck :=
  .record ["id", "status", "evidenceRefs", "candidateIds"]
    [fun value => .str value.id,
      fun value => VerifierStatus.encoding.write value.status,
      fun value => texts.write value.evidenceRefs,
      fun value => textsOrNull.write value.candidateIds]
    (by decide) rfl (by
      rintro ⟨⟩ ⟨⟩ same
      simp only [List.map_cons, List.cons.injEq, Json.sorted, Json.str.injEq,
        VerifierStatus.encoding.injective.eq_iff, texts.injective.eq_iff,
        textsOrNull.injective.eq_iff] at same
      simp only [same])

def VerifierHardCriterionResult.encoding :
    Encoding VerifierHardCriterionResult :=
  .record ["criterionId", "status", "evidenceRefs"]
    [fun value => .str value.criterionId,
      fun value => VerifierStatus.encoding.write value.status,
      fun value => texts.write value.evidenceRefs]
    (by decide) rfl (by
      rintro ⟨⟩ ⟨⟩ same
      simp only [List.map_cons, List.cons.injEq, Json.sorted, Json.str.injEq,
        VerifierStatus.encoding.injective.eq_iff, texts.injective.eq_iff]
        at same
      simp only [same])

/-- The encoding of the results of a candidate. -/
def results : Encoding (List VerifierHardCriterionResult) :=
  .list VerifierHardCriterionResult.encoding

def VerifierCandidate.encoding : Encoding VerifierCandidate :=
  .record ["candidateId", "artifactDigest", "kind", "observableOutput",
      "changedPaths", "evidenceRefs", "deterministicCheckIds",
      "hardCriterionResults"]
    [fun value => .str value.candidateId,
      fun value => .str value.artifactDigest,
      fun value => VerifierCandidateKind.encoding.write value.kind,
      fun value => .str value.observableOutput,
      fun value => texts.write value.changedPaths,
      fun value => texts.write value.evidenceRefs,
      fun value => texts.write value.deterministicCheckIds,
      fun value => results.write value.hardCriterionResults]
    (by decide) rfl (by
      rintro ⟨⟩ ⟨⟩ same
      simp only [List.map_cons, List.cons.injEq, Json.sorted, Json.str.injEq,
        VerifierCandidateKind.encoding.injective.eq_iff,
        texts.injective.eq_iff, results.injective.eq_iff] at same
      simp only [same])

def VerifierGovernance.encoding : Encoding VerifierGovernance :=
  .record ["dataClassification", "requiredRegion", "processingRegion",
      "externalModelAllowed", "mayLeaveTenantBoundary", "consentId",
      "consentActive"]
    [fun value =>
        VerifierDataClassification.encoding.write value.dataClassification,
      fun value => .str value.requiredRegion,
      fun value => .str value.processingRegion,
      fun value => .bool value.externalModelAllowed,
      fun value => .bool value.mayLeaveTenantBoundary,
      fun value => .str value.consentId,
      fun value => .bool value.consentActive]
    (by decide) rfl (by
      rintro ⟨⟩ ⟨⟩ same
      simp only [List.map_cons, List.cons.injEq, Json.sorted, Json.str.injEq,
        Json.bool.injEq,
        VerifierDataClassification.encoding.injective.eq_iff] at same
      simp only [same])

def criteriaEncoding : Encoding (List VerifierCriterion) :=
  .list VerifierCriterion.encoding

def sourcesEncoding : Encoding (List VerifierSource) :=
  .list VerifierSource.encoding

def checksEncoding : Encoding (List VerifierDeterministicCheck) :=
  .list VerifierDeterministicCheck.encoding

def candidatesEncoding : Encoding (List VerifierCandidate) :=
  .list VerifierCandidate.encoding

def VerifierEvidence.encoding : Encoding VerifierEvidence :=
  .record ["schemaVersion", "tenantId", "missionId", "taskId", "product",
      "repositoryId", "snapshotDigest", "objective", "risk", "governance",
      "allowedChangedPaths", "criteria", "sources", "checks", "candidates",
      "assembledAt", "assemblerVersion"]
    [fun _ => .str "2026-08-17.v1", fun value => .str value.tenantId,
      fun value => .str value.missionId, fun value => .str value.taskId,
      fun value => VerifierProduct.encoding.write value.product,
      fun value => .str value.repositoryId,
      fun value => .str value.snapshotDigest,
      fun value => .str value.objective,
      fun value => VerifierRisk.encoding.write value.risk,
      fun value => VerifierGovernance.encoding.write value.governance,
      fun value => texts.write value.allowedChangedPaths,
      fun value => criteriaEncoding.write value.criteria,
      fun value => sourcesEncoding.write value.sources,
      fun value => checksEncoding.write value.checks,
      fun value => candidatesEncoding.write value.candidates,
      fun value => .str value.assembledAt,
      fun value => .str value.assemblerVersion]
    (by decide) rfl (by
      rintro ⟨⟩ ⟨⟩ same
      simp only [List.map_cons, List.cons.injEq, Json.sorted, Json.str.injEq,
        VerifierProduct.encoding.injective.eq_iff,
        VerifierRisk.encoding.injective.eq_iff,
        VerifierGovernance.encoding.injective.eq_iff,
        texts.injective.eq_iff, criteriaEncoding.injective.eq_iff,
        sourcesEncoding.injective.eq_iff, checksEncoding.injective.eq_iff,
        candidatesEncoding.injective.eq_iff] at same
      simp only [same])

/-! ## Packs -/

/-- The canonical texts and their digests. -/
structure Digests where
  numerals : Numerals
  sha256 : String → String

/-- The digest of the canonical text of a value. -/
def Digests.of (digests : Digests) (value : Json) : String :=
  digests.sha256 (value.canonical digests.numerals)

/-- A pack as it is created, with the digest of all that it holds. -/
structure VerifierEvidencePack (digests : Digests) extends VerifierEvidence where
  packDigest : String
  digested : packDigest =
    digests.of (VerifierEvidence.encoding.write toVerifierEvidence)
  distinctCandidates : (candidates.map VerifierCandidate.candidateId).Nodup

/-! ## Eligible candidates -/

/-- `reasons.add(...)` for the status of a check or a criterion. -/
def statusReasons (failed incomplete : String) :
    Option VerifierStatus → List String
  | some .passed => []
  | some .failed => [failed]
  | some .incomplete => [incomplete]
  | none => [incomplete]

/-- What speaks against a candidate. -/
def rejectionReasons (pack : VerifierEvidence)
    (candidate : VerifierCandidate) : List String :=
  let checked := statusReasons "deterministic_check_failed"
    "deterministic_check_incomplete"
  (pack.checks.flatMap (fun check =>
      if ∃ ids ∈ check.candidateIds, candidate.candidateId ∉ ids then []
      else checked (some check.status)) ++
    (if candidate.changedPaths.any
        (fun path => decide (path ∉ pack.allowedChangedPaths)) then
      ["changed_path_outside_scope"] else []) ++
    candidate.deterministicCheckIds.flatMap (fun checkId =>
      checked ((pack.checks.reverse.find? fun check =>
        decide (check.id = checkId)).map VerifierDeterministicCheck.status)) ++
    (pack.criteria.filter VerifierCriterion.hard).flatMap (fun criterion =>
      statusReasons "hard_criterion_failed" "hard_criterion_incomplete"
        ((candidate.hardCriterionResults.reverse.find? fun result =>
          decide (result.criterionId = criterion.id)).map
            VerifierHardCriterionResult.status))).dedup

structure DeterministicFilterResult where
  eligible : List VerifierCandidate
  rejected : List (String × List String)

def filterDeterministicCandidates (pack : VerifierEvidence) :
    DeterministicFilterResult where
  eligible := pack.candidates.filter fun candidate =>
    decide (rejectionReasons pack candidate = [])
  rejected := (pack.candidates.filter fun candidate =>
    decide (rejectionReasons pack candidate ≠ [])).map fun candidate =>
      (candidate.candidateId,
        Text.sortTexts (rejectionReasons pack candidate))

end Mendpoint.Verifier
