import Mathlib.Data.List.Dedup
import Mendpoint.Library.Fallible
import Mendpoint.Library.IsoTime
import Mendpoint.Library.TextOrder
import Mendpoint.Library.Numbers

/-!
# Publications of software graphs

The entities and relationships which extractors found in a repository, what is
checked of them before they are published, and the order which they are put
into.  The values have the declared types, so that the checks of shapes, kinds
and statuses hold of them.
-/

namespace Mendpoint.SoftwareGraph

open Mendpoint.Library
open Mendpoint.Library.Fallible

/-! ## Enumerations -/

inductive EntityKind where
  | endpoint
  | providerSdkMethod
  | internalSdkMethod
  | function
  | test
  deriving DecidableEq

inductive RelationshipKind where
  | usesEndpoint
  | usesSdkMethod
  | wraps
  | calls
  | tests
  deriving DecidableEq

inductive GraphStatus where
  | active
  | stale
  | superseded
  deriving DecidableEq

inductive Derivation where
  | providerSpec
  | providerSdkBinding
  | repositoryUsage
  | callGraph
  deriving DecidableEq

inductive ConfidenceBasis where
  | deterministicExact
  | staticAnalysisHigh
  | staticAnalysisMedium
  | staticAnalysisLow
  deriving DecidableEq

inductive EntityScope where
  | provider
  | repository
  deriving DecidableEq

inductive Stage where
  | repositoryDiscovery
  | languageParsing
  | providerSpecification
  | sdkResolution
  | callResolution
  | testResolution
  deriving DecidableEq

inductive CoverageBasis where
  | complete
  | partly
  | notAnalyzed
  deriving DecidableEq

namespace EntityKind

def text : EntityKind → String
  | endpoint => "endpoint"
  | providerSdkMethod => "provider_sdk_method"
  | internalSdkMethod => "internal_sdk_method"
  | function => "function"
  | test => "test"

def all : List EntityKind :=
  [endpoint, providerSdkMethod, internalSdkMethod, function, test]

/-- The scope which an entity of the kind has to have. -/
def expectedScope : EntityKind → EntityScope
  | endpoint => .provider
  | providerSdkMethod => .provider
  | internalSdkMethod => .repository
  | function => .repository
  | test => .repository

end EntityKind

namespace RelationshipKind

def text : RelationshipKind → String
  | usesEndpoint => "uses_endpoint"
  | usesSdkMethod => "uses_sdk_method"
  | wraps => "wraps"
  | calls => "calls"
  | tests => "tests"

/-- `RELATIONSHIP_KINDS` -/
def all : List RelationshipKind :=
  [usesEndpoint, usesSdkMethod, wraps, calls, tests]

/-- `semanticPairIsValid` -/
def joins : RelationshipKind → EntityKind → EntityKind → Bool
  | usesEndpoint, .providerSdkMethod, .endpoint => true
  | usesSdkMethod, .internalSdkMethod, .providerSdkMethod => true
  | wraps, .function, .function => true
  | wraps, .function, .internalSdkMethod => true
  | calls, .function, .function => true
  | calls, .function, .internalSdkMethod => true
  | calls, .function, .test => true
  | calls, .test, .function => true
  | calls, .test, .internalSdkMethod => true
  | calls, .test, .test => true
  | tests, .test, .function => true
  | tests, .test, .internalSdkMethod => true
  | _, _, _ => false

end RelationshipKind

namespace GraphStatus

def text : GraphStatus → String
  | active => "active"
  | stale => "stale"
  | superseded => "superseded"

def all : List GraphStatus :=
  [active, stale, superseded]

end GraphStatus

namespace Derivation

def text : Derivation → String
  | providerSpec => "provider_spec"
  | providerSdkBinding => "provider_sdk_binding"
  | repositoryUsage => "repository_usage"
  | callGraph => "call_graph"

def all : List Derivation :=
  [providerSpec, providerSdkBinding, repositoryUsage, callGraph]

end Derivation

namespace ConfidenceBasis

def text : ConfidenceBasis → String
  | deterministicExact => "deterministic_exact"
  | staticAnalysisHigh => "static_analysis_high"
  | staticAnalysisMedium => "static_analysis_medium"
  | staticAnalysisLow => "static_analysis_low"

def all : List ConfidenceBasis :=
  [deterministicExact, staticAnalysisHigh, staticAnalysisMedium,
    staticAnalysisLow]

end ConfidenceBasis

namespace EntityScope

def text : EntityScope → String
  | provider => "provider"
  | repository => "repository"

def all : List EntityScope :=
  [provider, repository]

end EntityScope

namespace Stage

def text : Stage → String
  | repositoryDiscovery => "repository_discovery"
  | languageParsing => "language_parsing"
  | providerSpecification => "provider_specification"
  | sdkResolution => "sdk_resolution"
  | callResolution => "call_resolution"
  | testResolution => "test_resolution"

/-- `COVERAGE_STAGES` -/
def all : List Stage :=
  [repositoryDiscovery, languageParsing, providerSpecification,
    sdkResolution, callResolution, testResolution]

end Stage

namespace CoverageBasis

def text : CoverageBasis → String
  | complete => "complete"
  | partly => "partial"
  | notAnalyzed => "not_analyzed"

def all : List CoverageBasis :=
  [complete, partly, notAnalyzed]

end CoverageBasis

/-! ## Publications -/

structure Extractor where
  id : String
  version : String
  digest : String
  deriving DecidableEq

/-- What an entity and a relationship tell about how they were found. -/
structure Finding where
  evidenceRefs : List String
  extractor : Extractor
  derivation : Derivation
  confidenceBasis : ConfidenceBasis
  status : GraphStatus
  validFrom : String
  validTo : Option String
  conflictRefs : Option (List String)
  deriving DecidableEq

structure Entity extends Finding where
  id : String
  kind : EntityKind
  canonicalKey : String
  aliases : List String
  label : String
  scope : EntityScope
  deriving DecidableEq

structure Relationship extends Finding where
  id : String
  kind : RelationshipKind
  sourceId : String
  targetId : String
  deriving DecidableEq

/-- A stage of coverage; counts which are not whole are refused as unsafe. -/
structure CoverageStage where
  stage : Stage
  basis : CoverageBasis
  analyzed : Int
  omitted : Int
  reasons : Option (List String)
  evidenceRefs : List String
  extractor : Extractor
  deriving DecidableEq

/-- What a publication is of. -/
structure Subject where
  tenantId : String
  repositoryId : String
  repositorySnapshotId : String
  repositoryRevision : String
  providerId : String
  providerSnapshotId : String
  providerRevision : String
  observedAt : String
  parentVersionId : Option String
  deriving DecidableEq

/-- A publication; its schema version is a constant. -/
structure Publication extends Subject where
  entities : List Entity
  relationships : List Relationship
  coverage : List CoverageStage
  deriving DecidableEq

/-! ## Checks of fields -/

/-- `/^[A-Za-z0-9][A-Za-z0-9._:@/ -]{0,511}$/` -/
def isId (text : String) : Bool :=
  Pattern.isName ['.', '_', ':', '@', '/', ' ', '-'] 511 text

/-- Forty or sixty-four hexadecimal digits. -/
def isRevision (text : String) : Bool :=
  Pattern.isHexText 40 text.toList || Pattern.isHexText 64 text.toList

/-- A text of so many code units at most, without control characters. -/
def isBounded (most : Nat) (text : String) : Bool :=
  decide (1 ≤ (Text.codeUnits text).length) &&
    decide ((Text.codeUnits text).length ≤ most) &&
    text.toList.all fun char => decide (0x1f < char.toNat)

def boundedString (value code : String) (most : Nat) : Except String Unit :=
  throwIf (isBounded most value = false) code

def exactUtc (value code : String) : Except String Unit :=
  throwIf (IsoTime.Instant.parse? value = none) code

def validateEvidence (refs : List String) (code : String) :
    Except String Unit := do
  throwIf (refs.length < 1 ∨ 32 < refs.length) code
  eachOnce id code (fun ref => boundedString ref code 1024)
    (fun _ => .ok ()) [] refs

/-- A list which may be missing. -/
def validateOptional (refs : Option (List String)) (code : String) :
    Except String Unit :=
  match refs with
  | none => .ok ()
  | some refs => validateEvidence refs code

def checkExtractor (extractor : Extractor) (code digestCode : String) :
    Except String Unit := do
  boundedString extractor.id code 512
  boundedString extractor.version code 512
  throwIf (Pattern.isDigest extractor.digest = false) digestCode

/-- The times of validity; an empty end is taken for a missing one. -/
def checkValidity (observedAt validFrom : String) (validTo : Option String)
    (code : String) : Except String Unit := do
  throwIf (validFrom = "") code
  exactUtc validFrom code
  throwIf (Text.codeUnitLe validFrom observedAt = false) code
  match validTo with
  | none => .ok ()
  | some validTo =>
    if validTo = "" then .ok ()
    else do
      exactUtc validTo code
      throwIf (Text.codeUnitLe validTo validFrom = true) code

/-! ## Loops -/

/-- A loop whose checks see the items before, the latest first. -/
def eachAfter {α : Type} (check : List α → α → Except String Unit) :
    List α → List α → Except String Unit
  | _, [] => .ok ()
  | seen, item :: rest => do
      check seen item
      eachAfter check (item :: seen) rest

/-! ## Entities -/

def checkEntity (observedAt : String) (seen : List Entity) (entity : Entity) :
    Except String Unit := do
  throwIf (isId entity.id = false) "software_graph_entity_id_invalid"
  throwIf (entity.id ∈ seen.map Entity.id)
    "software_graph_entity_id_duplicate"
  boundedString entity.canonicalKey "software_graph_entity_key_invalid" 1024
  throwIf (entity.canonicalKey ∈ seen.map Entity.canonicalKey)
    "software_graph_entity_key_collision"
  boundedString entity.label "software_graph_entity_label_invalid" 1024
  throwIf (entity.scope ≠ entity.kind.expectedScope)
    "software_graph_entity_scope_invalid"
  throwIf (32 < entity.aliases.length) "software_graph_entity_aliases_invalid"
  entity.aliases.forM fun «alias» =>
    boundedString «alias» "software_graph_entity_alias_invalid" 1024
  validateEvidence entity.evidenceRefs
    "software_graph_entity_evidence_invalid"
  checkExtractor entity.extractor "software_graph_entity_extractor_invalid"
    "software_graph_entity_extractor_invalid"
  checkValidity observedAt entity.validFrom entity.validTo
    "software_graph_entity_validity_invalid"
  validateOptional entity.conflictRefs
    "software_graph_entity_conflicts_invalid"

/-- The lists of a finding, each text once and in order. -/
def normalFinding (finding : Finding) : Finding :=
  { finding with
    evidenceRefs := Text.sortTexts finding.evidenceRefs
    conflictRefs := finding.conflictRefs.map fun refs =>
      Text.sortTexts refs.dedup }

def normalEntity (entity : Entity) : Entity :=
  { entity with
    toFinding := normalFinding entity.toFinding
    aliases := Text.sortTexts entity.aliases.dedup }

/-! ## Relationships -/

def entityKind? (entities : List Entity) (id : String) : Option EntityKind :=
  (entities.find? fun entity => decide (entity.id = id)).map Entity.kind

/-- The ends of a relationship are there, and of kinds which it joins. -/
def checkPair (entities : List Entity) (relationship : Relationship) :
    Except String Unit :=
  match entityKind? entities relationship.sourceId,
      entityKind? entities relationship.targetId with
  | none, _ => .error "software_graph_relationship_source_missing"
  | some _, none => .error "software_graph_relationship_target_missing"
  | some sourceKind, some targetKind =>
    throwIf (relationship.kind.joins sourceKind targetKind = false)
      "software_graph_relationship_semantics_invalid"

def checkRelationship (observedAt : String) (entities : List Entity)
    (seen : List Relationship) (relationship : Relationship) :
    Except String Unit := do
  throwIf (isId relationship.id = false)
    "software_graph_relationship_id_invalid"
  throwIf (relationship.id ∈ seen.map Relationship.id)
    "software_graph_relationship_id_duplicate"
  checkPair entities relationship
  validateEvidence relationship.evidenceRefs
    "software_graph_relationship_evidence_invalid"
  checkExtractor relationship.extractor "software_graph_extractor_invalid"
    "software_graph_extractor_digest_invalid"
  checkValidity observedAt relationship.validFrom relationship.validTo
    "software_graph_relationship_validity_invalid"
  validateOptional relationship.conflictRefs
    "software_graph_relationship_conflicts_invalid"

def normalRelationship (relationship : Relationship) : Relationship :=
  { relationship with toFinding := normalFinding relationship.toFinding }

/-! ## Coverage -/

/-- What the basis of a stage says of its counts and reasons. -/
def coverageSemantics (stage : CoverageStage) : Bool :=
  match stage.basis with
  | .complete => decide (stage.omitted = 0 ∧ stage.reasons = none)
  | .partly =>
    decide (1 ≤ stage.omitted ∧ (stage.reasons.getD []).length ≠ 0)
  | .notAnalyzed =>
    decide (stage.analyzed = 0 ∧ (stage.reasons.getD []).length ≠ 0)

def checkCoverageStage (seen : List CoverageStage) (stage : CoverageStage) :
    Except String Unit := do
  throwIf (stage.stage ∈ seen.map CoverageStage.stage)
    "software_graph_coverage_stage_duplicate"
  throwIf (¬ SafeInteger.Safe stage.analyzed ∨ stage.analyzed < 0 ∨
      ¬ SafeInteger.Safe stage.omitted ∨ stage.omitted < 0)
    "software_graph_coverage_counts_invalid"
  validateOptional stage.reasons "software_graph_coverage_reasons_invalid"
  checkExtractor stage.extractor "software_graph_coverage_extractor_invalid"
    "software_graph_coverage_extractor_invalid"
  throwIf (coverageSemantics stage = false)
    "software_graph_coverage_semantics_invalid"
  validateEvidence stage.evidenceRefs
    "software_graph_coverage_evidence_invalid"

def normalCoverageStage (stage : CoverageStage) : CoverageStage :=
  { stage with
    reasons := stage.reasons.map fun reasons => Text.sortTexts reasons.dedup
    evidenceRefs := Text.sortTexts stage.evidenceRefs }

/-! ## Publications -/

def checkSubject (input : Subject) : Except String Unit := do
  boundedString input.tenantId "software_graph_tenant_invalid" 512
  boundedString input.repositoryId "software_graph_repository_invalid" 512
  boundedString input.repositorySnapshotId
    "software_graph_repository_snapshot_invalid" 512
  boundedString input.providerId "software_graph_provider_invalid" 512
  boundedString input.providerSnapshotId
    "software_graph_provider_snapshot_invalid" 512
  boundedString input.providerRevision
    "software_graph_provider_revision_invalid" 512
  throwIf (isRevision input.repositoryRevision = false)
    "software_graph_repository_revision_invalid"
  exactUtc input.observedAt "software_graph_observed_at_invalid"
  match input.parentVersionId with
  | none => .ok ()
  | some parent => boundedString parent "software_graph_parent_invalid" 512

/-- The publication with its lists in order. -/
def normal (input : Publication) : Publication :=
  { input with
    entities := Text.sortBy Entity.id (input.entities.map normalEntity)
    relationships := Text.sortBy Relationship.id
      (input.relationships.map normalRelationship)
    coverage := Text.sortBy (fun stage => stage.stage.text)
      (input.coverage.map normalCoverageStage) }

def checkPublication (input : Publication) : Except String Unit := do
  checkSubject input.toSubject
  throwIf (input.entities.length < 1 ∨ 10000 < input.entities.length)
    "software_graph_entities_invalid"
  throwIf (50000 < input.relationships.length)
    "software_graph_relationships_invalid"
  throwIf (input.coverage.length < 1 ∨ 16 < input.coverage.length)
    "software_graph_coverage_invalid"
  eachAfter (checkEntity input.observedAt) [] input.entities
  eachAfter (checkRelationship input.observedAt (normal input).entities) []
    input.relationships
  eachAfter checkCoverageStage [] input.coverage
  throwIf (input.coverage.length ≠ Stage.all.length)
    "software_graph_coverage_incomplete"

def normalizedPublication (input : Publication) :
    Except String Publication := do
  checkPublication input
  return normal input

end Mendpoint.SoftwareGraph
