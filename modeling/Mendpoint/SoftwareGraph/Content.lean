import Mendpoint.Library.JsonCodec
import Mendpoint.SoftwareGraph.Publication

/-!
# Texts of publications

The canonical text which a publication is kept as, its digest, and the
publication which is read back from it.
-/

namespace Mendpoint.SoftwareGraph

open Mendpoint.Library
open Mendpoint.Library.Written

/-! ## Enumerations -/

namespace EntityKind

theorem nodup_text : (all.map text).Nodup := by
  decide

theorem mem_all (kind : EntityKind) : kind ∈ all := by
  cases kind <;> decide

/-- The codec of the texts of `EntityKind`. -/
def codec : Codec EntityKind :=
  Codec.named text all nodup_text mem_all

end EntityKind

namespace RelationshipKind

theorem nodup_text : (all.map text).Nodup := by
  decide

theorem mem_all (kind : RelationshipKind) : kind ∈ all := by
  cases kind <;> decide

/-- The codec of the texts of `RelationshipKind`. -/
def codec : Codec RelationshipKind :=
  Codec.named text all nodup_text mem_all

end RelationshipKind

namespace GraphStatus

theorem nodup_text : (all.map text).Nodup := by
  decide

theorem mem_all (status : GraphStatus) : status ∈ all := by
  cases status <;> decide

/-- The codec of the texts of `GraphStatus`. -/
def codec : Codec GraphStatus :=
  Codec.named text all nodup_text mem_all

end GraphStatus

namespace Derivation

theorem nodup_text : (all.map text).Nodup := by
  decide

theorem mem_all (derivation : Derivation) : derivation ∈ all := by
  cases derivation <;> decide

/-- The codec of the texts of `Derivation`. -/
def codec : Codec Derivation :=
  Codec.named text all nodup_text mem_all

end Derivation

namespace ConfidenceBasis

theorem nodup_text : (all.map text).Nodup := by
  decide

theorem mem_all (basis : ConfidenceBasis) : basis ∈ all := by
  cases basis <;> decide

/-- The codec of the texts of `ConfidenceBasis`. -/
def codec : Codec ConfidenceBasis :=
  Codec.named text all nodup_text mem_all

end ConfidenceBasis

namespace EntityScope

theorem nodup_text : (all.map text).Nodup := by
  decide

theorem mem_all (scope : EntityScope) : scope ∈ all := by
  cases scope <;> decide

/-- The codec of the texts of `EntityScope`. -/
def codec : Codec EntityScope :=
  Codec.named text all nodup_text mem_all

end EntityScope

namespace Stage

theorem nodup_text : (all.map text).Nodup := by
  decide

theorem mem_all (stage : Stage) : stage ∈ all := by
  cases stage <;> decide

/-- The codec of the texts of `Stage`. -/
def codec : Codec Stage :=
  Codec.named text all nodup_text mem_all

end Stage

namespace CoverageBasis

theorem nodup_text : (all.map text).Nodup := by
  decide

theorem mem_all (basis : CoverageBasis) : basis ∈ all := by
  cases basis <;> decide

/-- The codec of the texts of `CoverageBasis`. -/
def codec : Codec CoverageBasis :=
  Codec.named text all nodup_text mem_all

end CoverageBasis

/-! ## Findings -/

def texts : Codec (List String) :=
  Codec.list Codec.text

namespace Extractor

def fields (extractor : Extractor) : List (String × Option Written) :=
  [("id", some (Codec.text.write extractor.id)),
    ("version", some (Codec.text.write extractor.version)),
    ("digest", some (Codec.text.write extractor.digest))]

theorem nodup_fields (extractor : Extractor) :
    (extractor.fields.map Prod.fst).Nodup := by
  rw [fields]
  simp

def read (value : Written) : Option Extractor := do
  let id ← required Codec.text value "id"
  let version ← required Codec.text value "version"
  let digest ← required Codec.text value "digest"
  return ⟨id, version, digest⟩

theorem read_write (arrangement : Arrangement) (extractor : Extractor) :
    read (arrangement.apply (record extractor.fields)) = some extractor := by
  have distinct := extractor.nodup_fields
  unfold read
  rw [required_record _ _ distinct extractor.id
      (by simp [fields]),
    required_record _ _ distinct extractor.version
      (by simp [fields]),
    required_record _ _ distinct extractor.digest
      (by simp [fields])]
  rfl

def codec : Codec Extractor where
  write extractor := record extractor.fields
  read := read
  read_write := read_write

end Extractor

namespace Finding

def fields (finding : Finding) : List (String × Option Written) :=
  [("evidenceRefs", some (texts.write finding.evidenceRefs)),
    ("extractor", some (Extractor.codec.write finding.extractor)),
    ("derivation", some (Derivation.codec.write finding.derivation)),
    ("confidenceBasis",
      some (ConfidenceBasis.codec.write finding.confidenceBasis)),
    ("status", some (GraphStatus.codec.write finding.status)),
    ("validFrom", some (Codec.text.write finding.validFrom)),
    ("validTo", finding.validTo.map Codec.text.write),
    ("conflictRefs", finding.conflictRefs.map texts.write)]

def read (value : Written) : Option Finding := do
  let evidenceRefs ← required texts value "evidenceRefs"
  let extractor ← required Extractor.codec value "extractor"
  let derivation ← required Derivation.codec value "derivation"
  let confidenceBasis ← required ConfidenceBasis.codec value "confidenceBasis"
  let status ← required GraphStatus.codec value "status"
  let validFrom ← required Codec.text value "validFrom"
  let validTo ← optional Codec.text value "validTo"
  let conflictRefs ← optional texts value "conflictRefs"
  return ⟨evidenceRefs, extractor, derivation, confidenceBasis, status,
    validFrom, validTo, conflictRefs⟩

theorem read_record (arrangement : Arrangement) (finding : Finding)
    {others : List (String × Option Written)}
    (distinct : ((others ++ finding.fields).map Prod.fst).Nodup) :
    read (arrangement.apply (record (others ++ finding.fields))) =
      some finding := by
  unfold read
  rw [required_record _ _ distinct finding.evidenceRefs
      (by simp [fields]),
    required_record _ _ distinct finding.extractor
      (by simp [fields]),
    required_record _ _ distinct finding.derivation
      (by simp [fields]),
    required_record _ _ distinct finding.confidenceBasis
      (by simp [fields]),
    required_record _ _ distinct finding.status
      (by simp [fields]),
    required_record _ _ distinct finding.validFrom
      (by simp [fields]),
    optional_record _ _ distinct finding.validTo
      (by simp [fields]),
    optional_record _ _ distinct finding.conflictRefs
      (by simp [fields])]
  rfl

end Finding

/-! ## Entities, relationships and stages -/

namespace Entity

def ownFields (entity : Entity) : List (String × Option Written) :=
  [("id", some (Codec.text.write entity.id)),
    ("kind", some (EntityKind.codec.write entity.kind)),
    ("canonicalKey", some (Codec.text.write entity.canonicalKey)),
    ("aliases", some (texts.write entity.aliases)),
    ("label", some (Codec.text.write entity.label)),
    ("scope", some (EntityScope.codec.write entity.scope))]

def fields (entity : Entity) : List (String × Option Written) :=
  entity.ownFields ++ entity.toFinding.fields

theorem nodup_fields (entity : Entity) :
    (entity.fields.map Prod.fst).Nodup := by
  rw [fields, ownFields, Finding.fields]
  simp

def read (value : Written) : Option Entity := do
  let id ← required Codec.text value "id"
  let kind ← required EntityKind.codec value "kind"
  let canonicalKey ← required Codec.text value "canonicalKey"
  let aliases ← required texts value "aliases"
  let label ← required Codec.text value "label"
  let scope ← required EntityScope.codec value "scope"
  let finding ← Finding.read value
  return ⟨finding, id, kind, canonicalKey, aliases, label, scope⟩

theorem read_write (arrangement : Arrangement) (entity : Entity) :
    read (arrangement.apply (record entity.fields)) = some entity := by
  have distinct := entity.nodup_fields
  have finding : Finding.read (arrangement.apply (record entity.fields)) =
      some entity.toFinding :=
    Finding.read_record arrangement entity.toFinding distinct
  unfold read
  rw [required_record _ _ distinct entity.id
      (by simp [fields, ownFields]),
    required_record _ _ distinct entity.kind
      (by simp [fields, ownFields]),
    required_record _ _ distinct entity.canonicalKey
      (by simp [fields, ownFields]),
    required_record _ _ distinct entity.aliases
      (by simp [fields, ownFields]),
    required_record _ _ distinct entity.label
      (by simp [fields, ownFields]),
    required_record _ _ distinct entity.scope
      (by simp [fields, ownFields]), finding]
  rfl

def codec : Codec Entity where
  write entity := record entity.fields
  read := read
  read_write := read_write

end Entity

namespace Relationship

def ownFields (relationship : Relationship) :
    List (String × Option Written) :=
  [("id", some (Codec.text.write relationship.id)),
    ("kind", some (RelationshipKind.codec.write relationship.kind)),
    ("sourceId", some (Codec.text.write relationship.sourceId)),
    ("targetId", some (Codec.text.write relationship.targetId))]

def fields (relationship : Relationship) : List (String × Option Written) :=
  relationship.ownFields ++ relationship.toFinding.fields

theorem nodup_fields (relationship : Relationship) :
    (relationship.fields.map Prod.fst).Nodup := by
  rw [fields, ownFields, Finding.fields]
  simp

def read (value : Written) : Option Relationship := do
  let id ← required Codec.text value "id"
  let kind ← required RelationshipKind.codec value "kind"
  let sourceId ← required Codec.text value "sourceId"
  let targetId ← required Codec.text value "targetId"
  let finding ← Finding.read value
  return ⟨finding, id, kind, sourceId, targetId⟩

theorem read_write (arrangement : Arrangement)
    (relationship : Relationship) :
    read (arrangement.apply (record relationship.fields)) =
      some relationship := by
  have distinct := relationship.nodup_fields
  have finding :
      Finding.read (arrangement.apply (record relationship.fields)) =
        some relationship.toFinding :=
    Finding.read_record arrangement relationship.toFinding distinct
  unfold read
  rw [required_record _ _ distinct relationship.id
      (by simp [fields, ownFields]),
    required_record _ _ distinct relationship.kind
      (by simp [fields, ownFields]),
    required_record _ _ distinct relationship.sourceId
      (by simp [fields, ownFields]),
    required_record _ _ distinct relationship.targetId
      (by simp [fields, ownFields]), finding]
  rfl

def codec : Codec Relationship where
  write relationship := record relationship.fields
  read := read
  read_write := read_write

end Relationship

namespace CoverageStage

def fields (stage : CoverageStage) : List (String × Option Written) :=
  [("stage", some (Stage.codec.write stage.stage)),
    ("basis", some (CoverageBasis.codec.write stage.basis)),
    ("analyzed", some (Codec.int.write stage.analyzed)),
    ("omitted", some (Codec.int.write stage.omitted)),
    ("reasons", stage.reasons.map texts.write),
    ("evidenceRefs", some (texts.write stage.evidenceRefs)),
    ("extractor", some (Extractor.codec.write stage.extractor))]

theorem nodup_fields (stage : CoverageStage) :
    (stage.fields.map Prod.fst).Nodup := by
  rw [fields]
  simp

def read (value : Written) : Option CoverageStage := do
  let stage ← required Stage.codec value "stage"
  let basis ← required CoverageBasis.codec value "basis"
  let analyzed ← required Codec.int value "analyzed"
  let omitted ← required Codec.int value "omitted"
  let reasons ← optional texts value "reasons"
  let evidenceRefs ← required texts value "evidenceRefs"
  let extractor ← required Extractor.codec value "extractor"
  return ⟨stage, basis, analyzed, omitted, reasons, evidenceRefs, extractor⟩

theorem read_write (arrangement : Arrangement) (stage : CoverageStage) :
    read (arrangement.apply (record stage.fields)) = some stage := by
  have distinct := stage.nodup_fields
  unfold read
  rw [required_record _ _ distinct stage.stage
      (by simp [fields]),
    required_record _ _ distinct stage.basis
      (by simp [fields]),
    required_record _ _ distinct stage.analyzed
      (by simp [fields]),
    required_record _ _ distinct stage.omitted
      (by simp [fields]),
    optional_record _ _ distinct stage.reasons
      (by simp [fields]),
    required_record _ _ distinct stage.evidenceRefs
      (by simp [fields]),
    required_record _ _ distinct stage.extractor
      (by simp [fields])]
  rfl

def codec : Codec CoverageStage where
  write stage := record stage.fields
  read := read
  read_write := read_write

end CoverageStage

/-! ## Publications -/

namespace Subject

def fields (subject : Subject) : List (String × Option Written) :=
  [("tenantId", some (Codec.text.write subject.tenantId)),
    ("repositoryId", some (Codec.text.write subject.repositoryId)),
    ("repositorySnapshotId",
      some (Codec.text.write subject.repositorySnapshotId)),
    ("repositoryRevision",
      some (Codec.text.write subject.repositoryRevision)),
    ("providerId", some (Codec.text.write subject.providerId)),
    ("providerSnapshotId",
      some (Codec.text.write subject.providerSnapshotId)),
    ("providerRevision", some (Codec.text.write subject.providerRevision)),
    ("observedAt", some (Codec.text.write subject.observedAt)),
    ("parentVersionId", subject.parentVersionId.map Codec.text.write)]

def read (value : Written) : Option Subject := do
  let tenantId ← required Codec.text value "tenantId"
  let repositoryId ← required Codec.text value "repositoryId"
  let repositorySnapshotId ←
    required Codec.text value "repositorySnapshotId"
  let repositoryRevision ← required Codec.text value "repositoryRevision"
  let providerId ← required Codec.text value "providerId"
  let providerSnapshotId ← required Codec.text value "providerSnapshotId"
  let providerRevision ← required Codec.text value "providerRevision"
  let observedAt ← required Codec.text value "observedAt"
  let parentVersionId ← optional Codec.text value "parentVersionId"
  return ⟨tenantId, repositoryId, repositorySnapshotId, repositoryRevision,
    providerId, providerSnapshotId, providerRevision, observedAt,
    parentVersionId⟩

theorem read_record (arrangement : Arrangement) (subject : Subject)
    {others : List (String × Option Written)}
    (distinct : ((others ++ subject.fields).map Prod.fst).Nodup) :
    read (arrangement.apply (record (others ++ subject.fields))) =
      some subject := by
  unfold read
  rw [required_record _ _ distinct subject.tenantId
      (by simp [fields]),
    required_record _ _ distinct subject.repositoryId
      (by simp [fields]),
    required_record _ _ distinct subject.repositorySnapshotId
      (by simp [fields]),
    required_record _ _ distinct subject.repositoryRevision
      (by simp [fields]),
    required_record _ _ distinct subject.providerId
      (by simp [fields]),
    required_record _ _ distinct subject.providerSnapshotId
      (by simp [fields]),
    required_record _ _ distinct subject.providerRevision
      (by simp [fields]),
    required_record _ _ distinct subject.observedAt
      (by simp [fields]),
    optional_record _ _ distinct subject.parentVersionId
      (by simp [fields])]
  rfl

end Subject

namespace Publication

/-- The schema version which every publication has. -/
def schemaVersion : String :=
  "mendpoint.software-graph.v1"

def ownFields (publication : Publication) :
    List (String × Option Written) :=
  [("schemaVersion", some (Codec.text.write schemaVersion)),
    ("entities",
      some ((Codec.list Entity.codec).write publication.entities)),
    ("relationships",
      some ((Codec.list Relationship.codec).write publication.relationships)),
    ("coverage",
      some ((Codec.list CoverageStage.codec).write publication.coverage))]

def fields (publication : Publication) : List (String × Option Written) :=
  publication.ownFields ++ publication.toSubject.fields

theorem nodup_fields (publication : Publication) :
    (publication.fields.map Prod.fst).Nodup := by
  rw [fields, ownFields, Subject.fields]
  simp

def read (value : Written) : Option Publication := do
  let version ← required Codec.text value "schemaVersion"
  guard (version = schemaVersion)
  let entities ← required (Codec.list Entity.codec) value "entities"
  let relationships ←
    required (Codec.list Relationship.codec) value "relationships"
  let coverage ← required (Codec.list CoverageStage.codec) value "coverage"
  let subject ← Subject.read value
  return ⟨subject, entities, relationships, coverage⟩

theorem read_write (arrangement : Arrangement) (publication : Publication) :
    read (arrangement.apply (record publication.fields)) =
      some publication := by
  have distinct := publication.nodup_fields
  have subject :
      Subject.read (arrangement.apply (record publication.fields)) =
        some publication.toSubject :=
    Subject.read_record arrangement publication.toSubject distinct
  unfold read
  rw [required_record _ _ distinct schemaVersion
      (by simp [fields, ownFields]),
    required_record _ _ distinct publication.entities
      (by simp [fields, ownFields]),
    required_record _ _ distinct publication.relationships
      (by simp [fields, ownFields]),
    required_record _ _ distinct publication.coverage
      (by simp [fields, ownFields]), subject]
  rfl

def codec : Codec Publication where
  write publication := record publication.fields
  read := read
  read_write := read_write

end Publication

/-- `canonicalJson`, of a publication. -/
def contentJson (publication : Publication) : String :=
  canonical (Publication.codec.write publication)

/-- `JSON.parse`, of the text of a publication. -/
def parsePublication (json : String) : Option Publication :=
  (parse? json).bind Publication.codec.read

theorem parsePublication_contentJson (publication : Publication) :
    parsePublication (contentJson publication) = some publication := by
  rw [parsePublication, contentJson, canonical, parse?_stringify,
    Option.bind_some]
  exact Publication.codec.read_write .inOrder publication

theorem contentJson_injective : Function.Injective contentJson := by
  intro publication other same
  have parsed := parsePublication_contentJson publication
  rw [same, parsePublication_contentJson, Option.some_inj] at parsed
  exact parsed.symm

end Mendpoint.SoftwareGraph
