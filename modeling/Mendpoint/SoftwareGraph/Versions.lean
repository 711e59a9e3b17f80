import Mendpoint.Library.OrderedMap
import Mendpoint.Library.Run
import Mendpoint.SoftwareGraph.Content

/-!
# Versions of software graphs

Publishing a software graph as a version, which the head of its scope moves
to, and reading a version back.
-/

namespace Mendpoint.SoftwareGraph

open Mendpoint.Library
open Mendpoint.Library.Fallible

/-! ## The tables -/

/-- A row of `gl_software_versions_v1`. -/
structure VersionRow where
  versionId : String
  tenantId : String
  repositoryId : String
  repositorySnapshotId : String
  repositoryRevision : String
  parentVersionId : Option String
  contentDigest : String
  contentJson : String
  observedAt : String

/-- The primary key of `gl_software_heads_v1`. -/
structure HeadKey where
  tenantId : String
  repositoryId : String
  providerId : String
  deriving DecidableEq

/-- The other columns of `gl_software_heads_v1`. -/
structure HeadRow where
  versionId : String
  contentDigest : String
  updatedAt : String

structure GraphDb where
  versions : List VersionRow
  heads : OrderedMap HeadKey HeadRow

namespace GraphDb

def empty : GraphDb where
  versions := []
  heads := OrderedMap.empty

/-- The version of an id, in a tenant and a repository. -/
def version? (db : GraphDb) (versionId tenantId repositoryId : String) :
    Option VersionRow :=
  db.versions.find? fun row => decide
    (row.versionId = versionId ∧ row.tenantId = tenantId ∧
      row.repositoryId = repositoryId)

end GraphDb

/-- The head which a publication is about. -/
def Subject.headKey (subject : Subject) : HeadKey where
  tenantId := subject.tenantId
  repositoryId := subject.repositoryId
  providerId := subject.providerId

/-- What `publishSoftwareGraphVersion` returns. -/
structure Published where
  versionId : String
  contentDigest : String
  replayed : Bool

/-! ## Names of versions -/

section Calls

variable (hexDigest : String → String)

/-- The digest of a text, from the hexadecimal SHA-256 of it. -/
def sha256 (text : String) : String :=
  "sha256:" ++ hexDigest text

/-- The id of the version of a content, without the prefix of its digest. -/
def versionIdOf (contentDigest : String) : String :=
  "sgv1:" ++ String.ofList (contentDigest.toList.drop 7)

def digestOf (publication : Publication) : String :=
  sha256 hexDigest (contentJson publication)

/-- The row which a normalized publication is kept in. -/
def rowOf (publication : Publication) : VersionRow where
  versionId := versionIdOf (digestOf hexDigest publication)
  tenantId := publication.tenantId
  repositoryId := publication.repositoryId
  repositorySnapshotId := publication.repositorySnapshotId
  repositoryRevision := publication.repositoryRevision
  parentVersionId := publication.parentVersionId
  contentDigest := digestOf hexDigest publication
  contentJson := contentJson publication
  observedAt := publication.observedAt

/-- The head which moves to a normalized publication. -/
def headOf (publication : Publication) : HeadRow where
  versionId := versionIdOf (digestOf hexDigest publication)
  contentDigest := digestOf hexDigest publication
  updatedAt := publication.observedAt

/-! ## Publishing -/

/-- `JSON.parse`; what publishing writes is always read as a publication. -/
def parsed (json : String) : Except String Publication :=
  match parsePublication json with
  | none => .error "software_graph_publication_shape_invalid"
  | some publication => .ok publication

/-- `withoutParent` -/
def withoutParent (publication : Publication) : String :=
  contentJson { publication with parentVersionId := none }

/-- The publication which a head is at, if its row is as it was written. -/
def headPublication (db : GraphDb) (head : HeadRow)
    (normalized : Publication) : Except String Publication :=
  match db.version? head.versionId normalized.tenantId
      normalized.repositoryId with
  | none => .error "software_graph_head_integrity_failed"
  | some headRow => do
      throwIf (headRow.contentDigest ≠ head.contentDigest ∨
          sha256 hexDigest headRow.contentJson ≠ headRow.contentDigest)
        "software_graph_head_integrity_failed"
      parsed headRow.contentJson

/-- Both inserts, within the constraints of the tables. -/
def insertVersion (db : GraphDb) (normalized : Publication) :
    Except String (Published × GraphDb) := do
  let row := rowOf hexDigest normalized
  throwIf (row.versionId ∈ db.versions.map VersionRow.versionId)
    "UNIQUE constraint failed: gl_software_versions_v1.version_id"
  throwIf ((row.tenantId, row.repositoryId, row.contentDigest) ∈
      db.versions.map fun other =>
        (other.tenantId, other.repositoryId, other.contentDigest))
    "UNIQUE constraint failed: gl_software_versions_v1_digest_idx"
  return (⟨row.versionId, row.contentDigest, false⟩,
    { versions := db.versions ++ [row]
      heads := db.heads.set normalized.headKey (headOf hexDigest normalized) })

/-- A publication which is no version yet, after the head of its scope. -/
def publishAfterHead (db : GraphDb) (normalized : Publication) :
    Except String (Published × GraphDb) :=
  match db.heads.get? normalized.headKey with
  | none => do
      throwIf (normalized.parentVersionId ≠ none)
        "software_graph_parent_head_mismatch"
      insertVersion hexDigest db normalized
  | some head => do
      let atHead ← headPublication hexDigest db head normalized
      if withoutParent atHead = withoutParent normalized then
        return (⟨head.versionId, head.contentDigest, true⟩, db)
      else do
        throwIf (normalized.parentVersionId ≠ some head.versionId)
          "software_graph_parent_head_mismatch"
        insertVersion hexDigest db normalized

/-- The transaction of `publishSoftwareGraphVersion`. -/
def publishWithin (db : GraphDb) (normalized : Publication) :
    Except String (Published × GraphDb) :=
  let row := rowOf hexDigest normalized
  match db.version? row.versionId row.tenantId row.repositoryId with
  | some existing => do
      throwIf (existing.contentDigest ≠ row.contentDigest ∨
          existing.contentJson ≠ row.contentJson)
        "software_graph_version_collision"
      return (⟨row.versionId, row.contentDigest, true⟩, db)
  | none => publishAfterHead hexDigest db normalized

/-- A call which fails is rolled back. -/
def publishSoftwareGraphVersion (db : GraphDb) (input : Publication) :
    Except String Published × GraphDb :=
  match normalizedPublication input >>= publishWithin hexDigest db with
  | .error message => (.error message, db)
  | .ok (published, after) => (.ok published, after)

/-- The tables after calls, one after the other. -/
def publishAll (calls : List Publication) : GraphDb :=
  Run.run (fun db input => (publishSoftwareGraphVersion hexDigest db input).2)
    GraphDb.empty calls

/-! ## Reading -/

/-- What `readSoftwareGraphVersion` returns. -/
structure PublishedVersion extends Publication where
  versionId : String
  contentDigest : String

def readSoftwareGraphVersion (db : GraphDb)
    (tenantId repositoryId versionId : String) :
    Except String PublishedVersion :=
  match db.version? versionId tenantId repositoryId with
  | none => .error "software_graph_version_not_found"
  | some row => do
      throwIf (sha256 hexDigest row.contentJson ≠ row.contentDigest)
        "software_graph_version_integrity_failed"
      let publication ← parsed row.contentJson
      throwIf (publication.tenantId ≠ tenantId ∨
          publication.repositoryId ≠ repositoryId)
        "software_graph_version_scope_mismatch"
      throwIf (row.versionId ≠ versionIdOf row.contentDigest)
        "software_graph_version_identity_mismatch"
      let normalized ← normalizedPublication publication
      throwIf (contentJson normalized ≠ row.contentJson)
        "software_graph_version_canonical_mismatch"
      return ⟨normalized, row.versionId, row.contentDigest⟩

end Calls

end Mendpoint.SoftwareGraph
