import Mendpoint.Calls.Persistent
import Mendpoint.Library.JsonCodec

/-!
# Stores on disk

Saving a store writes a JSON file for each of its objects and versions, and
loading it reads whatever files the directory holds.  What is read is typed; a
text of another shape, which saving never writes, is not read.
-/

namespace Mendpoint.Calls

open Mendpoint.Library
open Mendpoint.Library.Written

/-! ## Enumerations -/

namespace CallResolution

def all : List CallResolution :=
  [.direct, .nameMatch, .cha, .rta, .importContext, .virtualApprox,
    .externalStub]

theorem nodup_text : (all.map text).Nodup := by
  decide

theorem mem_all (resolution : CallResolution) : resolution ∈ all := by
  cases resolution <;> decide

def codec : Codec CallResolution :=
  Codec.named text all nodup_text mem_all

end CallResolution

namespace CallEdgeConfidence

def all : List CallEdgeConfidence :=
  [.high, .medium, .low]

theorem nodup_text : (all.map text).Nodup := by
  decide

theorem mem_all (confidence : CallEdgeConfidence) : confidence ∈ all := by
  cases confidence <;> decide

def codec : Codec CallEdgeConfidence :=
  Codec.named text all nodup_text mem_all

end CallEdgeConfidence

namespace Language

def all : List Language :=
  [.typescript, .javascript, .python, .go, .java, .other]

theorem nodup_text : (all.map text).Nodup := by
  decide

theorem mem_all (language : Language) : language ∈ all := by
  cases language <;> decide

def codec : Codec Language :=
  Codec.named text all nodup_text mem_all

end Language

namespace Algorithm

def all : List Algorithm :=
  [.name, .cha, .rta, .hybrid]

def text : Algorithm → String
  | .name => "name"
  | .cha => "cha"
  | .rta => "rta"
  | .hybrid => "hybrid"

theorem nodup_text : (all.map text).Nodup := by
  decide

theorem mem_all (algorithm : Algorithm) : algorithm ∈ all := by
  cases algorithm <;> decide

def codec : Codec Algorithm :=
  Codec.named text all nodup_text mem_all

end Algorithm

/-! ## Payloads -/

def texts : Codec (List String) :=
  Codec.list Codec.text

namespace StoredNodePayload

def fields (payload : StoredNodePayload) : List (String × Option Written) :=
  [("stableKey", some (Codec.text.write payload.stableKey)),
    ("name", some (Codec.text.write payload.name)),
    ("filePath", some (Codec.text.write payload.filePath)),
    ("lineStart", some (Codec.nat.write payload.lineStart)),
    ("lineEnd", some (Codec.nat.write payload.lineEnd)),
    ("language", some (Language.codec.write payload.language)),
    ("enclosingType", payload.enclosingType.map Codec.text.write),
    ("isExternalApi", some (Codec.bool.write payload.isExternalApi)),
    ("isTest", some (Codec.bool.write payload.isTest)),
    ("signature", payload.signature.map Codec.text.write),
    ("bodyHash", payload.bodyHash.map Codec.text.write),
    ("qualifiedName", some (Codec.text.write payload.qualifiedName))]

theorem nodup_fields (payload : StoredNodePayload) :
    (payload.fields.map Prod.fst).Nodup := by
  rw [fields]
  simp

def read (value : Written) : Option StoredNodePayload := do
  let stableKey ← required Codec.text value "stableKey"
  let name ← required Codec.text value "name"
  let filePath ← required Codec.text value "filePath"
  let lineStart ← required Codec.nat value "lineStart"
  let lineEnd ← required Codec.nat value "lineEnd"
  let language ← required Language.codec value "language"
  let enclosingType ← optional Codec.text value "enclosingType"
  let isExternalApi ← required Codec.bool value "isExternalApi"
  let isTest ← required Codec.bool value "isTest"
  let signature ← optional Codec.text value "signature"
  let bodyHash ← optional Codec.text value "bodyHash"
  let qualifiedName ← required Codec.text value "qualifiedName"
  return ⟨stableKey, name, filePath, lineStart, lineEnd, language,
    enclosingType, isExternalApi, isTest, signature, bodyHash, qualifiedName⟩

theorem read_write (arrangement : Arrangement)
    (payload : StoredNodePayload) :
    read (arrangement.apply (record payload.fields)) = some payload := by
  have distinct := payload.nodup_fields
  unfold read
  rw [required_record _ _ distinct payload.stableKey (by simp [fields]),
    required_record _ _ distinct payload.name (by simp [fields]),
    required_record _ _ distinct payload.filePath (by simp [fields]),
    required_record _ _ distinct payload.lineStart (by simp [fields]),
    required_record _ _ distinct payload.lineEnd (by simp [fields]),
    required_record _ _ distinct payload.language (by simp [fields]),
    optional_record _ _ distinct payload.enclosingType (by simp [fields]),
    required_record _ _ distinct payload.isExternalApi (by simp [fields]),
    required_record _ _ distinct payload.isTest (by simp [fields]),
    optional_record _ _ distinct payload.signature (by simp [fields]),
    optional_record _ _ distinct payload.bodyHash (by simp [fields]),
    required_record _ _ distinct payload.qualifiedName (by simp [fields])]
  rfl

def codec : Codec StoredNodePayload where
  write payload := record payload.fields
  read := read
  read_write := read_write

end StoredNodePayload

namespace StoredEdgePayload

def fields (payload : StoredEdgePayload) : List (String × Option Written) :=
  [("callerHash", some (Codec.text.write payload.callerHash)),
    ("calleeHash", some (Codec.text.write payload.calleeHash)),
    ("callSiteFile", some (Codec.text.write payload.callSiteFile)),
    ("callSiteLine", some (Codec.nat.write payload.callSiteLine)),
    ("resolution", some (CallResolution.codec.write payload.resolution)),
    ("confidence", some (CallEdgeConfidence.codec.write payload.confidence)),
    ("virtual", some (Codec.bool.write payload.virtual))]

theorem nodup_fields (payload : StoredEdgePayload) :
    (payload.fields.map Prod.fst).Nodup := by
  rw [fields]
  simp

def read (value : Written) : Option StoredEdgePayload := do
  let callerHash ← required Codec.text value "callerHash"
  let calleeHash ← required Codec.text value "calleeHash"
  let callSiteFile ← required Codec.text value "callSiteFile"
  let callSiteLine ← required Codec.nat value "callSiteLine"
  let resolution ← required CallResolution.codec value "resolution"
  let confidence ← required CallEdgeConfidence.codec value "confidence"
  let virtual ← required Codec.bool value "virtual"
  return ⟨callerHash, calleeHash, callSiteFile, callSiteLine, resolution,
    confidence, virtual⟩

theorem read_write (arrangement : Arrangement)
    (payload : StoredEdgePayload) :
    read (arrangement.apply (record payload.fields)) = some payload := by
  have distinct := payload.nodup_fields
  unfold read
  rw [required_record _ _ distinct payload.callerHash (by simp [fields]),
    required_record _ _ distinct payload.calleeHash (by simp [fields]),
    required_record _ _ distinct payload.callSiteFile (by simp [fields]),
    required_record _ _ distinct payload.callSiteLine (by simp [fields]),
    required_record _ _ distinct payload.resolution (by simp [fields]),
    required_record _ _ distinct payload.confidence (by simp [fields]),
    required_record _ _ distinct payload.virtual (by simp [fields])]
  rfl

def codec : Codec StoredEdgePayload where
  write payload := record payload.fields
  read := read
  read_write := read_write

end StoredEdgePayload

/-! ## Hierarchies -/

/-- An object of lists of texts, in the order of its keys. -/
def writeLists (map : OrderedMap String (List String)) : Written :=
  .obj (map.entries.map fun entry => (entry.1, texts.write entry.2))

def readEntry (field : String × Written) :
    Option (String × List String) :=
  (texts.read field.2).map fun items => (field.1, items)

def readLists : Written → Option (OrderedMap String (List String))
  | .obj fields => (fields.mapM readEntry).map OrderedMap.ofList
  | _ => none

theorem readLists_writeLists (map : OrderedMap String (List String)) :
    readLists (writeLists map) = some map := by
  have entries : ∀ entries : List (String × List String),
      (entries.map fun entry => (entry.1, texts.write entry.2)).mapM
        readEntry = some entries := by
    intro entries
    induction entries with
    | nil => rfl
    | cons first rest inductionHypothesis =>
      rw [List.map_cons, List.mapM_cons, inductionHypothesis, readEntry,
        show texts.read (texts.write first.2) = some first.2 from
          texts.read_write .unchanged first.2]
      rfl
  rw [writeLists, readLists, entries, Option.map_some,
    OrderedMap.ofList_entries]

namespace TypeHierarchy

def fields (hierarchy : TypeHierarchy) : List (String × Option Written) :=
  [("parentsOf", some (writeLists hierarchy.parentsOf)),
    ("instantiated", some (texts.write hierarchy.instantiated)),
    ("methodsOfType", some (writeLists hierarchy.methodsOfType))]

theorem nodup_fields (hierarchy : TypeHierarchy) :
    (hierarchy.fields.map Prod.fst).Nodup := by
  rw [fields]
  simp

def write (hierarchy : TypeHierarchy) : Written :=
  record hierarchy.fields

def read (value : Written) : Option TypeHierarchy := do
  let parentsOf ← (value.field "parentsOf").bind readLists
  let instantiated ← required texts value "instantiated"
  let methodsOfType ← (value.field "methodsOfType").bind readLists
  return ⟨parentsOf, instantiated, methodsOfType⟩

theorem read_write (hierarchy : TypeHierarchy) :
    read (write hierarchy) = some hierarchy := by
  have distinct := hierarchy.nodup_fields
  have parents : ("parentsOf", some (writeLists hierarchy.parentsOf)) ∈
      hierarchy.fields := by
    simp [fields]
  have methods :
      ("methodsOfType", some (writeLists hierarchy.methodsOfType)) ∈
        hierarchy.fields := by
    simp [fields]
  have parentsField : (write hierarchy).field "parentsOf" =
      some (writeLists hierarchy.parentsOf) :=
    field_record .unchanged distinct parents
  have methodsField : (write hierarchy).field "methodsOfType" =
      some (writeLists hierarchy.methodsOfType) :=
    field_record .unchanged distinct methods
  have instantiated : required texts (write hierarchy) "instantiated" =
      some hierarchy.instantiated :=
    required_record texts .unchanged distinct _ (by simp [fields])
  unfold read
  rw [parentsField, methodsField, instantiated, Option.bind_some, Option.bind_some,
    readLists_writeLists, readLists_writeLists]
  rfl

end TypeHierarchy

/-! ## Versions -/

namespace SharingStats

def fields (stats : SharingStats) : List (String × Option Written) :=
  [("parentNodeCount", some (Codec.nat.write stats.parentNodeCount)),
    ("parentEdgeCount", some (Codec.nat.write stats.parentEdgeCount)),
    ("reusedNodes", some (Codec.nat.write stats.reusedNodes)),
    ("reusedEdges", some (Codec.nat.write stats.reusedEdges)),
    ("newNodes", some (Codec.nat.write stats.newNodes)),
    ("newEdges", some (Codec.nat.write stats.newEdges))]

theorem nodup_fields (stats : SharingStats) :
    (stats.fields.map Prod.fst).Nodup := by
  rw [fields]
  simp

def read (value : Written) : Option SharingStats := do
  let parentNodeCount ← required Codec.nat value "parentNodeCount"
  let parentEdgeCount ← required Codec.nat value "parentEdgeCount"
  let reusedNodes ← required Codec.nat value "reusedNodes"
  let reusedEdges ← required Codec.nat value "reusedEdges"
  let newNodes ← required Codec.nat value "newNodes"
  let newEdges ← required Codec.nat value "newEdges"
  return ⟨parentNodeCount, parentEdgeCount, reusedNodes, reusedEdges,
    newNodes, newEdges⟩

theorem read_write (arrangement : Arrangement) (stats : SharingStats) :
    read (arrangement.apply (record stats.fields)) = some stats := by
  have distinct := stats.nodup_fields
  unfold read
  rw [required_record _ _ distinct stats.parentNodeCount (by simp [fields]),
    required_record _ _ distinct stats.parentEdgeCount (by simp [fields]),
    required_record _ _ distinct stats.reusedNodes (by simp [fields]),
    required_record _ _ distinct stats.reusedEdges (by simp [fields]),
    required_record _ _ distinct stats.newNodes (by simp [fields]),
    required_record _ _ distinct stats.newEdges (by simp [fields])]
  rfl

def codec : Codec SharingStats where
  write stats := record stats.fields
  read := read
  read_write := read_write

end SharingStats

namespace GraphVersionMeta

def fields (version : GraphVersionMeta) : List (String × Option Written) :=
  [("versionId", some (Codec.text.write version.versionId)),
    ("rootHash", some (Codec.text.write version.rootHash)),
    ("createdAt", some (Codec.text.write version.createdAt)),
    ("parentVersionId", version.parentVersionId.map Codec.text.write),
    ("nodeHashes", some (texts.write version.nodeHashes)),
    ("edgeHashes", some (texts.write version.edgeHashes)),
    ("hierarchyHash", some (Codec.text.write version.hierarchyHash)),
    ("algorithm", some (Algorithm.codec.write version.algorithm)),
    ("repoRoot", some (Codec.text.write version.repoRoot)),
    ("tags", some (texts.write version.tags)),
    ("label", version.label.map Codec.text.write),
    ("sharing", version.sharing.map SharingStats.codec.write)]

theorem nodup_fields (version : GraphVersionMeta) :
    (version.fields.map Prod.fst).Nodup := by
  rw [fields]
  simp

def read (value : Written) : Option GraphVersionMeta := do
  let versionId ← required Codec.text value "versionId"
  let rootHash ← required Codec.text value "rootHash"
  let createdAt ← required Codec.text value "createdAt"
  let parentVersionId ← optional Codec.text value "parentVersionId"
  let nodeHashes ← required texts value "nodeHashes"
  let edgeHashes ← required texts value "edgeHashes"
  let hierarchyHash ← required Codec.text value "hierarchyHash"
  let algorithm ← required Algorithm.codec value "algorithm"
  let repoRoot ← required Codec.text value "repoRoot"
  let tags ← required texts value "tags"
  let label ← optional Codec.text value "label"
  let sharing ← optional SharingStats.codec value "sharing"
  return ⟨versionId, rootHash, createdAt, parentVersionId, nodeHashes,
    edgeHashes, hierarchyHash, algorithm, repoRoot, tags, label, sharing⟩

theorem read_write (arrangement : Arrangement)
    (version : GraphVersionMeta) :
    read (arrangement.apply (record version.fields)) = some version := by
  have distinct := version.nodup_fields
  unfold read
  rw [required_record _ _ distinct version.versionId (by simp [fields]),
    required_record _ _ distinct version.rootHash (by simp [fields]),
    required_record _ _ distinct version.createdAt (by simp [fields]),
    optional_record _ _ distinct version.parentVersionId (by simp [fields]),
    required_record _ _ distinct version.nodeHashes (by simp [fields]),
    required_record _ _ distinct version.edgeHashes (by simp [fields]),
    required_record _ _ distinct version.hierarchyHash (by simp [fields]),
    required_record _ _ distinct version.algorithm (by simp [fields]),
    required_record _ _ distinct version.repoRoot (by simp [fields]),
    required_record _ _ distinct version.tags (by simp [fields]),
    optional_record _ _ distinct version.label (by simp [fields]),
    optional_record _ _ distinct version.sharing (by simp [fields])]
  rfl

def codec : Codec GraphVersionMeta where
  write version := record version.fields
  read := read
  read_write := read_write

end GraphVersionMeta

end Mendpoint.Calls
