import Mendpoint.Calls.Build

/-!
# The persistent graph store

A store keeps node, edge and hierarchy payloads under structural hashes and a
short window of graph versions which refer to them.  Committing a graph
interns its payloads, records a version and compacts the window; materialising
a version reads the payloads back into a working graph.

The SHA-256 digest of a text is a parameter.  A commit reads the clock twice,
as a number of milliseconds and as a formatted time; both readings are part of
the request.  Libraries come with the stores on disk.
-/

namespace Mendpoint.Calls

open Mendpoint.Library

/-! ## Payloads -/

/-- A node as it is stored, without its identifier. -/
structure StoredNodePayload where
  stableKey : String
  name : String
  filePath : String
  lineStart : Nat
  lineEnd : Nat
  language : Language
  enclosingType : Option String
  isExternalApi : Bool
  isTest : Bool
  signature : Option String
  bodyHash : Option String
  qualifiedName : String

/-- An edge as it is stored, between hashes of its endpoints. -/
structure StoredEdgePayload where
  callerHash : String
  calleeHash : String
  callSiteFile : String
  callSiteLine : Nat
  resolution : CallResolution
  confidence : CallEdgeConfidence
  virtual : Bool

/-- How much of a version its parent already contained. -/
structure SharingStats where
  parentNodeCount : Nat
  parentEdgeCount : Nat
  reusedNodes : Nat
  reusedEdges : Nat
  newNodes : Nat
  newEdges : Nat

/-- A committed version of a graph. -/
structure GraphVersionMeta where
  versionId : String
  rootHash : String
  createdAt : String
  parentVersionId : Option String
  nodeHashes : List String
  edgeHashes : List String
  hierarchyHash : String
  algorithm : Algorithm
  repoRoot : String
  tags : List String
  label : Option String
  sharing : Option SharingStats

/-- The object store and the window of retained versions, newest last. -/
structure PersistentGraphStore where
  nodes : OrderedMap String StoredNodePayload
  edges : OrderedMap String StoredEdgePayload
  hierarchies : OrderedMap String TypeHierarchy
  versions : OrderedMap String GraphVersionMeta
  versionOrder : List String
  currentVersionId : Option String
  maxVersions : Nat

/-! ## Hashes -/

/-- One step of the 32-bit FNV-1a hash. -/
def fnvStep (hash unit : Nat) : Nat :=
  ((hash ^^^ unit) * 16777619) % 4294967296

/-- FNV-1a over the code units of a text, as eight hexadecimal digits. -/
def structuralHash (input : String) : String :=
  Text.padStart 8 '0'
    (Text.toRadix 16 ((Text.codeUnits input).foldl fnvStep 2166136261))

/-- A flag inside a hash input. -/
def flagText (flag : Bool) : String :=
  if flag then "1" else "0"

/-- A path with forward slashes. -/
def slashed (path : String) : String :=
  Text.replaceChar '\\' '/' path

/-- The key of a function which does not depend on its location. -/
def nodeStableKey (node : FunctionNode) : String :=
  slashed node.filePath ++ "::" ++ node.enclosingType.getD "" ++ "::" ++
    node.name

/-- What the hash of a node payload is computed from. -/
def nodeHashInput (payload : StoredNodePayload) : String :=
  Text.join "|"
    [payload.stableKey, payload.language.text, payload.bodyHash.getD "",
      payload.signature.getD "", flagText payload.isExternalApi,
      flagText payload.isTest]

/-- The hash of a node payload, which leaves line numbers out. -/
def hashNodePayload (payload : StoredNodePayload) : String :=
  structuralHash (nodeHashInput payload)

/-- What the hash of an edge payload is computed from. -/
def edgeHashInput (payload : StoredEdgePayload) : String :=
  Text.join "|"
    [payload.callerHash, payload.calleeHash, payload.callSiteFile,
      toString payload.callSiteLine, payload.resolution.text,
      payload.confidence.text, flagText payload.virtual]

/-- The hash of an edge payload. -/
def hashEdgePayload (payload : StoredEdgePayload) : String :=
  structuralHash (edgeHashInput payload)

/-- A record of text lists as a JSON array of sorted pairs. -/
def sortedPairs (map : OrderedMap String (List String)) : String :=
  Text.jsonArray
    ((Text.sortTexts map.keys).map fun key =>
      Text.jsonArray
        [Text.jsonText key,
          Text.jsonArray
            ((Text.sortTexts (map.getD key [])).map Text.jsonText)])

/-- What the hash of a hierarchy is computed from. -/
def hierarchyHashInput (hierarchy : TypeHierarchy) : String :=
  "\x7b\"p\":" ++ sortedPairs hierarchy.parentsOf ++ ",\"i\":" ++
    Text.jsonArray
      ((Text.sortTexts hierarchy.instantiated).map Text.jsonText) ++
    ",\"m\":" ++ sortedPairs hierarchy.methodsOfType ++ "\x7d"

/-- The hash of a hierarchy. -/
def hashHierarchy (hierarchy : TypeHierarchy) : String :=
  structuralHash (hierarchyHashInput hierarchy)

/-- The root hash over sorted node and edge hashes. -/
def hashRoot (sha256 : String → String)
    (nodeHashes edgeHashes : List String) (hierarchyHash : String) :
    String :=
  Text.takeChars 16
    (sha256
      ("nodes:" ++ Text.join "," (Text.sortTexts nodeHashes) ++ "|edges:" ++
        Text.join "," (Text.sortTexts edgeHashes) ++ "|hier:" ++
        hierarchyHash))

/-! ## Committing -/

/-- The empty store. -/
def createPersistentStore (maxVersions : Option Nat) :
    PersistentGraphStore where
  nodes := ∅
  edges := ∅
  hierarchies := ∅
  versions := ∅
  versionOrder := []
  currentVersionId := none
  maxVersions := maxVersions.getD 8

/-- The payload of a graph node. -/
def functionNodeToPayload (node : FunctionNode) : StoredNodePayload where
  stableKey := nodeStableKey node
  name := node.name
  filePath := slashed node.filePath
  lineStart := node.lineStart
  lineEnd := node.lineEnd
  language := node.language
  enclosingType := node.enclosingType
  isExternalApi := node.isExternalApi
  isTest := node.isTest
  signature := node.signature
  bodyHash := node.bodyHash
  qualifiedName := node.qualifiedName

/-- The hash under which a graph node is stored. -/
def nodeHash (node : FunctionNode) : String :=
  hashNodePayload (functionNodeToPayload node)

/-- Hashes of a graph's nodes under their identifiers. -/
def idToHash (graph : CallGraph) : OrderedMap String String :=
  OrderedMap.ofList
    (graph.nodes.values.map fun node => (node.id, nodeHash node))

/-- The payload of a graph edge; an edge without both endpoints has none. -/
def edgePayload (hashes : OrderedMap String String) (edge : CallEdge) :
    Option StoredEdgePayload :=
  match hashes.get? edge.callerId, hashes.get? edge.calleeId with
  | some callerHash, some calleeHash =>
    some
      { callerHash := callerHash
        calleeHash := calleeHash
        callSiteFile := slashed edge.callSiteFile
        callSiteLine := edge.callSiteLine
        resolution := edge.resolution
        confidence := edge.confidence
        virtual := edge.virtual }
  | _, _ => none

/-- The node payloads of a graph. -/
def nodePayloads (graph : CallGraph) : List StoredNodePayload :=
  graph.nodes.values.map functionNodeToPayload

/-- The edge payloads of a graph. -/
def edgePayloads (graph : CallGraph) : List StoredEdgePayload :=
  graph.edges.filterMap (edgePayload (idToHash graph))

/-- The distinct node hashes of a graph. -/
def uniqueNodes (graph : CallGraph) : List String :=
  uniq ((nodePayloads graph).map hashNodePayload)

/-- The distinct edge hashes of a graph. -/
def uniqueEdges (graph : CallGraph) : List String :=
  uniq ((edgePayloads graph).map hashEdgePayload)

/-- A commit: the graph, its options and the clock readings. -/
structure CommitRequest where
  graph : CallGraph
  parentVersionId : Option String := none
  label : Option String := none
  tags : List String := []
  now : Nat
  createdAt : String

/-- The root hash of a graph. -/
def graphRootHash (sha256 : String → String) (graph : CallGraph) : String :=
  hashRoot sha256 (uniqueNodes graph) (uniqueEdges graph)
    (hashHierarchy graph.hierarchy)

/-- `v-` with the clock in base 36 and the head of the root hash. -/
def versionIdOf (sha256 : String → String) (request : CommitRequest) :
    String :=
  "v-" ++ Text.toRadix 36 request.now ++ "-" ++
    Text.takeChars 8 (graphRootHash sha256 request.graph)

/-- Add the payloads of a graph which the store does not have yet. -/
def internGraph (store : PersistentGraphStore) (graph : CallGraph) :
    PersistentGraphStore :=
  { store with
    nodes :=
      store.nodes.setAllNew
        ((nodePayloads graph).map fun payload =>
          (hashNodePayload payload, payload))
    edges :=
      store.edges.setAllNew
        ((edgePayloads graph).map fun payload =>
          (hashEdgePayload payload, payload))
    hierarchies :=
      store.hierarchies.setNew (hashHierarchy graph.hierarchy)
        graph.hierarchy }

/-- Members of a list of hashes which another list contains. -/
def countIn (known hashes : List String) : Nat :=
  (hashes.filter fun hash => decide (hash ∈ known)).length

/-- What a graph shares with a parent version. -/
def sharingWith (parent : GraphVersionMeta) (graph : CallGraph) :
    SharingStats :=
  let reusedNodes := countIn parent.nodeHashes (uniqueNodes graph)
  let reusedEdges := countIn parent.edgeHashes (uniqueEdges graph)
  { parentNodeCount := parent.nodeHashes.length
    parentEdgeCount := parent.edgeHashes.length
    reusedNodes := reusedNodes
    reusedEdges := reusedEdges
    newNodes := (uniqueNodes graph).length - reusedNodes
    newEdges := (uniqueEdges graph).length - reusedEdges }

/-- The version which a request creates. -/
def versionMeta (sha256 : String → String) (store : PersistentGraphStore)
    (request : CommitRequest) : GraphVersionMeta :=
  let parentId := request.parentVersionId.or store.currentVersionId
  let parent := parentId.bind fun id =>
    if id = "" then none else store.versions.get? id
  { versionId := versionIdOf sha256 request
    rootHash := graphRootHash sha256 request.graph
    createdAt := request.createdAt
    parentVersionId := parentId
    nodeHashes := uniqueNodes request.graph
    edgeHashes := uniqueEdges request.graph
    hierarchyHash := hashHierarchy request.graph.hierarchy
    algorithm := request.graph.algorithm
    repoRoot := request.graph.repoRoot
    tags := request.tags
    label := request.label
    sharing := parent.map fun known => sharingWith known request.graph }

/-- Drop the oldest versions beyond the window, except the current one. -/
def dropOldVersions (maxVersions : Nat) (current : Option String) :
    List String → OrderedMap String GraphVersionMeta →
      List String × OrderedMap String GraphVersionMeta
  | [], versions => ([], versions)
  | old :: rest, versions =>
    if maxVersions < (old :: rest).length then
      dropOldVersions maxVersions current rest
        (if old ≠ "" ∧ current ≠ some old then versions.delete old
        else versions)
    else (old :: rest, versions)

/-- Keep the objects to which some retained version refers. -/
def gcUnreferenced (store : PersistentGraphStore) : PersistentGraphStore :=
  let metas := store.versions.values
  { store with
    nodes := store.nodes.filterKeys fun hash =>
      decide (hash ∈ metas.flatMap (·.nodeHashes))
    edges := store.edges.filterKeys fun hash =>
      decide (hash ∈ metas.flatMap (·.edgeHashes))
    hierarchies := store.hierarchies.filterKeys fun hash =>
      decide (hash ∈ metas.map (·.hierarchyHash)) }

/-- Compact the window of versions and collect unreferenced objects. -/
def compactVersionIndex (store : PersistentGraphStore) :
    PersistentGraphStore :=
  let kept :=
    dropOldVersions store.maxVersions store.currentVersionId
      store.versionOrder store.versions
  gcUnreferenced { store with versionOrder := kept.1, versions := kept.2 }

/-- Record a version as the newest one. -/
def recordVersion (store : PersistentGraphStore)
    (version : GraphVersionMeta) : PersistentGraphStore :=
  { store with
    versions := store.versions.set version.versionId version
    versionOrder := store.versionOrder ++ [version.versionId]
    currentVersionId := some version.versionId }

/-- Commit a working graph as a new version. -/
def commitGraphVersion (sha256 : String → String)
    (store : PersistentGraphStore) (request : CommitRequest) :
    PersistentGraphStore × GraphVersionMeta :=
  let version := versionMeta sha256 store request
  (compactVersionIndex
    (recordVersion (internGraph store request.graph) version), version)

/-- The store after a commit. -/
def commit (sha256 : String → String) (store : PersistentGraphStore)
    (request : CommitRequest) : PersistentGraphStore :=
  (commitGraphVersion sha256 store request).1

/-! ## Materialising -/

/-- The graph node of a stored payload. -/
def payloadToNode (payload : StoredNodePayload) : FunctionNode where
  id := nodeId payload.filePath payload.name payload.lineStart
  qualifiedName := payload.qualifiedName
  name := payload.name
  filePath := payload.filePath
  lineStart := payload.lineStart
  lineEnd := payload.lineEnd
  language := payload.language
  enclosingType := payload.enclosingType
  isExternalApi := payload.isExternalApi
  isTest := payload.isTest
  signature := payload.signature
  bodyHash := payload.bodyHash

/-- The stored nodes of a version, under their hashes. -/
def storedNodes (store : PersistentGraphStore)
    (version : GraphVersionMeta) : List (String × FunctionNode) :=
  version.nodeHashes.filterMap fun hash =>
    (store.nodes.get? hash).map fun payload =>
      (hash, payloadToNode payload)

/-- The graph edge of a stored payload whose endpoints are known. -/
def payloadToEdge (runtimeIds : OrderedMap String String)
    (payload : StoredEdgePayload) : Option CallEdge :=
  match runtimeIds.get? payload.callerHash,
      runtimeIds.get? payload.calleeHash with
  | some callerId, some calleeId =>
    some
      { id := callerId ++ "->" ++ calleeId ++ "@" ++
          toString payload.callSiteLine
        callerId := callerId
        calleeId := calleeId
        callSiteFile := payload.callSiteFile
        callSiteLine := payload.callSiteLine
        resolution := payload.resolution
        confidence := payload.confidence
        virtual := payload.virtual }
  | _, _ => none

/-- The working graph of a version of the store. -/
def materializeMeta (store : PersistentGraphStore)
    (version : GraphVersionMeta) : CallGraph :=
  let nodes := storedNodes store version
  let runtimeIds :=
    OrderedMap.ofList (nodes.map fun entry => (entry.1, entry.2.id))
  rebuildAdjacency
    { repoRoot := version.repoRoot
      algorithm := version.algorithm
      nodes := (∅ : NodeTable).insertAll (nodes.map Prod.snd)
      edges := version.edgeHashes.filterMap fun hash =>
        (store.edges.get? hash).bind (payloadToEdge runtimeIds)
      outEdges := ∅
      inEdges := ∅
      byName := ∅
      hierarchy :=
        (store.hierarchies.get? version.hierarchyHash).getD emptyHierarchy
      stats := ⟨0, 0, 0, 0⟩ }

/-- Materialise a version, the current one by default. -/
def materializeVersion (store : PersistentGraphStore)
    (versionId : Option String) : Except String CallGraph :=
  match versionId.or store.currentVersionId with
  | none => .error "No graph version to materialize"
  | some id =>
    if id = "" then .error "No graph version to materialize"
    else
      match store.versions.get? id with
      | none => .error ("Unknown version " ++ id)
      | some version => .ok (materializeMeta store version)

end Mendpoint.Calls
