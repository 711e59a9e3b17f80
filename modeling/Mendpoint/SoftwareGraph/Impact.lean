import Mendpoint.SoftwareGraph.Versions

/-!
# The impact of an endpoint

Which entities of a published software graph reach an entity, found by a
search from it against the relationships, and the context which is compiled
from what was found.
-/

namespace Mendpoint.SoftwareGraph

open Mendpoint.Library
open Mendpoint.Library.Fallible
open Mendpoint.Library.Written

/-! ## Resolving an entity -/

inductive EntityResolution where
  | exact (entity : Entity)
  | byAlias (entity : Entity)
  | collision (candidates : List Entity)
  | ambiguous (candidates : List Entity)
  | unresolved

namespace EntityResolution

def status : EntityResolution → String
  | exact _ => "exact"
  | byAlias _ => "alias"
  | collision _ => "collision"
  | ambiguous _ => "ambiguous"
  | unresolved => "unresolved"

/-- The one entity which a key resolves to. -/
def entity? : EntityResolution → Option Entity
  | exact entity => some entity
  | byAlias entity => some entity
  | collision _ => none
  | ambiguous _ => none
  | unresolved => none

def candidates? : EntityResolution → Option (List Entity)
  | exact _ => none
  | byAlias _ => none
  | collision candidates => some candidates
  | ambiguous candidates => some candidates
  | unresolved => some []

def write (resolution : EntityResolution) : Written :=
  record [("status", some (.str resolution.status)),
    ("entity", resolution.entity?.map Entity.codec.write),
    ("candidates",
      resolution.candidates?.map (Codec.list Entity.codec).write)]

end EntityResolution

/-- What a key resolves to among the entities with it as an alias. -/
def resolveAlias (entities : List Entity) (key : String) :
    EntityResolution :=
  match entities.filter fun entity => decide (key ∈ entity.aliases) with
  | [] => .unresolved
  | [entity] => .byAlias entity
  | first :: second :: rest => .ambiguous (first :: second :: rest)

def resolveSoftwareEntity (entities : List Entity) (key : String) :
    EntityResolution :=
  match entities.filter fun entity => decide (entity.canonicalKey = key) with
  | [] => resolveAlias entities key
  | [entity] => .exact entity
  | first :: second :: rest => .collision (first :: second :: rest)

/-! ## The search -/

/-- What the queue holds of an entity. -/
structure Visit where
  id : String
  depth : Nat
  path : List String

/-- The variables of the search. -/
structure SearchState where
  foundEntities : OrderedMap String Entity
  foundRelationships : OrderedMap String Relationship
  paths : List (List String)
  hasRepositoryImpact : Bool
  queue : List Visit
  visitedDepth : OrderedMap String Nat
  truncated : Bool

/-- The kinds which an impact on a repository is found at. -/
def EntityKind.inRepository : EntityKind → Bool
  | .internalSdkMethod => true
  | .function => true
  | .test => true
  | .endpoint => false
  | .providerSdkMethod => false

/-- A search in a graph, from a target and within bounds. -/
structure ImpactSearch where
  graph : Publication
  allowed : List RelationshipKind
  maxHops : Nat
  maxEntities : Nat
  maxRelationships : Nat
  target : Entity

namespace ImpactSearch

variable (search : ImpactSearch)

/-- The active relationships of allowed kinds to an entity, in order. -/
def incoming (id : String) : List Relationship :=
  Text.sortBy Relationship.id <| search.graph.relationships.filter
    fun edge => decide (edge.status = .active ∧ edge.kind ∈ search.allowed ∧
      edge.targetId = id)

def byId (id : String) : Option Entity :=
  (OrderedMap.ofList
    (search.graph.entities.map fun entity => (entity.id, entity))).get? id

def isRepositoryId (id : String) : Bool :=
  match search.byId id with
  | none => false
  | some entity => entity.kind.inRepository

/-- Whether a path is reported which ends at an entity. -/
def endsPath (source : Entity) (path : List String) : Bool :=
  path.any search.isRepositoryId &&
    (decide (source.kind = .test) ||
      decide ((search.incoming source.id).length = 0))

/-- What is kept of a relationship which is followed to its source. -/
def found (current : Visit) (edge : Relationship) (source : Entity)
    (state : SearchState) : SearchState :=
  let nextPath := current.path ++ [source.id]
  { state with
    foundRelationships := state.foundRelationships.set edge.id edge
    foundEntities := state.foundEntities.set source.id source
    hasRepositoryImpact :=
      source.kind.inRepository || state.hasRepositoryImpact
    paths := if search.endsPath source nextPath then
      state.paths ++ [nextPath] else state.paths }

/-- Whether an entity is queued, at a depth, in view of the one it has. -/
def isNearer (prior : Option Nat) (depth : Nat) : Bool :=
  match prior with
  | none => true
  | some prior => decide (depth < prior)

def enqueue (current : Visit) (source : Entity) (state : SearchState) :
    SearchState :=
  if isNearer (state.visitedDepth.get? source.id) (current.depth + 1) then
    { state with
      visitedDepth := state.visitedDepth.set source.id (current.depth + 1)
      queue := state.queue ++ [{
        id := source.id
        depth := current.depth + 1
        path := current.path ++ [source.id] }] }
  else state

/-- A relationship, whose source may be no active entity. -/
def follow (current : Visit) (edge : Relationship) (state : SearchState) :
    SearchState :=
  match search.byId edge.sourceId with
  | none => state
  | some source =>
    if source.status ≠ .active then state
    else if state.foundEntities.has source.id = false ∧
        search.maxEntities ≤ state.foundEntities.size then
      { state with truncated := true }
    else
      enqueue current source (search.found current edge source state)

/-- The loop against the relationships, until there are too many. -/
def followAll (current : Visit) :
    List Relationship → SearchState → SearchState
  | [], state => state
  | edge :: rest, state =>
    if search.maxRelationships ≤ state.foundRelationships.size then
      { state with truncated := true }
    else followAll current rest (search.follow current edge state)

def expand (current : Visit) (state : SearchState) : SearchState :=
  if search.maxHops ≤ current.depth then
    if 0 < (search.incoming current.id).length then
      { state with truncated := true }
    else state
  else search.followAll current (search.incoming current.id) state

/-- Rounds of the loop on the queue. -/
def rounds : Nat → SearchState → SearchState
  | 0, state => state
  | fuel + 1, state =>
    match state.queue with
    | [] => state
    | current :: rest =>
      rounds fuel (search.expand current { state with queue := rest })

def start : SearchState where
  foundEntities := OrderedMap.empty.set search.target.id search.target
  foundRelationships := OrderedMap.empty
  paths := []
  hasRepositoryImpact := false
  queue := [{
    id := search.target.id
    depth := 0
    path := [search.target.id] }]
  visitedDepth := OrderedMap.empty.set search.target.id 0
  truncated := false

/-- More rounds than there can be. -/
def fuel : Nat :=
  2 * ((search.maxHops + 1) * search.graph.entities.length) + 1

def run : SearchState :=
  search.rounds search.fuel search.start

end ImpactSearch

/-! ## The query -/

/-- `FettlerEndpointImpactQuery`; its numbers are whole ones. -/
structure ImpactQuery where
  tenantId : String
  repositoryId : String
  graphVersionId : String
  endpointKey : String
  allowedRelationshipKinds : Option (List RelationshipKind)
  maxHops : Int
  maxEntities : Int
  maxRelationships : Int

inductive Impact where
  | impact
  | noImpact
  | unknownImpact

def Impact.text : Impact → String
  | impact => "impact"
  | noImpact => "no_impact"
  | unknownImpact => "unknown_impact"

inductive ImpactBasis where
  | complete
  | partly
  | targetAbsent

def ImpactBasis.text : ImpactBasis → String
  | complete => "complete"
  | partly => "partial"
  | targetAbsent => "target_absent"

structure ImpactCoverage where
  basis : ImpactBasis
  reasons : List String
  truncated : Bool

/-- What the digest of a result is of. -/
structure ImpactBase where
  tenantId : String
  repositoryId : String
  graphVersionId : String
  graphContentDigest : String
  repositorySnapshotId : String
  repositoryRevision : String
  providerId : String
  providerSnapshotId : String
  providerRevision : String
  target : EntityResolution
  impact : Impact
  entities : List Entity
  relationships : List Relationship
  paths : List (List String)
  coverage : ImpactCoverage

structure ImpactResult extends ImpactBase where
  resultDigest : String

/-- The schema version which every result has. -/
def impactSchemaVersion : String :=
  "mendpoint.fettler-impact-context.v1"

def ImpactCoverage.write (coverage : ImpactCoverage) : Written :=
  record [("basis", some (.str coverage.basis.text)),
    ("reasons", some (texts.write coverage.reasons)),
    ("truncated", some (.bool coverage.truncated))]

def ImpactBase.write (base : ImpactBase) : Written :=
  record [("schemaVersion", some (.str impactSchemaVersion)),
    ("tenantId", some (.str base.tenantId)),
    ("repositoryId", some (.str base.repositoryId)),
    ("graphVersionId", some (.str base.graphVersionId)),
    ("repositorySnapshotId", some (.str base.repositorySnapshotId)),
    ("repositoryRevision", some (.str base.repositoryRevision)),
    ("providerId", some (.str base.providerId)),
    ("providerSnapshotId", some (.str base.providerSnapshotId)),
    ("providerRevision", some (.str base.providerRevision)),
    ("graphContentDigest", some (.str base.graphContentDigest)),
    ("target", some base.target.write),
    ("impact", some (.str base.impact.text)),
    ("entities", some ((Codec.list Entity.codec).write base.entities)),
    ("relationships",
      some ((Codec.list Relationship.codec).write base.relationships)),
    ("paths", some ((Codec.list texts).write base.paths)),
    ("coverage", some base.coverage.write)]

/-- The result of a key which resolves to no one entity. -/
def absentBase (graph : PublishedVersion) (query : ImpactQuery)
    (target : EntityResolution) : ImpactBase where
  tenantId := query.tenantId
  repositoryId := query.repositoryId
  graphVersionId := graph.versionId
  graphContentDigest := graph.contentDigest
  repositorySnapshotId := graph.repositorySnapshotId
  repositoryRevision := graph.repositoryRevision
  providerId := graph.providerId
  providerSnapshotId := graph.providerSnapshotId
  providerRevision := graph.providerRevision
  target := target
  impact := .unknownImpact
  entities := []
  relationships := []
  paths := []
  coverage := {
    basis := .targetAbsent
    reasons := [target.status]
    truncated := false }

/-- The kinds of relationships which a query follows. -/
def ImpactQuery.allowed (query : ImpactQuery) : List RelationshipKind :=
  query.allowedRelationshipKinds.getD RelationshipKind.all

/-- `relationshipKindsFiltered` -/
def ImpactQuery.filtersKinds (query : ImpactQuery) : Bool :=
  decide (query.allowed.dedup.length ≠ RelationshipKind.all.length)

def ImpactQuery.search (query : ImpactQuery) (graph : Publication)
    (target : Entity) : ImpactSearch where
  graph := graph
  allowed := query.allowed
  maxHops := query.maxHops.toNat
  maxEntities := query.maxEntities.toNat
  maxRelationships := query.maxRelationships.toNat
  target := target

/-- `incomplete` -/
def incompleteStages (graph : Publication) : List CoverageStage :=
  graph.coverage.filter fun stage => decide (stage.basis ≠ .complete)

def hasNonActiveEvidence (graph : Publication) : Bool :=
  graph.entities.any (fun entity => decide (entity.status ≠ .active)) ||
    graph.relationships.any fun edge => decide (edge.status ≠ .active)

/-- Why the absence of an impact is not known. -/
def impactReasons (graph : Publication) (query : ImpactQuery)
    (truncated : Bool) : List String :=
  (incompleteStages graph).map
      (fun stage => stage.stage.text ++ ":" ++ stage.basis.text) ++
    (if hasNonActiveEvidence graph then ["graph_non_active_evidence"]
      else []) ++
    (if truncated then ["query_truncated"] else []) ++
    (if query.filtersKinds then ["relationship_kinds_filtered"] else [])

/-- `complete` -/
def isComplete (graph : Publication) (query : ImpactQuery)
    (truncated : Bool) : Bool :=
  decide ((incompleteStages graph).length = 0) &&
    !hasNonActiveEvidence graph && !truncated && !query.filtersKinds

/-- `paths.sort`, by the texts of the paths. -/
def sortPaths (paths : List (List String)) : List (List String) :=
  Text.sortBy (String.intercalate "\u0000") paths

/-- The result of a search. -/
def foundBase (graph : PublishedVersion) (query : ImpactQuery)
    (target : EntityResolution) (state : SearchState) : ImpactBase where
  tenantId := query.tenantId
  repositoryId := query.repositoryId
  graphVersionId := query.graphVersionId
  graphContentDigest := graph.contentDigest
  repositorySnapshotId := graph.repositorySnapshotId
  repositoryRevision := graph.repositoryRevision
  providerId := graph.providerId
  providerSnapshotId := graph.providerSnapshotId
  providerRevision := graph.providerRevision
  target := target
  impact :=
    if state.hasRepositoryImpact then .impact
    else if isComplete graph.toPublication query state.truncated then .noImpact
    else .unknownImpact
  entities := Text.sortBy Entity.id state.foundEntities.values
  relationships := Text.sortBy Relationship.id state.foundRelationships.values
  paths := sortPaths state.paths
  coverage := {
    basis := if isComplete graph.toPublication query state.truncated then
      .complete else .partly
    reasons := Text.sortTexts
      (impactReasons graph.toPublication query state.truncated)
    truncated := state.truncated }

def impactBase (graph : PublishedVersion) (query : ImpactQuery) : ImpactBase :=
  let target := resolveSoftwareEntity graph.entities query.endpointKey
  match target.entity? with
  | none => absentBase graph query target
  | some entity =>
    foundBase graph query target
      (query.search graph.toPublication entity).run

/-- `software_graph_query_bounds_invalid` -/
def invalidBounds (query : ImpactQuery) : Bool :=
  decide (query.maxHops < 1 ∨ 12 < query.maxHops ∨ query.maxEntities < 1 ∨
    2000 < query.maxEntities ∨ query.maxRelationships < 1 ∨
    10000 < query.maxRelationships)

def queryFettlerEndpointImpact (hexDigest : String → String) (db : GraphDb)
    (query : ImpactQuery) : Except String ImpactResult := do
  throwIf (invalidBounds query = true) "software_graph_query_bounds_invalid"
  let graph ← readSoftwareGraphVersion hexDigest db query.tenantId
    query.repositoryId query.graphVersionId
  let base := impactBase graph query
  return ⟨base, sha256 hexDigest (canonical base.write)⟩

/-! ## The context -/

/-- The key of `edgeByPair`. -/
def pairKey (targetId sourceId : String) : String :=
  targetId ++ "\u0000" ++ sourceId

/-- `entityById` -/
def ImpactResult.entityById (result : ImpactResult) :
    OrderedMap String Entity :=
  OrderedMap.ofList (result.entities.map fun entity => (entity.id, entity))

/-- `edgeByPair` -/
def ImpactResult.edgeByPair (result : ImpactResult) :
    OrderedMap String Relationship :=
  OrderedMap.ofList (result.relationships.map fun edge =>
    (pairKey edge.targetId edge.sourceId, edge))

def entityOf (result : ImpactResult) (id : String) : Except String Entity :=
  match result.entityById.get? id with
  | none => .error "fettler_impact_context_entity_missing"
  | some entity => .ok entity

def edgeOf (result : ImpactResult) (targetId id : String) :
    Except String Relationship :=
  match result.edgeByPair.get? (pairKey targetId id) with
  | none => .error "fettler_impact_context_relationship_missing"
  | some edge => .ok edge

/-- The further entities of a path, after the one before them. -/
def compileSteps (result : ImpactResult) :
    String → List String → Except String (List Written)
  | _, [] => .ok []
  | targetId, id :: rest => do
      let entity ← entityOf result id
      let edge ← edgeOf result targetId id
      let others ← compileSteps result id rest
      return record [("via", some (.str edge.kind.text)),
        ("kind", some (.str entity.kind.text)),
        ("label", some (.str entity.label)),
        ("derivation", some (.str edge.derivation.text)),
        ("confidenceBasis", some (.str edge.confidenceBasis.text)),
        ("evidenceRefs", some (texts.write (Text.sortTexts
          (entity.evidenceRefs ++ edge.evidenceRefs).dedup)))] :: others

def compilePath (result : ImpactResult) :
    List String → Except String Written
  | [] => .ok (.arr [])
  | id :: rest => do
      let entity ← entityOf result id
      let others ← compileSteps result id rest
      return .arr (record [("kind", some (.str entity.kind.text)),
        ("label", some (.str entity.label)),
        ("evidenceRefs", some (texts.write entity.evidenceRefs))] :: others)

def contextBinding (result : ImpactResult) : Written :=
  record [("tenantId", some (.str result.tenantId)),
    ("repositoryId", some (.str result.repositoryId)),
    ("repositorySnapshotId", some (.str result.repositorySnapshotId)),
    ("repositoryRevision", some (.str result.repositoryRevision)),
    ("providerId", some (.str result.providerId)),
    ("providerSnapshotId", some (.str result.providerSnapshotId)),
    ("providerRevision", some (.str result.providerRevision)),
    ("graphVersionId", some (.str result.graphVersionId)),
    ("graphContentDigest", some (.str result.graphContentDigest)),
    ("resultDigest", some (.str result.resultDigest))]

def contextContent (result : ImpactResult) (paths : List Written) : String :=
  canonical <| record [("schemaVersion", some (.str impactSchemaVersion)),
    ("binding", some (contextBinding result)),
    ("impact", some (.str result.impact.text)),
    ("coverage", some result.coverage.write),
    ("paths", some (.arr paths))]

structure ImpactContext where
  content : String
  byteLength : Nat
  contentDigest : String

def compileFettlerImpactContext (hexDigest : String → String)
    (result : ImpactResult) (maxBytes : Int) :
    Except String ImpactContext := do
  throwIf (maxBytes < 512 ∨ 262144 < maxBytes)
    "fettler_impact_context_bounds_invalid"
  let paths ← result.paths.mapM (compilePath result)
  let content := contextContent result paths
  throwIf (maxBytes < content.utf8ByteSize)
    "fettler_impact_context_too_large"
  return ⟨content, content.utf8ByteSize, sha256 hexDigest content⟩

end Mendpoint.SoftwareGraph
