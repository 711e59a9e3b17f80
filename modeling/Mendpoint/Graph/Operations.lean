import Mendpoint.Graph.Query

/-!
# The operations of the query layer

What each operation answers from a view, and `runGraphQuery`, which opens the
view of a tenant for all but three of them.
-/

namespace Mendpoint.Graph

open Mendpoint.Library

section Operations

variable (runtime : Runtime) (now : String) (db : GraphLearnDb)

/-! ## Consumers and neighbours -/

def whoConsumesProvider (providerSlug : String) : GraphQueryResult :=
  let providerId := "provider:" ++ providerSlug
  let edges := edgesTo now db providerId (some ["MONITORS", "CONSUMES"])
  let consumerIds := idSet (edges.map GlEdge.source)
  { op := "who_consumes_provider"
    nodes := collectNodes db (providerId :: consumerIds)
    edges := edges
    summary := toString consumerIds.length ++ " consumer(s) monitor " ++
      providerSlug
    coverage := coverageOf (getNode db providerId).isSome
      ("provider " ++ providerSlug ++ " is not in the graph")
    rows := some (consumerIds.map consumerRow) }

def whoConsumesEndpoint (providerSlug path : String)
    (method : Option String) : GraphQueryResult :=
  let endpointId := "endpoint:" ++ providerSlug ++ ":" ++
    runtime.upperCase (method.getD "ANY") ++ ":" ++ path
  let provider := whoConsumesProvider now db providerSlug
  let breakEdges := edgesTo now db endpointId (some ["BREAKS"])
  let consumeEdges := edgesTo now db endpointId (some ["CONSUMES"])
  let endpointPresent := (getNode db endpointId).isSome
  let providerAbsent := decide (provider.coverage.basis = .targetAbsent)
  { op := "who_consumes_endpoint"
    nodes := provider.nodes ++ collectNodes db [endpointId]
    edges := provider.edges ++ breakEdges ++ consumeEdges
    summary := "endpoint " ++ method.getD "" ++ " " ++ path ++ " — " ++
      toString (provider.rows.getD []).length ++ " provider consumer(s); " ++
      toString breakEdges.length ++ " break edge(s)"
    coverage :=
      if endpointPresent && !providerAbsent then { basis := .complete }
      else
        { basis := .targetAbsent
          reason := some
            (if providerAbsent then
              "provider " ++ providerSlug ++ " is not in the graph"
            else
              "endpoint " ++ method.getD "ANY" ++ " " ++ path ++
                " is not in the graph") }
    rows := provider.rows }

def neighbors (nodeId : String) (edgeKinds : Option (List String))
    (direction : Option Direction) : GraphQueryResult :=
  let way := direction.getD .both
  let outEdges :=
    if way = .inward then [] else edgesFrom now db nodeId edgeKinds
  let inEdges :=
    if way = .outward then [] else edgesTo now db nodeId edgeKinds
  let edges := outEdges ++ inEdges
  { op := "neighbors"
    nodes := collectNodes db (idSet (nodeId :: endpointsOf edges))
    edges := edges
    summary := toString edges.length ++ " neighbor edge(s)"
    coverage := coverageOf (getNode db nodeId).isSome
      ("node " ++ nodeId ++ " is not in the graph") }

def callers (symbolId : String) : GraphQueryResult :=
  let edges := edgesTo now db symbolId (some ["CALLS", "IMPACTS"])
  { op := "callers"
    nodes := collectNodes db (idSet (symbolId :: edges.map GlEdge.source))
    edges := edges
    summary := toString edges.length ++ " caller edge(s) into " ++ symbolId
    rows := some (edges.map fun edge =>
      [("from", some (.str edge.source)), ("kind", some (.str edge.kind))])
    coverage := coverageOf (getNode db symbolId).isSome
      ("symbol " ++ symbolId ++ " is not in the graph") }

/-! ## Outcomes and breaks -/

def outcomesForPattern (pattern : String) : GraphQueryResult :=
  let mentions (text : String) : Bool :=
    Text.includes (runtime.lowerCase text) (runtime.lowerCase pattern)
  let pullRequests := (listNodesByKind db "PullRequest").filter fun node =>
    mentions node.label || mentions (stringifyProps runtime node.props)
  let outcomes := ["OUTCOME_MERGED", "OUTCOME_CLOSED", "OUTCOME_BROKE"].flatMap
    fun kind => (listNodesByKind db "Consumer").flatMap fun consumer =>
      (edgesFrom now db consumer.id (some [kind])).filter fun edge =>
        mentions (stringifyProps runtime edge.props) ||
          Text.includes edge.target pattern
  let rows :=
    (pullRequests.map fun node =>
      [("pr", some (.str node.id)), ("label", some (.str node.label)),
        ("props", node.props)]) ++
      outcomes.map fun edge =>
        [("edge", some (.str edge.id)), ("kind", some (.str edge.kind)),
          ("label", edge.label.map .num)]
  { op := "outcomes_for_pattern"
    nodes := pullRequests
    edges := pullRequests.flatMap (fun node => edgesFrom now db node.id) ++
      outcomes
    summary := toString rows.length ++ " outcome hit(s) for pattern " ++
      Text.jsonText pattern
    coverage := { basis := .complete }
    rows := some rows }

def brokeModesForEndpoint (operationId : String) : GraphQueryResult :=
  let endpoints := (listNodesByKind db "Endpoint").filter fun node =>
    Text.includes (stringOr runtime (prop node.props "operation_id")
      node.label) operationId || Text.includes node.id operationId
  let broken := endpoints.flatMap fun endpoint =>
    (edgesTo now db endpoint.id (some ["BREAKS", "BROKE"])).map fun edge =>
      (endpoint, edge)
  let endpointEdges := endpoints.flatMap fun endpoint =>
    edgesTo now db endpoint.id (some ["BREAKS", "BROKE"]) ++
      edgesFrom now db endpoint.id (some ["BROKE"])
  let relatedChanges := idSet ((broken.filter fun (_, edge) =>
    decide (edge.kind = "BREAKS")).map fun (_, edge) => edge.source)
  let failures := relatedChanges.flatMap fun changeId =>
    edgesTo now db changeId (some ["BROKE"])
  let edges := endpointEdges ++ failures
  let rows :=
    (broken.map fun (endpoint, edge) =>
      [("endpoint", some (.str endpoint.id)),
        ("failure_mode", some ((Json.nonNull?
          (prop edge.props "failure_mode")).getD (.str edge.kind)))]) ++
      failures.map fun edge =>
        [("pr", some (.str edge.source)),
          ("failure_mode", prop edge.props "failure_mode")]
  { op := "broke_modes_for_endpoint"
    nodes := collectNodes db (idSet (endpointsOf edges))
    edges := edges
    summary := toString rows.length ++ " break signal(s) for " ++ operationId
    coverage := coverageOf (decide (endpoints ≠ []))
      ("endpoint operation " ++ operationId ++ " is not in the graph")
    rows := some rows }

/-! ## Fields of schemas -/

/-- What the search for the consumers of a field has found. -/
structure FieldSearch where
  edges : List GlEdge
  nodeIds : List String
  schemaIds : List String

/-- The schemas of a name which have a field of a name. -/
def fieldSchemas (schemaName fieldName : String) : FieldSearch :=
  let fields := (listNodesByKind db "Field").filter fun field =>
    decide (field.label = fieldName) ||
      decide (stringOf runtime (prop field.props "name") = fieldName)
  fields.foldl
    (fun search field =>
      (edgesTo now db field.id (some ["HAS_FIELD"])).foldl
        (fun search edge =>
          let named := (getNode db edge.source).any fun schema =>
            decide (schema.label = schemaName) ||
              decide (schema.id = schemaName) ||
              Text.endsWith schema.id (":" ++ schemaName) ||
              decide (stringOf runtime (prop schema.props "name") = schemaName)
          if named then
            { edges := search.edges ++ [edge]
              nodeIds := addId (addId search.nodeIds field.id) edge.source
              schemaIds := addId search.schemaIds edge.source }
          else search)
        search)
    { edges := [], nodeIds := [], schemaIds := [] }

/-- What the search for the endpoints of schemas has found. -/
structure EndpointSearch where
  edges : List GlEdge
  nodeIds : List String
  endpointIds : List String
  scanBudget : Nat
  scanTruncated : Bool

/-- One endpoint is compared, as long as comparisons are left. -/
def EndpointSearch.compare (path method : String) (search : EndpointSearch)
    (endpoint : GlNode) : EndpointSearch :=
  if search.scanTruncated then search
  else if search.scanBudget = 0 then { search with scanTruncated := true }
  else if stringOf runtime (prop endpoint.props "path") = path ∧
      (method = "" ∨ runtime.upperCase
        (stringOf runtime (prop endpoint.props "method")) = method) then
    { search with
      scanBudget := search.scanBudget - 1
      endpointIds := addId search.endpointIds endpoint.id
      nodeIds := addId search.nodeIds endpoint.id }
  else { search with scanBudget := search.scanBudget - 1 }

/-- The endpoints of one schema, by its edges and by path and method. -/
def EndpointSearch.schema (allEndpoints : List GlNode)
    (search : EndpointSearch) (schemaId : String) : EndpointSearch :=
  if search.scanTruncated then search
  else
    let direct := (edgesTo now db schemaId (some ["HAS_SCHEMA"])).foldl
      (fun search edge =>
        { search with
          edges := search.edges ++ [edge]
          endpointIds := addId search.endpointIds edge.source
          nodeIds := addId search.nodeIds edge.source })
      search
    let props := (getNode db schemaId).bind GlNode.props
    let path := stringOr runtime (prop props "path") ""
    let method := runtime.upperCase
      (stringOr runtime (prop props "method") "")
    if path = "" then direct
    else allEndpoints.foldl
      (EndpointSearch.compare runtime path method) direct

def consumersOfField (schemaName fieldName : String) : GraphQueryResult :=
  let found := fieldSchemas runtime now db schemaName fieldName
  let endpoints := found.schemaIds.foldl
    (EndpointSearch.schema runtime now db (listNodesByKind db "Endpoint"))
    { edges := found.edges, nodeIds := found.nodeIds, endpointIds := []
      scanBudget := hardMaxPaths, scanTruncated := false }
  let providerEdges := endpoints.endpointIds.flatMap fun endpointId =>
    edgesTo now db endpointId (some ["HAS_ENDPOINT"])
  let endpointEdges := endpoints.endpointIds.flatMap fun endpointId =>
    edgesTo now db endpointId (some ["HAS_ENDPOINT"]) ++
      edgesTo now db endpointId (some ["CONSUMES"])
  let consumerEdges := endpoints.endpointIds.flatMap fun endpointId =>
    edgesTo now db endpointId (some ["CONSUMES"])
  let providerIds := idSet (providerEdges.map GlEdge.source)
  let monitorEdges := providerIds.flatMap fun providerId =>
    edgesTo now db providerId (some ["MONITORS", "CONSUMES"])
  let consumerIds :=
    idSet ((consumerEdges ++ monitorEdges).map GlEdge.source)
  let nodeIds := (providerEdges.map GlEdge.source ++ consumerIds).foldl
    addId endpoints.nodeIds
  { op := "consumers_of_field"
    nodes := collectNodes db nodeIds
    edges := endpoints.edges ++ endpointEdges ++ monitorEdges
    summary := "field " ++ schemaName ++ "." ++ fieldName ++ ": " ++
      toString consumerIds.length ++ " consumer(s)"
    coverage :=
      if found.schemaIds = [] then
        { basis := .targetAbsent
          reason := some ("field " ++ schemaName ++ "." ++ fieldName ++
            " is not in the graph") }
      else if endpoints.scanTruncated then
        { basis := .partialCoverage
          reason := some
            ("endpoint scan capped at " ++ toString hardMaxPaths) }
      else { basis := .complete }
    rows := some (consumerIds.map fun id => consumerRow id ++
      [("schemaName", some (.str schemaName)),
        ("fieldName", some (.str fieldName))]) }

/-! ## Migrations and invariants -/

/-- Whether a status is that of a unit which is done. -/
def completeStatus (status : String) : Bool :=
  decide (status = "complete") || decide (status = "done")

def statusOf (node : Option GlNode) (default : String) : String :=
  stringOr runtime (prop (node.bind GlNode.props) "status") default

def migrationReadyUnits (campaignId : String) (batchSize : Option ℚ) :
    GraphQueryResult :=
  let units := (listNodesByKind db "MigrationUnit").filter fun node =>
    decide (stringOr runtime (prop node.props "campaign_id") "" = campaignId)
  let dependsOnPopulated := (listNodesByKind db "MigrationUnit").any fun unit =>
    (edgesFrom now db unit.id (some ["DEPENDS_ON"])).any fun edge =>
      (getNode db edge.target).any fun node =>
        decide (node.kind = "MigrationUnit")
  if dependsOnPopulated then
    let readyUnits := units.filter fun unit =>
      !completeStatus (statusOf runtime (some unit) "") &&
        (edgesFrom now db unit.id (some ["DEPENDS_ON"])).all fun edge =>
          completeStatus (statusOf runtime (getNode db edge.target) "")
    let count : ℚ := readyUnits.length
    let size := min (max (batchSize.getD count) 0) count
    let batch := readyUnits.take size.floor.toNat
    let edges := batch.flatMap fun unit =>
      edgesFrom now db unit.id (some ["DEPENDS_ON"])
    { op := "migration_ready_units"
      nodes := collectNodes db
        (idSet (batch.map GlNode.id ++ endpointsOf edges))
      edges := edges
      summary := toString batch.length ++ " ready unit(s) for campaign " ++
        campaignId
      coverage := { basis := .complete }
      rows := some (batch.map fun unit =>
        [("unitId", some (.str unit.id)), ("label", some (.str unit.label)),
          ("status",
            some (.str (statusOf runtime (some unit) "pending")))]) }
  else
    { op := "migration_ready_units"
      summary := "migration readiness unavailable for campaign " ++ campaignId
      coverage :=
        { basis := .targetAbsent
          reason := some
            "MigrationUnit DEPENDS_ON is not populated by any ingest path" }
      rows := some [] }

/-- The row of an invariant which a symbol is annotated with. -/
def invariantRow (edge : GlEdge) : ResultRow :=
  let invariant := getNode db edge.target
  let symbol := getNode db edge.source
  let invariantProps := invariant.bind GlNode.props
  [("symbol", some (.str ((symbol.map GlNode.label).getD edge.source))),
    ("qualifiedName", some (.str (stringOr runtime
      (prop (symbol.bind GlNode.props) "qualified_name") ""))),
    ("statement", some (.str (stringOr runtime
      (prop invariantProps "statement")
      ((invariant.map GlNode.label).getD "")))),
    ("invariantId", some (.str edge.target)),
    ("source", some (.str (stringOr runtime (prop edge.props "source")
      (stringOr runtime (prop invariantProps "source") "annotation")))),
    ("confidenceBasis", some (.str (stringOr runtime
      (prop edge.props "confidence_basis") ""))),
    ("confidence", some ((edge.confidence.map Json.num).getD .null)),
    ("verified", some (.bool (match prop edge.props "verified" with
      | some (.bool true) => true
      | _ => false)))]

def invariantsForSymbol (needle : String) : GraphQueryResult :=
  let populated := (listAllEdges db).any fun edge =>
    decide (edge.kind = "PRESERVES_INVARIANT")
  let symbols := (listNodesByKind db "Symbol").filter fun node =>
    let qualified := stringOr runtime (prop node.props "qualified_name") ""
    decide (node.label = needle) || decide (qualified = needle) ||
      Text.endsWith qualified ("::" ++ needle) ||
      Text.endsWith node.id (":" ++ needle)
  let edges := symbols.flatMap fun symbol =>
    edgesFrom now db symbol.id (some ["PRESERVES_INVARIANT"])
  let unavailable (reason : String) : GraphQueryResult :=
    { op := "invariants_for_symbol"
      summary := "invariant coverage unavailable for " ++ needle
      coverage := { basis := .targetAbsent, reason := some reason }
      rows := some [] }
  if !populated then
    unavailable "PRESERVES_INVARIANT is not populated by any ingest path"
  else if symbols = [] then
    unavailable ("symbol " ++ needle ++ " is not in the graph")
  else if edges = [] then
    { op := "invariants_for_symbol"
      nodes := collectNodes db (idSet (symbols.map GlNode.id))
      summary := "no source-annotated invariants recorded for " ++ needle
      coverage :=
        { basis := .targetAbsent
          reason := some (needle ++ " has no PRESERVES_INVARIANT annotation" ++
            "; absence of an annotation is not proof it preserves nothing") }
      rows := some [] }
  else
    { op := "invariants_for_symbol"
      nodes := collectNodes db
        (idSet (symbols.map GlNode.id ++ edges.map GlEdge.target))
      edges := edges
      summary := toString edges.length ++
        " invariant(s) from source annotations for " ++ needle ++
        " (unverified)"
      coverage := { basis := .complete }
      rows := some (edges.map (invariantRow runtime db)) }

/-! ## Earlier instants -/

def timeTravelCalls (asOf : String) : GraphQueryResult :=
  let edges := (listNodesByKind db "Symbol").flatMap fun symbol =>
    edgesFrom now db symbol.id (some ["CALLS"]) { asOf := some asOf }
  { op := "time_travel_calls"
    nodes := collectNodes db (idSet (endpointsOf edges))
    edges := edges
    summary := toString edges.length ++ " CALLS edge(s) valid at " ++ asOf
    coverage := { basis := .complete } }

def timeTravelEdgeCap : Nat := 5000

/-- One edge a commit and file, by preference the one which modifies. -/
def temporalEdges (edges : List GlEdge) : OrderedMap (String × String) GlEdge :=
  edges.foldl
    (fun temporal edge =>
      let key := (edge.source, edge.target)
      if edge.sourceSystem ≠ some "git" then temporal
      else if !temporal.has key || decide (edge.kind = "MODIFIES") then
        temporal.set key edge
      else temporal)
    OrderedMap.empty

def timeTravelModifies (asOf : String) (repoId : Option String) :
    GraphQueryResult :=
  let found := edgesByKindAt db ["MODIFIES", "TOUCHES"] asOf timeTravelEdgeCap
  let needle := repoId.getD ""
  let edges := (temporalEdges found).values.filter fun edge =>
    decide (needle = "") || Text.includes edge.source needle ||
      Text.includes edge.target needle
  { op := "time_travel_modifies"
    nodes := collectNodes db (idSet (endpointsOf edges))
    edges := edges
    summary := toString edges.length ++ " MODIFIES edge(s) valid at " ++ asOf
    coverage :=
      if timeTravelEdgeCap ≤ found.length then
        { basis := .partialCoverage
          reason := some ("temporal slice capped at " ++
            toString timeTravelEdgeCap ++ " edges") }
      else { basis := .complete }
    rows := some ((edges.take 50).map fun edge =>
      [("id", some (.str edge.id)), ("from", some (.str edge.source)),
        ("to", some (.str edge.target)),
        ("valid_from", edge.validFrom.map .str),
        ("valid_to", some ((edge.validTo.map Json.str).getD .null))]) }

/-! ## Evidence of repositories -/

/-- The fields of a row of evidence, and the properties they show. -/
def evidenceFields : List (String × String) :=
  [("id", "evidence_id"), ("type", "evidence_type"),
    ("observedAt", "observed_at"), ("repositoryId", "repository_id"),
    ("snapshotId", "snapshot_id"), ("exactCommit", "exact_commit"),
    ("operation", "operation"), ("status", "status"),
    ("durationMs", "duration_ms"), ("suite", "suite"),
    ("linesPercent", "lines_percent"), ("branchesPercent", "branches_percent"),
    ("reportPath", "report_path"), ("codeownersPath", "codeowners_path"),
    ("owners", "owners"), ("matchedPaths", "matched_paths"),
    ("provider", "provider"), ("workflow", "workflow"), ("job", "job"),
    ("conclusion", "conclusion"), ("runId", "run_id"), ("runUrl", "run_url"),
    ("environment", "environment"), ("deploymentId", "deployment_id"),
    ("artifactSha256", "artifact_sha256"), ("collectorId", "collector_id"),
    ("collectorVersion", "collector_version"),
    ("bindingKind", "binding_kind"), ("boundEvidenceId", "bound_evidence_id"),
    ("payloadSha256", "payload_sha256")]

/-- Evidence for a snapshot, with the edge between them. -/
structure EvidenceItem where
  snapshot : GlNode
  edge : GlEdge
  evidence : GlNode

/-- Whether a property is a given text, as `===` tells. -/
def propIs (props : Option Json) (name text : String) : Bool :=
  match prop props name with
  | some (.str value) => decide (value = text)
  | _ => false

def repositoryEvidence (repositoryId : String) (snapshotId : Option String)
    (evidenceTypes : Option (List String)) (limit : Option ℚ) :
    GraphQueryResult :=
  let wanted := snapshotId.getD ""
  let snapshots := ((listNodesByKind db "RepositorySnapshot").filter
    fun node => propIs node.props "repository_id" repositoryId &&
      (decide (wanted = "") || propIs node.props "snapshot_id" wanted)
    ).insertionSort fun left right =>
      runtime.collation.le
        (stringOr runtime (prop right.props "captured_at") "")
        (stringOr runtime (prop left.props "captured_at") "") = true
  let allowedTypes := evidenceTypes.getD []
  let available := ((snapshots.flatMap fun snapshot =>
    (edgesTo now db snapshot.id (some ["EVIDENCES"])).filterMap fun edge =>
      (getNode db edge.source).map fun evidence =>
        EvidenceItem.mk snapshot edge evidence).filter fun item =>
    decide (allowedTypes = []) || allowedTypes.contains
      (stringOf runtime (prop item.evidence.props "evidence_type"))
    ).insertionSort fun left right =>
      runtime.collation.le
        (stringOr runtime (prop right.evidence.props "observed_at") "")
        (stringOr runtime (prop left.evidence.props "observed_at") "") = true
  let most := max 1 (min 100 (limit.getD 50))
  let selected := available.take most.floor.toNat
  let selectedIds := idSet (selected.map fun item => item.snapshot.id)
  { op := "repository_evidence"
    nodes := (snapshots.filter fun node => selectedIds.contains node.id) ++
      selected.map EvidenceItem.evidence
    edges := selected.map EvidenceItem.edge
    summary := toString selected.length ++ " of " ++
      toString available.length ++ " repository evidence record(s)"
    coverage :=
      if snapshots.length = 0 then
        { basis := .targetAbsent
          reason := some
            (if wanted ≠ "" then
              "snapshot " ++ wanted ++ " for repository " ++ repositoryId ++
                " is not in the graph"
            else
              "repository " ++ repositoryId ++
                " has no snapshot in the graph") }
      else if selected.length < available.length then
        { basis := .partialCoverage
          reason := some ("capped at limit " ++
            String.ofList (runtime.numerals.text most) ++ " of " ++
            toString available.length ++ " available") }
      else { basis := .complete }
    rows := some (selected.map fun item =>
      evidenceFields.map fun field =>
        (field.1, prop item.evidence.props field.2)) }

/-! ## Dispatch -/

def runGraphQueryInner : ViewQuery → GraphQueryResult
  | .whoConsumesProvider providerSlug =>
    whoConsumesProvider now db providerSlug
  | .whoConsumesEndpoint providerSlug path method =>
    whoConsumesEndpoint runtime now db providerSlug path method
  | .blastRadius nodeId maxHops => blastRadiusResult now db nodeId maxHops
  | .neighbors nodeId edgeKinds direction =>
    neighbors now db nodeId edgeKinds direction
  | .neighborhood nodeId k =>
    blastRadiusResult now db nodeId (some (k.getD 1))
  | .callers symbolId => callers now db symbolId
  | .path fromId toId maxHops => pathResult now db fromId toId maxHops
  | .dependsOnPath nodeId maxHops maxPaths =>
    dependsOnPathResult runtime now db nodeId maxHops maxPaths
  | .outcomesForPattern pattern => outcomesForPattern runtime now db pattern
  | .consumersOfField schemaName fieldName =>
    consumersOfField runtime now db schemaName fieldName
  | .brokeModesForEndpoint operationId =>
    brokeModesForEndpoint runtime now db operationId
  | .migrationReadyUnits campaignId batchSize =>
    migrationReadyUnits runtime now db campaignId batchSize
  | .invariantsForSymbol qualifiedName =>
    invariantsForSymbol runtime now db qualifiedName
  | .timeTravelCalls asOf => timeTravelCalls now db asOf
  | .timeTravelModifies asOf repoId => timeTravelModifies db asOf repoId
  | .repositoryEvidence repositoryId snapshotId evidenceTypes limit =>
    repositoryEvidence runtime now db repositoryId snapshotId evidenceTypes
      limit

def PatternRow.row (row : PatternRow) : ResultRow :=
  [("pattern", some (.str row.pattern)), ("samples", some (.num row.samples)),
    ("successRate", some (.num row.successRate)), ("ok", some (.num row.ok)),
    ("fail", some (.num row.fail))]

def GraphStats.row (stats : GraphStats) : ResultRow :=
  [("nodes", some (.num stats.nodes)), ("edges", some (.num stats.edges)),
    ("path", some (.str stats.path)), ("exists", some (.bool stats.exists_)),
    ("schema", some (.str stats.schema))]

/-- A query of a tenant; the report on latencies is what the process has. -/
def runGraphQuery (latency : GraphQueryResult) (query : GraphQuery)
    (scope : GraphTenantScope) : Except String GraphQueryResult :=
  if scope.tenantId = "" then .error "graph_tenant_scope_required"
  else
    .ok <| match query with
      | .patternSuccessRates minSamples =>
        let least := minSamples.getD 1
        let rows := tenantPatternSuccessRows runtime.numerals now db scope
          least
        { op := "pattern_success_rates"
          summary := toString rows.length ++ " pattern(s) with >=" ++
            String.ofList (runtime.numerals.text least) ++ " samples"
          rows := some (rows.map PatternRow.row)
          coverage := { basis := .complete } }
      | .stats =>
        let stats := tenantGraphStats runtime.numerals db scope
        { op := "stats"
          summary := toString stats.nodes ++ " nodes, " ++
            toString stats.edges ++ " edges"
          rows := some [stats.row]
          coverage := { basis := .complete } }
      | .latencyStats => latency
      | .inView query =>
        runGraphQueryInner runtime now
          (createTenantGraphView runtime.numerals runtime.sqliteNumeral now
            db scope) query

end Operations

end Mendpoint.Graph
