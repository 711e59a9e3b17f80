import Mendpoint.Graph.Views
import Mendpoint.Library.Collation

/-!
# Queries over the graph of a tenant

The operations which planners ask, each answered from a view, and the dispatch
which opens the view of a tenant.  Sets list their members in the order of
insertion.  What the host does with texts and numbers is collected in
`Runtime`; the report on latencies, which reads no graph, is an argument.
-/

namespace Mendpoint.Graph

open Mendpoint.Library

/-! ## Queries and results -/

/-- What a program relies on its host for. -/
structure Runtime where
  numerals : Numerals
  sqliteNumeral : ℚ → String
  collation : Collation
  lowerCase : String → String
  upperCase : String → String

inductive Direction where
  | outward
  | inward
  | both
  deriving DecidableEq

/-- The operations which are answered from a view. -/
inductive ViewQuery where
  | whoConsumesProvider (providerSlug : String)
  | whoConsumesEndpoint (providerSlug path : String) (method : Option String)
  | blastRadius (nodeId : String) (maxHops : Option ℚ)
  | neighbors (nodeId : String) (edgeKinds : Option (List String))
      (direction : Option Direction)
  | neighborhood (nodeId : String) (k : Option ℚ)
  | callers (symbolId : String)
  | path (fromId toId : String) (maxHops : Option ℚ)
  | dependsOnPath (nodeId : String) (maxHops maxPaths : Option ℚ)
  | outcomesForPattern (pattern : String)
  | consumersOfField (schemaName fieldName : String)
  | brokeModesForEndpoint (operationId : String)
  | migrationReadyUnits (campaignId : String) (batchSize : Option ℚ)
  | invariantsForSymbol (qualifiedName : String)
  | timeTravelCalls (asOf : String)
  | timeTravelModifies (asOf : String) (repoId : Option String)
  | repositoryEvidence (repositoryId : String) (snapshotId : Option String)
      (evidenceTypes : Option (List String)) (limit : Option ℚ)

/-- A query; three operations are answered without a view. -/
inductive GraphQuery where
  | patternSuccessRates (minSamples : Option ℚ)
  | stats
  | latencyStats
  | inView (query : ViewQuery)

inductive Basis where
  | complete
  | partialCoverage
  | targetAbsent
  | unknown
  deriving DecidableEq

structure GraphQueryCoverage where
  basis : Basis
  reason : Option String := none

inductive TruncationReason where
  | maxHops
  | maxPaths

structure DependencyPathTruncation where
  truncated : Bool
  reasons : List TruncationReason
  maxHops : Nat
  maxPaths : Nat
  pathsReturned : Nat
  omittedPathsAtLeast : Nat

/-- A row of a result; a field without a value is undefined. -/
abbrev ResultRow := List (String × Option Json)

structure GraphQueryResult where
  op : String
  nodes : List GlNode := []
  edges : List GlEdge := []
  summary : String
  rows : Option (List ResultRow) := none
  coverage : GraphQueryCoverage
  truncation : Option DependencyPathTruncation := none

/-! ## Bounds, sets and texts -/

def hardMaxHops : Nat := 32

def hardMaxPaths : Nat := 1000

structure Bound where
  value : Nat
  clamped : Bool

/-- A bound which a caller asks for, below a ceiling. -/
def clampBound (value : Option ℚ) (fallback hardMax : Nat) : Bound :=
  match value with
  | none => { value := fallback, clamped := false }
  | some number =>
    let floored := (number.floor).toNat
    { value := min floored hardMax
      clamped := decide (min floored hardMax < floored) }

def boundedInt (value : Option ℚ) (fallback least most : Nat) : Nat :=
  match value with
  | none => fallback
  | some number => min (max (number.floor).toNat least) most

/-- `set.add(id)`. -/
def addId (set : List String) (id : String) : List String :=
  if id ∈ set then set else set ++ [id]

/-- `new Set(ids)`. -/
def idSet (ids : List String) : List String :=
  ids.foldl addId []

def endpointsOf (edges : List GlEdge) : List String :=
  edges.flatMap fun edge => [edge.source, edge.target]

def collectNodes (db : GraphLearnDb) (ids : List String) : List GlNode :=
  ids.filterMap (getNode db)

/-- `props?.[name]`. -/
def prop (props : Option Json) (name : String) : Option Json :=
  props.bind (Json.get? · name)

section Texts

variable (runtime : Runtime)

/-- `String(value ?? default)`. -/
def stringOr (value : Option Json) (default : String) : String :=
  match Json.nonNull? value with
  | some value => Json.asString runtime.numerals value
  | none => default

/-- `String(value)`, where a value may be undefined. -/
def stringOf (value : Option Json) : String :=
  match value with
  | some value => Json.asString runtime.numerals value
  | none => "undefined"

/-- `JSON.stringify(props ?? {})`. -/
def stringifyProps (props : Option Json) : String :=
  String.ofList
    (Json.chars runtime.numerals ((Json.nonNull? props).getD (.obj [])))

end Texts

def consumerRow (id : String) : ResultRow :=
  [("consumerId", some (.str (Text.dropPrefix "consumer:" id)))]

/-- Complete where an entity is there, and absent where it is not. -/
def coverageOf (found : Bool) (reason : String) : GraphQueryCoverage :=
  if found then { basis := .complete }
  else { basis := .targetAbsent, reason := some reason }

/-! ## Neighbourhoods -/

/-- The state of a search for a neighbourhood. -/
structure Blast where
  seen : List String
  seenEdges : List String
  edges : List GlEdge
  next : List String
  truncated : Bool

/-- One edge at a node of the frontier. -/
def Blast.follow (maxNodes : Nat) (id : String) (blast : Blast)
    (edge : GlEdge) : Blast :=
  let noted :=
    if edge.id ∈ blast.seenEdges then blast
    else
      { blast with
        seenEdges := blast.seenEdges ++ [edge.id]
        edges := blast.edges ++ [edge] }
  let other := if edge.source = id then edge.target else edge.source
  if other ∈ noted.seen then noted
  else if maxNodes ≤ noted.seen.length then { noted with truncated := true }
  else
    { noted with
      seen := noted.seen ++ [other]
      next := noted.next ++ [other] }

/-- Hops of a search, until none is left or the frontier is empty. -/
def Blast.hops (now : String) (db : GraphLearnDb) (maxNodes : Nat) :
    Nat → List String → Blast → Blast
  | 0, _, blast => blast
  | hops + 1, frontier, blast =>
    let after := frontier.foldl
      (fun blast id =>
        (edgesFrom now db id ++ edgesTo now db id).foldl
          (Blast.follow maxNodes id) blast)
      { blast with next := [] }
    if after.next = [] then after
    else Blast.hops now db maxNodes hops after.next after

structure Neighborhood where
  nodes : List GlNode
  edges : List GlEdge
  truncated : Bool

def blastRadius (now : String) (db : GraphLearnDb) (nodeId : String)
    (maxHops : Nat := 2) (maxNodes : Nat := hardMaxPaths) : Neighborhood :=
  let blast := Blast.hops now db maxNodes maxHops [nodeId]
    { seen := [nodeId], seenEdges := [], edges := [], next := []
      truncated := false }
  { nodes := collectNodes db blast.seen
    edges := blast.edges
    truncated := blast.truncated }

/-- The answer to `blast_radius`, under a limit as it is asked for. -/
def blastRadiusResult (now : String) (db : GraphLearnDb) (nodeId : String)
    (maxHops : Option ℚ) : GraphQueryResult :=
  let found := (getNode db nodeId).isSome
  let hops := clampBound maxHops 2 hardMaxHops
  let radius := blastRadius now db nodeId hops.value
  { op := "blast_radius"
    nodes := radius.nodes
    edges := radius.edges
    summary := "blast radius from " ++ nodeId ++ ": " ++
      toString radius.nodes.length ++ " nodes, " ++
      toString radius.edges.length ++ " edges"
    coverage :=
      if !found then
        { basis := .targetAbsent
          reason := some ("node " ++ nodeId ++ " is not in the graph") }
      else if hops.clamped || radius.truncated then
        { basis := .partialCoverage
          reason := some
            (if hops.clamped then "maxHops clamped to " ++ toString hardMaxHops
            else "result capped at " ++ toString hardMaxPaths ++ " nodes") }
      else { basis := .complete } }

/-! ## Paths -/

/-- The state of a search for a path. -/
structure PathSearch where
  prev : OrderedMap String (Option GlEdge)
  next : List String
  found : Bool

def PathSearch.follow (toId : String) (search : PathSearch) (edge : GlEdge) :
    PathSearch :=
  if search.found || search.prev.has edge.target then search
  else
    let prev := search.prev.set edge.target (some edge)
    if edge.target = toId then { search with prev := prev, found := true }
    else { search with prev := prev, next := search.next ++ [edge.target] }

def PathSearch.hops (now : String) (db : GraphLearnDb) (toId : String) :
    Nat → List String → PathSearch → PathSearch
  | 0, _, search => search
  | hops + 1, frontier, search =>
    let after := frontier.foldl
      (fun search id =>
        (edgesFrom now db id).foldl (PathSearch.follow toId) search)
      { search with next := [] }
    if after.found then after
    else PathSearch.hops now db toId hops after.next after

/-- The path back from an end, with as many steps as nodes were reached. -/
def PathSearch.trace (search : PathSearch) (fromId : String) :
    Nat → String → List String × List GlEdge → List String × List GlEdge
  | 0, _, trail => trail
  | steps + 1, current, (ids, edges) =>
    if current = "" then (ids, edges) else
    match (search.prev.get? current).join with
    | none => (current :: ids, edges)
    | some edge =>
      if current = fromId then (current :: ids, edge :: edges)
      else search.trace fromId steps edge.source
        (current :: ids, edge :: edges)

def pathResult (now : String) (db : GraphLearnDb) (fromId toId : String)
    (maxHops : Option ℚ) : GraphQueryResult :=
  let fromPresent := (getNode db fromId).isSome
  let toPresent := (getNode db toId).isSome
  let hops := clampBound maxHops 6 hardMaxHops
  let search := PathSearch.hops now db toId hops.value [fromId]
    { prev := OrderedMap.empty.set fromId none, next := [], found := false }
  if search.found then
    let (ids, edges) :=
      search.trace fromId (search.prev.size + 1) toId ([], [])
    { op := "path"
      nodes := collectNodes db ids
      edges := edges
      summary := "path length " ++ toString edges.length
      coverage := { basis := .complete }
      rows := some (ids.zipIdx.map fun (id, step) =>
        [("step", some (.num step)), ("nodeId", some (.str id))]) }
  else
    let absent := !fromPresent || !toPresent
    { op := "path"
      summary := "no path " ++ fromId ++ " → " ++ toId ++
        (if absent then " (endpoint not in graph)" else "")
      coverage :=
        if absent then
          { basis := .targetAbsent
            reason := some ((if !fromPresent then fromId else toId) ++
              " is not in the graph") }
        else if hops.clamped then
          { basis := .partialCoverage
            reason := some ("maxHops clamped to " ++ toString hardMaxHops) }
        else { basis := .complete } }

/-! ## Paths of dependencies -/

inductive Terminal where
  | leaf
  | cycle
  | maxHops
  deriving DecidableEq

def Terminal.text : Terminal → String
  | leaf => "leaf"
  | cycle => "cycle"
  | maxHops => "max_hops"

structure DependencyPath where
  rank : Nat
  nodeIds : List String
  edgeIds : List String
  hops : Nat
  terminal : Terminal
  cycleNodeId : Option String
  minConfidence : ℚ
  repositoryIds : List String

def DependencyPath.row (path : DependencyPath) : ResultRow :=
  [("rank", some (.num path.rank)),
    ("nodeIds", some (.arr (path.nodeIds.map .str))),
    ("edgeIds", some (.arr (path.edgeIds.map .str))),
    ("hops", some (.num path.hops)),
    ("terminal", some (.str path.terminal.text)),
    ("cycleNodeId", path.cycleNodeId.map .str),
    ("minConfidence", some (.num path.minConfidence)),
    ("repositoryIds", some (.arr (path.repositoryIds.map .str)))]

/-- What an enumeration of paths has so far. -/
structure Enumeration where
  paths : List DependencyPath
  includedEdges : OrderedMap String GlEdge
  pathLimitReached : Bool
  depthLimitedPaths : Nat

section Dependencies

variable (runtime : Runtime) (now : String) (db : GraphLearnDb)

/-- Greater confidence first, then by target and by id. -/
def dependencyBefore (left right : GlEdge) : Prop :=
  right.confidence.getD 1 < left.confidence.getD 1 ∨
    right.confidence.getD 1 = left.confidence.getD 1 ∧
      runtime.collation.orderedThen GlEdge.target GlEdge.id left right

instance : DecidableRel (dependencyBefore runtime) := fun _ _ =>
  inferInstanceAs (Decidable (_ ∨ _))

def Enumeration.addPath (enumeration : Enumeration) (nodeIds : List String)
    (edges : List GlEdge) (terminal : Terminal)
    (cycleNodeId : Option String := none) : Enumeration :=
  { enumeration with
    includedEdges := enumeration.includedEdges.setAll
      (edges.map fun edge => (edge.id, edge))
    paths := enumeration.paths ++
      [{ rank := enumeration.paths.length + 1
         nodeIds := nodeIds
         edgeIds := edges.map GlEdge.id
         hops := edges.length
         terminal := terminal
         cycleNodeId := cycleNodeId
         minConfidence :=
          match edges.map fun edge => edge.confidence.getD 1 with
          | [] => 1
          | first :: rest => rest.foldl min first
         repositoryIds := idSet (nodeIds.filterMap fun id =>
          ((getNode db id).bind GlNode.repoId).filter (· ≠ "")) }] }

/-- Every path from a node, with so many hops left. -/
def Enumeration.visit (maxPaths : Nat) :
    Nat → String → List String → List GlEdge → Enumeration → Enumeration
  | hopsLeft, current, nodeIds, pathEdges, enumeration =>
    let dependencies := (edgesFrom now db current
      (some ["DEPENDS_ON"])).insertionSort (dependencyBefore runtime)
    match hopsLeft with
    | 0 =>
      if dependencies ≠ [] then
        { enumeration.addPath db nodeIds pathEdges .maxHops with
          depthLimitedPaths := enumeration.depthLimitedPaths + 1 }
      else enumeration.addPath db nodeIds pathEdges .leaf
    | hopsLeft + 1 =>
      if dependencies = [] then
        enumeration.addPath db nodeIds pathEdges .leaf
      else
        dependencies.foldl
          (fun enumeration edge =>
            if maxPaths ≤ enumeration.paths.length then
              { enumeration with pathLimitReached := true }
            else if edge.target ∈ nodeIds then
              enumeration.addPath db (nodeIds ++ [edge.target])
                (pathEdges ++ [edge]) .cycle (some edge.target)
            else
              Enumeration.visit maxPaths hopsLeft edge.target
                (nodeIds ++ [edge.target]) (pathEdges ++ [edge])
                enumeration)
          enumeration

structure DependencyPathEnumeration where
  paths : List DependencyPath
  nodeIds : List String
  edges : List GlEdge
  truncation : DependencyPathTruncation
  coverage : Basis

def enumerateDependencyPaths (nodeId : String) (maxHops maxPaths : Option ℚ) :
    DependencyPathEnumeration :=
  let hops := boundedInt maxHops 8 0 hardMaxHops
  let most := boundedInt maxPaths 100 1 hardMaxPaths
  let nodePresent := (getNode db nodeId).isSome
  let start : Enumeration :=
    { paths := [], includedEdges := OrderedMap.empty
      pathLimitReached := false, depthLimitedPaths := 0 }
  let all :=
    if nodePresent then
      Enumeration.visit runtime now db most hops nodeId [nodeId] [] start
    else start
  let reasons :=
    (if all.depthLimitedPaths ≠ 0 then [TruncationReason.maxHops] else []) ++
      if all.pathLimitReached then [TruncationReason.maxPaths] else []
  { paths := all.paths
    nodeIds := idSet (all.paths.flatMap DependencyPath.nodeIds)
    edges := all.includedEdges.values
    truncation :=
      { truncated := decide (reasons ≠ [])
        reasons := reasons
        maxHops := hops
        maxPaths := most
        pathsReturned := all.paths.length
        omittedPathsAtLeast :=
          all.depthLimitedPaths + if all.pathLimitReached then 1 else 0 }
    coverage :=
      if !nodePresent then .targetAbsent
      else if reasons ≠ [] then .partialCoverage
      else .complete }

def TruncationReason.text : TruncationReason → String
  | maxHops => "max_hops"
  | maxPaths => "max_paths"

def dependsOnPathResult (nodeId : String) (maxHops maxPaths : Option ℚ) :
    GraphQueryResult :=
  let enumeration :=
    enumerateDependencyPaths runtime now db nodeId maxHops maxPaths
  let reasons := Text.join ","
    (enumeration.truncation.reasons.map TruncationReason.text)
  { op := "depends_on_path"
    nodes := collectNodes db enumeration.nodeIds
    edges := enumeration.edges
    summary := "depends_on " ++ toString enumeration.paths.length ++
      " terminal path(s) from " ++ nodeId ++
      (if enumeration.coverage = .targetAbsent then
        "; node not in graph (no evidence either way)"
      else if enumeration.truncation.truncated then
        "; truncated by " ++ reasons
      else "; complete within bounds")
    rows := some (enumeration.paths.map DependencyPath.row)
    truncation := some enumeration.truncation
    coverage :=
      match enumeration.coverage with
      | .targetAbsent =>
        { basis := .targetAbsent
          reason := some ("node " ++ nodeId ++ " is not in the graph") }
      | .partialCoverage =>
        { basis := .partialCoverage
          reason := some ("truncated by " ++ reasons) }
      | _ => { basis := .complete } }

end Dependencies

end Mendpoint.Graph
