import Mendpoint.Calls.Types
import Mendpoint.Library.PosixPath

/-!
# Building a call graph from captured sources

The builder walks the captured sources of a repository, extracts functions,
calls, instantiations and the type hierarchy of each code file, resolves every
call against the functions of the whole repository, and assembles the graph.

The per-file extraction is a parameter, `Extractor`: the builder does not
depend on how functions and calls are recognised, only on two facts about what
is recognised, which are fields of the structure.  Snapshots are the captured
source maps; walking a mutable repository on disk is not modelled.
-/

namespace Mendpoint.Calls

open Mendpoint.Library

/-! ## Paths -/

/-- The extension of a path, with its dot, or the empty text. -/
def fileExtension (path : String) : String :=
  let name := Text.lastPart (Text.splitOn '/' path) path
  let parts := Text.splitOn '.' name
  if parts.length ≤ 1 then "" else "." ++ Text.lastPart parts ""

/-- Extensions whose files the front end analyses. -/
def codeExts : List String :=
  [".ts", ".tsx", ".js", ".jsx", ".mjs", ".cjs", ".py"]

/-- Whether the walk collects a path as a code file. -/
def isCodeFile (path : String) : Bool :=
  decide (fileExtension path ∈ codeExts)

/-- Language of a path. -/
def langOf (file : String) : Language :=
  if Text.endsWith file ".py" then .python
  else if Text.endsWith file ".ts" || Text.endsWith file ".tsx" then
    .typescript
  else if [".js", ".jsx", ".mjs", ".cjs"].any (Text.endsWith file) then
    .javascript
  else .other

/-- Whether a repository path names a test file. -/
def isTestPath (rel : String) : Bool :=
  ((Text.splitOn '/' rel).any fun segment =>
      decide (Text.lowerCase segment ∈
        ["test", "tests", "__tests__", "spec"])) ||
    [".test.ts", ".test.js", ".test.tsx", ".test.jsx",
      ".spec.ts", ".spec.js", ".spec.tsx", ".spec.jsx",
      "_test.py"].any (Text.endsWith rel)

/--
Captured sources: file texts under repository-relative paths.

A build rejects a captured path which does not resolve to itself below the
root; file names with a backslash are not represented.
-/
structure Snapshot where
  texts : OrderedMap String String
  canonical :
    ∀ rel ∈ texts.keys, PosixPath.Canonical rel ∧ '\\' ∉ rel.toList

/-- The captured text of a repository-relative path. -/
def Snapshot.get? (sources : Snapshot) (rel : String) : Option String :=
  sources.texts.get? rel

/-- `sources.get(resolve(join(root, rel)))`. -/
def Snapshot.getJoined (sources : Snapshot) (root rel : String) :
    Option String :=
  (PosixPath.joined root rel).bind sources.get?

/-- `sources.has(resolve(root, rel))`. -/
def Snapshot.hasResolved (sources : Snapshot) (root rel : String) : Bool :=
  ((PosixPath.resolved root rel).bind sources.get?).isSome

variable {sources : Snapshot} {rel text : String}

theorem Snapshot.canonical_of_get? (found : sources.get? rel = some text) :
    PosixPath.Canonical rel :=
  (sources.canonical rel
    ((OrderedMap.mem_keys_iff _ _).mpr ⟨text, found⟩)).1

theorem Snapshot.getJoined_of_get? (root : String)
    (found : sources.get? rel = some text) :
    sources.getJoined root rel = some text := by
  rw [getJoined,
    PosixPath.joined_canonical root (canonical_of_get? found)]
  exact found

theorem Snapshot.hasResolved_of_get? (root : String)
    (found : sources.get? rel = some text) :
    sources.hasResolved root rel = true := by
  rw [hasResolved,
    PosixPath.resolved_canonical root (canonical_of_get? found),
    Option.bind_some, found]
  rfl

/-! ## Extraction -/

/-- What is recognised as a function in a file. -/
structure ExtractedFn where
  name : String
  lineStart : Nat
  lineEnd : Nat
  body : String
  enclosingType : Option String

/-- A function with the file it comes from. -/
structure RawFn where
  name : String
  filePath : String
  lineStart : Nat
  lineEnd : Nat
  body : String
  language : Language
  enclosingType : Option String
  isTest : Bool

/-- What is recognised as a call in a function body. -/
structure ExtractedCall where
  calleeName : String
  calleeReceiver : Option String
  line : Nat

/-- A call with its calling function. -/
structure RawCall where
  callerKey : String
  calleeName : String
  calleeReceiver : Option String
  filePath : String
  line : Nat

/--
The per-file front end.

Function names are identifiers, so they contain neither the `@` nor the `:` of
a node identifier, and at most one function starts on a line.  `pathLe` is the
locale's order on paths.
-/
structure Extractor where
  functions : String → String → List ExtractedFn
  calls : RawFn → List ExtractedCall
  instantiations : String → List String
  hierarchy : String → Language → OrderedMap String (List String)
  hashBody : String → String
  signature : RawFn → Option String
  pathLe : String → String → Bool
  name_plain :
    ∀ {path text fn}, fn ∈ functions path text →
      '@' ∉ fn.name.toList ∧ ':' ∉ fn.name.toList
  lineStart_distinct :
    ∀ path text, ((functions path text).map (·.lineStart)).Nodup

/-- Node identifier: `filePath::name@lineStart`. -/
def nodeId (filePath name : String) (lineStart : Nat) : String :=
  filePath ++ "::" ++ name ++ "@" ++ toString lineStart

/-- The functions of one file. -/
def extractFunctions (extractor : Extractor) (rel text : String) :
    List RawFn :=
  (extractor.functions rel text).map fun fn =>
    { name := fn.name
      filePath := rel
      lineStart := fn.lineStart
      lineEnd := fn.lineEnd
      body := fn.body
      language := langOf rel
      enclosingType := fn.enclosingType
      isTest := isTestPath rel }

/-- The node identifier of a function. -/
def RawFn.key (fn : RawFn) : String :=
  nodeId fn.filePath fn.name fn.lineStart

/-- The calls of one function. -/
def extractCalls (extractor : Extractor) (fn : RawFn) : List RawCall :=
  (extractor.calls fn).map fun call =>
    { callerKey := fn.key
      calleeName := call.calleeName
      calleeReceiver := call.calleeReceiver
      filePath := fn.filePath
      line := call.line }

/-- A text that is present and not empty. -/
def isPresent (text : Option String) : Bool :=
  decide (text.getD "" ≠ "")

/-- The graph node of a function. -/
def RawFn.node (extractor : Extractor) (fn : RawFn) : FunctionNode where
  id := fn.key
  qualifiedName :=
    fn.filePath ++ ":" ++
      (if isPresent fn.enclosingType then
        fn.enclosingType.getD "" ++ "."
      else "") ++ fn.name
  name := fn.name
  filePath := fn.filePath
  lineStart := fn.lineStart
  lineEnd := fn.lineEnd
  language := fn.language
  enclosingType := fn.enclosingType
  isExternalApi := false
  isTest := fn.isTest
  signature := extractor.signature fn
  bodyHash := some (extractor.hashBody fn.body)

/-! ## Resolution -/

/-- A target of a call, with how it was found. -/
structure ResolvedTarget where
  node : FunctionNode
  resolution : CallResolution
  confidence : CallEdgeConfidence
  virtual : Bool

/-- Functions grouped by simple name. -/
def indexByName (nodes : List FunctionNode) :
    OrderedMap String (List FunctionNode) :=
  OrderedMap.collect (nodes.map fun node => (node.name, node))

/-- The functions a receiver-based call may mean. -/
def typedHits (call : RawCall) (receiver : String)
    (nameHits : List FunctionNode) : List FunctionNode :=
  nameHits.filter fun node =>
    decide (node.enclosingType = some receiver) ||
      (decide (node.name = call.calleeName) &&
        Text.includes node.qualifiedName receiver)

/-- Instantiated types and the children of instantiated types. -/
def expandedTypes (hierarchy : TypeHierarchy) : List String :=
  hierarchy.instantiated ++
    (hierarchy.parentsOf.entries.filter fun entry =>
      entry.2.any fun parent =>
        decide (parent ∈ hierarchy.instantiated)).map Prod.fst

/-- Keep the methods of the given types; no type, or no survivor, keeps all. -/
def methodsOfTypes (types : List String)
    (typedMethods : List FunctionNode) : List FunctionNode :=
  let filtered := typedMethods.filter fun node =>
    !isPresent node.enclosingType ||
      decide (node.enclosingType.getD "" ∈ types) || types.isEmpty
  if filtered.isEmpty then typedMethods else filtered

/-- Class-hierarchy and rapid-type analysis over the methods hit by name. -/
def dispatchTargets (hierarchy : TypeHierarchy) (algorithm : Algorithm)
    (typedMethods : List FunctionNode) : List ResolvedTarget :=
  let filtered :=
    if algorithm = .cha then typedMethods
    else methodsOfTypes (expandedTypes hierarchy) typedMethods
  filtered.map fun node =>
    { node := node
      resolution := if algorithm = .cha then .cha else .rta
      confidence := if filtered.length = 1 then .high else .medium
      virtual := true }

/-- A single target found without approximation. -/
def directTarget (node : FunctionNode) : ResolvedTarget where
  node := node
  resolution := .direct
  confidence := .high
  virtual := false

/-- Resolution once name, file and receiver have not decided the call. -/
def approximateTargets (hierarchy : TypeHierarchy) (algorithm : Algorithm)
    (nameHits : List FunctionNode) : List ResolvedTarget :=
  let typedMethods := nameHits.filter fun node =>
    isPresent node.enclosingType
  if algorithm ≠ .name ∧ typedMethods ≠ [] then
    dispatchTargets hierarchy algorithm typedMethods
  else
    nameHits.map fun node =>
      { node := node
        resolution := .nameMatch
        confidence := .low
        virtual := true }

/-- The functions of an application that a call may reach. -/
def resolveTargets (call : RawCall)
    (byName : OrderedMap String (List FunctionNode))
    (hierarchy : TypeHierarchy) (algorithm : Algorithm) :
    List ResolvedTarget :=
  let nameHits := byName.getD call.calleeName []
  match nameHits with
  | [] => []
  | [only] => [directTarget only]
  | _ =>
    match nameHits.filter fun node =>
        decide (node.filePath = call.filePath) with
    | [only] => [directTarget only]
    | _ =>
      let receiver := call.calleeReceiver.getD ""
      let typed := typedHits call receiver nameHits
      if receiver ≠ "" ∧ receiver ≠ "this" ∧ typed ≠ [] then
        typed.map fun node =>
          { node := node
            resolution := .importContext
            confidence := .medium
            virtual := false }
      else approximateTargets hierarchy algorithm nameHits

/-! ## Assembly -/

/-- Options of a build. -/
structure BuildCallGraphOptions where
  algorithm : Option Algorithm := none
  excludeTests : Bool := false

/-- The code files of a snapshot, in path order. -/
def walkCapturedSources (extractor : Extractor) (sources : Snapshot) :
    List String :=
  (sources.texts.keys.filter isCodeFile).insertionSort fun left right =>
    extractor.pathLe left right = true

/-- The files, with their texts, that a build reads from a list of paths. -/
def readSources (options : BuildCallGraphOptions)
    (lookup : String → Option String) (files : List String) :
    List (String × String) :=
  files.filterMap fun rel =>
    if options.excludeTests && isTestPath rel then none
    else (lookup rel).map fun text => (rel, text)

/-- The functions of a list of files. -/
def rawFunctions (extractor : Extractor)
    (texts : List (String × String)) : List RawFn :=
  texts.flatMap fun file => extractFunctions extractor file.1 file.2

/-- `[...new Set(values)]`. -/
def uniq (values : List String) : List String :=
  values.eraseDups

@[simp]
theorem mem_uniq {values : List String} {value : String} :
    value ∈ uniq values ↔ value ∈ values :=
  List.mem_eraseDups

theorem uniq_cons (value : String) (rest : List String) :
    uniq (value :: rest) =
      value :: uniq (rest.filter fun other => !(other == value)) :=
  List.eraseDups_cons

theorem uniq_eq_self {values : List String} (distinct : values.Nodup) :
    uniq values = values := by
  induction values with
  | nil => rfl
  | cons value rest inductionHypothesis =>
    rw [List.nodup_cons] at distinct
    have kept : (rest.filter fun other => !(other == value)) = rest := by
      rw [List.filter_eq_self]
      intro other member
      have different : other ≠ value := by
        rintro rfl
        exact distinct.1 member
      simp [different]
    rw [uniq_cons, kept, inductionHypothesis distinct.2]

theorem nodup_uniq (values : List String) : (uniq values).Nodup := by
  cases values with
  | nil => exact List.nodup_nil
  | cons value rest =>
    rw [uniq_cons, List.nodup_cons]
    refine ⟨?_, nodup_uniq _⟩
    simp
termination_by values.length
decreasing_by
  have shorter := List.length_filter_le
    (fun other => !(other == value)) rest
  simp only [List.length_cons]
  omega

/-- Methods declared by type, in declaration order. -/
def methodsOfType (fns : List RawFn) : OrderedMap String (List String) :=
  OrderedMap.collect
    ((fns.filter fun fn => isPresent fn.enclosingType).map fun fn =>
      (fn.enclosingType.getD "", fn.name))

/-- The type hierarchy of a list of files. -/
def fileHierarchy (extractor : Extractor)
    (texts : List (String × String)) : TypeHierarchy where
  parentsOf :=
    texts.foldl
      (fun parents file =>
        parents.setAll
          (extractor.hierarchy file.2 (langOf file.1)).entries) ∅
  instantiated :=
    uniq (texts.flatMap fun file => extractor.instantiations file.2)
  methodsOfType := methodsOfType (rawFunctions extractor texts)

/-- The edge of a resolved call. -/
def callEdge (call : RawCall) (target : ResolvedTarget) : CallEdge where
  id := call.callerKey ++ "->" ++ target.node.id ++ "@" ++
    toString call.line
  callerId := call.callerKey
  calleeId := target.node.id
  callSiteFile := call.filePath
  callSiteLine := call.line
  resolution := target.resolution
  confidence := target.confidence
  virtual := target.virtual

/-- The edges of one call; a call to its own function is skipped. -/
def callEdges (byName : OrderedMap String (List FunctionNode))
    (hierarchy : TypeHierarchy) (algorithm : Algorithm)
    (call : RawCall) : List CallEdge :=
  ((resolveTargets call byName hierarchy algorithm).filter fun target =>
    decide (target.node.id ≠ call.callerKey)).map (callEdge call)

/-- Add an edge unless its identifier is taken. -/
def addEdge (edges : List CallEdge) (edge : CallEdge) : List CallEdge :=
  if edge.id ∈ edges.map (·.id) then edges else edges ++ [edge]

/-- The edges of the calls of a list of functions, first of each identifier. -/
def resolveCalls (extractor : Extractor)
    (byName : OrderedMap String (List FunctionNode))
    (hierarchy : TypeHierarchy) (algorithm : Algorithm)
    (fns : List RawFn) : List CallEdge :=
  (fns.flatMap fun fn =>
    (extractCalls extractor fn).flatMap
      (callEdges byName hierarchy algorithm)).foldl addEdge []

/-- Edge identifiers grouped by an endpoint. -/
def indexEdges (endpoint : CallEdge → String) (edges : List CallEdge) :
    OrderedMap String (List String) :=
  OrderedMap.collect (edges.map fun edge => (endpoint edge, edge.id))

/-- Counts over nodes and edges. -/
def graphStats (nodes : NodeTable) (edges counted : List CallEdge) :
    GraphStats where
  nodeCount := nodes.ids.length
  edgeCount := edges.length
  directEdges :=
    (counted.filter fun edge => decide (edge.resolution = .direct)).length
  approxEdges :=
    (counted.filter fun edge => decide (edge.resolution ≠ .direct)).length

/-- The call graph of a list of file texts. -/
def assemble (extractor : Extractor) (repoRoot : String)
    (options : BuildCallGraphOptions) (texts : List (String × String)) :
    CallGraph :=
  let algorithm := options.algorithm.getD .hybrid
  let fns := rawFunctions extractor texts
  let functionNodes := fns.map (RawFn.node extractor)
  let nodes := (∅ : NodeTable).insertAll functionNodes
  let hierarchy := fileHierarchy extractor texts
  let edges :=
    resolveCalls extractor (indexByName functionNodes) hierarchy algorithm
      fns
  { repoRoot := repoRoot
    algorithm := algorithm
    nodes := nodes
    edges := edges
    outEdges := indexEdges (·.callerId) edges
    inEdges := indexEdges (·.calleeId) edges
    byName :=
      OrderedMap.collect
        (functionNodes.map fun node => (node.name, node.id))
    hierarchy := hierarchy
    stats := graphStats nodes edges edges }

/-- Build the call graph of captured sources. -/
def buildCallGraph (extractor : Extractor) (repoRoot : String)
    (sources : Snapshot) (options : BuildCallGraphOptions) : CallGraph :=
  assemble extractor repoRoot options
    (readSources options sources.get?
      (walkCapturedSources extractor sources))

/-- The edges whose endpoints are nodes. -/
def liveEdges (nodes : NodeTable) (edges : List CallEdge) :
    List CallEdge :=
  edges.filter fun edge =>
    (nodes.get? edge.callerId).isSome && (nodes.get? edge.calleeId).isSome

/-- Rebuild the indices and counts of a graph from its nodes and edges. -/
def rebuildAdjacency (graph : CallGraph) : CallGraph :=
  let live := liveEdges graph.nodes graph.edges
  { graph with
    outEdges := indexEdges (·.callerId) live
    inEdges := indexEdges (·.calleeId) live
    byName :=
      OrderedMap.collect
        (graph.nodes.values.map fun node => (node.name, node.id))
    stats := graphStats graph.nodes graph.edges live }

/-- The hierarchy without types. -/
def emptyHierarchy : TypeHierarchy where
  parentsOf := ∅
  instantiated := []
  methodsOfType := ∅

/-- Merge two hierarchies; parents of the second replace those of the first. -/
def mergeHierarchies (first second : TypeHierarchy) : TypeHierarchy where
  parentsOf := first.parentsOf.setAll second.parentsOf.entries
  instantiated := uniq (first.instantiated ++ second.instantiated)
  methodsOfType :=
    second.methodsOfType.entries.foldl
      (fun methods entry =>
        methods.set entry.1
          (uniq (methods.getD entry.1 [] ++ entry.2)))
      first.methodsOfType

/-- What re-analysing some files contributes to a graph. -/
structure PartialAnalysis where
  nodes : NodeTable
  edges : List CallEdge
  hierarchy : TypeHierarchy

/-- The hierarchy of re-analysed files, merged file by file. -/
def partialHierarchy (extractor : Extractor)
    (texts : List (String × String)) : TypeHierarchy :=
  let merged := texts.foldl
    (fun hierarchy file =>
      mergeHierarchies hierarchy
        { parentsOf := extractor.hierarchy file.2 (langOf file.1)
          instantiated := []
          methodsOfType := ∅ })
    emptyHierarchy
  { merged with
    instantiated :=
      uniq (texts.flatMap fun file => extractor.instantiations file.2)
    methodsOfType := methodsOfType (rawFunctions extractor texts) }

/--
Re-analyse some files and resolve their calls against the survivors and the
newly extracted functions.
-/
def reanalyzeFiles (extractor : Extractor) (repoRoot : String)
    (sources : Snapshot) (relFiles : List String)
    (survivorNodes : NodeTable) (survivorHierarchy : TypeHierarchy)
    (options : BuildCallGraphOptions) : PartialAnalysis :=
  let algorithm := options.algorithm.getD .hybrid
  let texts := readSources options (sources.getJoined repoRoot) relFiles
  let fns := rawFunctions extractor texts
  let newNodes :=
    (∅ : NodeTable).insertAll (fns.map (RawFn.node extractor))
  let fresh := partialHierarchy extractor texts
  let everyNode := survivorNodes.insertAll newNodes.values
  let merged := mergeHierarchies survivorHierarchy fresh
  { nodes := newNodes
    edges :=
      resolveCalls extractor (indexByName everyNode.values) merged
        algorithm
        (fns.filter fun fn => (newNodes.get? fn.key).isSome)
    hierarchy := fresh }

end Mendpoint.Calls
