import Mendpoint.Calls.Query
import Mendpoint.ChangeIntel.OpenApiDiff

/-!
# Graphs of a change

One builder draws the operations of a structural diff, another one what a
change affects: surfaces, findings, files and functions.  Each numbers its own
edges; `mergeGraphs` puts two graphs together.

Labels, ranks, metadata, titles, layout hints and counts are shown only and
are left out.
-/

namespace Mendpoint.ChangeGraph

open Mendpoint.Library
open Mendpoint.Calls
open Mendpoint.ChangeIntel

/-! ## Graphs -/

inductive GraphNodeKind where
  | surface
  | finding
  | function
  | file
  | provider
  | version
  | change
  | consumer
  | pr
  | tenant
  | installation
  | field
  | operation
  deriving DecidableEq

structure GraphNode where
  id : String
  kind : GraphNodeKind

/-- The kinds of edges which the builders and the merge draw. -/
inductive EdgeKind where
  | op
  | breakingOp
  | onPath
  | renamesTo
  | touchesField
  | removedField
  | addedField
  | affectsConsumer
  | hasSurface
  | impacts
  | inFile
  | inFunction
  | calls
  | sameChange
  deriving DecidableEq

structure GraphEdge where
  id : String
  source : String
  target : String
  kind : EdgeKind

structure ProductGraph where
  nodes : List GraphNode
  edges : List GraphEdge

/-! ## Drafts -/

def edgeId (index : Nat) : String :=
  "e" ++ toString index

/-- The nodes and edges so far; `ei` is the number of the next edge. -/
structure Draft where
  nodes : OrderedMap String GraphNode
  edges : List GraphEdge
  ei : Nat
  numbered : edges.map (·.id) = (List.range ei).map edgeId
  keyed : ∀ id node, nodes.get? id = some node → node.id = id

namespace Draft

/-- `nodes.set(id, node(id, kind))`. -/
def set (draft : Draft) (id : String) (kind : GraphNodeKind) : Draft :=
  { draft with
    nodes := draft.nodes.set id { id, kind }
    keyed := by
      intro other node found
      rw [OrderedMap.get?_set] at found
      split at found
      · next same => exact Option.some.inj found ▸ same
      · exact draft.keyed other node found }

/-- `if (!nodes.has(id)) nodes.set(id, node(id, kind))`. -/
def add (draft : Draft) (id : String) (kind : GraphNodeKind) : Draft :=
  if draft.nodes.has id then draft else draft.set id kind

/-- ``edges.push(edge(`e${ei++}`, source, target, kind))``. -/
def push (draft : Draft) (source target : String) (kind : EdgeKind) :
    Draft :=
  { draft with
    edges := draft.edges ++ [{ id := edgeId draft.ei, source, target, kind }]
    ei := draft.ei + 1
    numbered := by
      rw [List.map_append, draft.numbered, List.range_succ, List.map_append]
      rfl }

def start : Draft where
  nodes := .empty
  edges := []
  ei := 0
  numbered := rfl
  keyed := by
    intro id node found
    cases found

def graph (draft : Draft) : ProductGraph where
  nodes := draft.nodes.values
  edges := draft.edges

end Draft

/-- A string where it is there and not empty. -/
def given (text : Option String) : Option String :=
  text.filter fun text => decide (text ≠ "")

/-! ## The operations of a diff -/

def opText : DiffOp → String
  | .pathRemoved => "path_removed"
  | .pathAdded => "path_added"
  | .methodRemoved => "method_removed"
  | .methodAdded => "method_added"
  | .methodChanged => "method_changed"
  | .requestFieldAddedRequired => "request_field_added_required"
  | .requestFieldAdded => "request_field_added"
  | .requestFieldRemoved => "request_field_removed"
  | .requestFieldRenamed => "request_field_renamed"
  | .requestFieldAmbiguous => "request_field_ambiguous"
  | .responseFieldRemoved => "response_field_removed"
  | .responseFieldAdded => "response_field_added"
  | .responseFieldAmbiguous => "response_field_ambiguous"
  | .securityChanged => "security_changed"

def opId (e : DiffEntry) (i : Nat) : String :=
  "op:" ++ toString i ++ ":" ++ opText e.op ++ ":" ++ e.path.getD "" ++ ":" ++
    (e.field.or e.fromField).getD ""

def pathId (path : String) : String :=
  "path:" ++ path

def fieldId (path field : String) : String :=
  "field:" ++ path ++ ":" ++ field

def fieldKind (op : DiffOp) : EdgeKind :=
  if Text.includes (opText op) "removed" then .removedField
  else if Text.includes (opText op) "added" then .addedField
  else .touchesField

def addPath (draft : Draft) (e : DiffEntry) (oid : String) : Draft :=
  match given e.path with
  | none => draft
  | some path =>
    (draft.add (pathId path) .operation).push oid (pathId path) .onPath

def addRename (draft : Draft) (e : DiffEntry) (oid : String)
    (fromField toField : String) : Draft :=
  let source := fieldId (e.path.getD "") fromField
  let target := fieldId (e.path.getD "") toField
  (((draft.add source .field).add target .field).push source target
    .renamesTo).push oid source .touchesField

def addField (draft : Draft) (e : DiffEntry) (oid : String) : Draft :=
  match given e.field with
  | none => draft
  | some field =>
    let fid := fieldId (e.path.getD "") field
    (draft.add fid .field).push oid fid (fieldKind e.op)

def addFields (draft : Draft) (e : DiffEntry) (oid : String) : Draft :=
  match given e.fromField with
  | none => addField draft e oid
  | some fromField =>
    match given e.toField with
    | none => addField draft e oid
    | some toField => addRename draft e oid fromField toField

/-- The nodes and edges of one entry, the `i`-th. -/
def addEntry (changeId : String) (draft : Draft) (entry : DiffEntry × Nat) :
    Draft :=
  let e := entry.1
  let oid := opId e entry.2
  let draft := (draft.set oid .operation).push changeId oid
    (if e.breaking then .breakingOp else .op)
  addFields (addPath draft e oid) e oid

def apiDraft (entries : List DiffEntry) (id : Option String) : Draft :=
  let changeId := id.getD "api-change"
  entries.zipIdx.foldl (addEntry changeId) (Draft.start.set changeId .change)

/-- Of a diff, the entries; `id` is `opts.id`. -/
def buildApiChangeGraph (entries : List DiffEntry)
    (id : Option String := none) : ProductGraph :=
  (apiDraft entries id).graph

/-! ## What a change affects -/

structure FindingLike where
  id : String
  filePath : String
  lineStart : Nat
  symbol : String
  evidenceJson : Option String := none

structure Surface where
  id : Option String := none
  canonicalId : Option String := none
  op : Option String := none
  path : Option String := none
  field : Option String := none
  fromField : Option String := none
  toField : Option String := none

structure BuildImpactGraphInput where
  changeId : String
  findings : List FindingLike
  surfaces : List Surface := []
  callGraph : Option CallGraph := none
  maxCallerDepth : Option Int := none
  maxFunctionNodes : Option Int := none
  consumerId : Option String := none

def surfaceNodeId (s : Surface) (i : Nat) : String :=
  "surface:" ++ (s.id.or s.canonicalId).getD (toString i)

/-- The surfaces with the identifiers of their nodes. -/
def surfaceList (input : BuildImpactGraphInput) : List (Surface × String) :=
  input.surfaces.zipIdx.map fun entry =>
    (entry.1, surfaceNodeId entry.1 entry.2)

def BuildImpactGraphInput.changeNid (input : BuildImpactGraphInput) :
    String :=
  "change:" ++ input.changeId

def consumerNid (consumerId : String) : String :=
  "consumer:" ++ consumerId

def findingNid (f : FindingLike) : String :=
  "finding:" ++ f.id

def fileNid (f : FindingLike) : String :=
  "file:" ++ Text.replaceChar '\\' '/' f.filePath

def fnNid (id : String) : String :=
  "fn:" ++ id

def tokens (s : Surface) : List String :=
  [s.path, s.field, s.fromField, s.toField, s.op].filterMap given

def mentions (f : FindingLike) (token : String) : Bool :=
  Text.includes f.symbol token || Text.includes f.filePath token ||
    (given f.evidenceJson).any fun evidence => Text.includes evidence token

/-- The node which a finding is linked to: the first surface which it
mentions, else the first surface, else the change. -/
def impactSource (input : BuildImpactGraphInput) (f : FindingLike) : String :=
  match (surfaceList input).find? fun entry =>
      (tokens entry.1).any (mentions f) with
  | some entry => entry.2
  | none => ((surfaceList input).head?.map Prod.snd).getD input.changeNid

/-! ## Functions -/

def nodeAt (graph : CallGraph) (filePath : String) (line : Nat) :
    Option FunctionNode :=
  graph.nodes.values.find? fun n =>
    decide (n.filePath = filePath ∧ n.lineStart ≤ line ∧ line ≤ n.lineEnd)

/-- The nodes and edges of `impactSubgraph`. -/
structure ImpactSubgraph where
  nodes : OrderedMap String FunctionNode
  edges : OrderedMap String CallEdge

/-- The edges from a caller to a callee. -/
def addCalls (graph : CallGraph) (edges : OrderedMap String CallEdge)
    (step : String × String) : OrderedMap String CallEdge :=
  (((graph.inEdges.getD step.1 []).filterMap (edgeById graph)).filter
    fun e => decide (e.callerId = step.2)).foldl
      (fun edges e => edges.set e.id e) edges

/-- A caller, and the edges along its path. -/
def addHit (graph : CallGraph) (sub : ImpactSubgraph)
    (hit : ReachabilityHit) : ImpactSubgraph where
  nodes := sub.nodes.set hit.node.id hit.node
  edges := (hit.path.zip hit.path.tail).foldl (addCalls graph) sub.edges

def addSeed (graph : CallGraph) (opts : ReachabilityOptions)
    (sub : ImpactSubgraph) (seed : String) : ImpactSubgraph :=
  let nodes := match graph.nodes.get? seed with
    | some node => sub.nodes.set seed node
    | none => sub.nodes
  (reverseReachability graph seed opts).foldl (addHit graph)
    { sub with nodes }

def impactSubgraph (graph : CallGraph) (seedIds : List String)
    (opts : ReachabilityOptions) : ImpactSubgraph :=
  seedIds.foldl (addSeed graph opts) { nodes := .empty, edges := .empty }

/-- A draft, and how many functions it has got for which findings. -/
structure Expansion where
  draft : Draft
  functionNodesAdded : Nat
  seedFnsSeen : List String

def maxFn (input : BuildImpactGraphInput) : Int :=
  input.maxFunctionNodes.getD 60

def addFunction (state : Expansion) (id : String) : Expansion :=
  if state.draft.nodes.has (fnNid id) then state
  else
    { state with
      draft := state.draft.set (fnNid id) .function
      functionNodesAdded := state.functionNodesAdded + 1 }

/-- A caller within the budget; the loop ends where it is used up. -/
def addCaller (input : BuildImpactGraphInput) (state : Expansion)
    (n : FunctionNode) : Expansion :=
  if maxFn input ≤ state.functionNodesAdded then state
  else addFunction state n.id

def addCall (draft : Draft) (e : CallEdge) : Draft :=
  if !draft.nodes.has (fnNid e.callerId) || !draft.nodes.has (fnNid e.calleeId)
    then draft
  else draft.push (fnNid e.callerId) (fnNid e.calleeId) .calls

def addCallers (input : BuildImpactGraphInput) (graph : CallGraph)
    (state : Expansion) (id : String) : Expansion :=
  if (state.functionNodesAdded : Int) < maxFn input then
    let sub := impactSubgraph graph [id]
      { maxDepth := some (input.maxCallerDepth.getD 2) }
    let state := sub.nodes.values.foldl (addCaller input) state
    { state with draft := sub.edges.values.foldl addCall state.draft }
  else state

/-- The function of a finding, which another one may have had before. -/
def addSeedFunction (input : BuildImpactGraphInput) (graph : CallGraph)
    (state : Expansion) (fid : String) (fn : FunctionNode) : Expansion :=
  if fn.id ∈ state.seedFnsSeen then
    if state.draft.nodes.has (fnNid fn.id) then
      { state with draft := state.draft.push fid (fnNid fn.id) .inFunction }
    else state
  else
    let state := addFunction
      { state with seedFnsSeen := state.seedFnsSeen ++ [fn.id] } fn.id
    let state :=
      { state with draft := state.draft.push fid (fnNid fn.id) .inFunction }
    addCallers input graph state fn.id

def addFunctions (input : BuildImpactGraphInput) (state : Expansion)
    (f : FindingLike) : Expansion :=
  match input.callGraph with
  | none => state
  | some graph =>
    if (state.functionNodesAdded : Int) < maxFn input then
      match nodeAt graph f.filePath f.lineStart with
      | none => state
      | some fn => addSeedFunction input graph state (findingNid f) fn
    else state

/-! ## The impact graph -/

def addFinding (input : BuildImpactGraphInput) (state : Expansion)
    (f : FindingLike) : Expansion :=
  let draft := (state.draft.set (findingNid f) .finding).push
    (impactSource input f) (findingNid f) .impacts
  let draft := (draft.add (fileNid f) .file).push (findingNid f) (fileNid f)
    .inFile
  addFunctions input { state with draft } f

def addConsumer (input : BuildImpactGraphInput) (draft : Draft) : Draft :=
  match given input.consumerId with
  | none => draft
  | some consumerId =>
    (draft.set (consumerNid consumerId) .consumer).push input.changeNid
      (consumerNid consumerId) .affectsConsumer

def addSurface (input : BuildImpactGraphInput) (draft : Draft)
    (sid : String) : Draft :=
  (draft.set sid .surface).push input.changeNid sid .hasSurface

/-- The change, its consumer and its surfaces. -/
def surfacesDraft (input : BuildImpactGraphInput) : Draft :=
  ((surfaceList input).map Prod.snd).foldl (addSurface input)
    (addConsumer input (Draft.start.set input.changeNid .change))

def impactDraft (input : BuildImpactGraphInput) : Draft :=
  (input.findings.foldl (addFinding input)
    { draft := surfacesDraft input
      functionNodesAdded := 0
      seedFnsSeen := [] }).draft

def buildImpactGraph (input : BuildImpactGraphInput) : ProductGraph :=
  (impactDraft input).graph

/-! ## The merge -/

/-- Keep an edge unless its identifier has been seen. -/
def keepEdge (edges : List GraphEdge) (e : GraphEdge) : List GraphEdge :=
  if e.id ∈ edges.map (·.id) then edges else edges ++ [e]

def changeNode (graph : ProductGraph) : Option GraphNode :=
  graph.nodes.find? fun n => decide (n.kind = .change)

/-- The edge between the change nodes of two graphs, where they differ. -/
def bridge (a b : ProductGraph) : List GraphEdge :=
  match changeNode a with
  | none => []
  | some aChange =>
    match changeNode b with
    | none => []
    | some bChange =>
      if aChange.id ≠ bChange.id then
        [{ id := "bridge:" ++ aChange.id ++ ":" ++ bChange.id
           source := aChange.id
           target := bChange.id
           kind := .sameChange }]
      else []

def mergeNodes (a b : ProductGraph) : OrderedMap String GraphNode :=
  (OrderedMap.ofList (a.nodes.map fun n => (n.id, n))).setAllNew
    (b.nodes.map fun n => (n.id, n))

def mergeGraphs (a b : ProductGraph) : ProductGraph where
  nodes := (mergeNodes a b).values
  edges := (a.edges ++ b.edges).foldl keepEdge [] ++ bridge a b

end Mendpoint.ChangeGraph
