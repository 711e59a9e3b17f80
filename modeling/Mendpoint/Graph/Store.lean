import Mendpoint.Library.Json
import Mendpoint.Library.Table

/-!
# The property graph store

Nodes and edges as the embedded store keeps them, and the reads which filter
edges by the instants between which they hold.  The columns of JSON hold the
values which their texts denote.  Rows are read in the order of the table,
where a query asks for no other.  The time at which a call reads the clock is
its argument `now`.
-/

namespace Mendpoint.Graph

open Mendpoint.Library

/-! ## Nodes and edges -/

/-- A node as callers hold it. -/
structure GlNode where
  id : String
  kind : String
  label : String
  repoId : Option String
  firstSeen : Option String
  lastSeen : Option String
  metaFields : Option Json
  props : Option Json

/-- An edge as callers hold it. -/
structure GlEdge where
  id : String
  kind : String
  source : String
  target : String
  validFrom : Option String
  validTo : Option String
  sourceSystem : Option String
  confidence : Option ℚ
  label : Option ℚ
  props : Option Json

/-- Kinds of nodes in rows of an older schema, and what they are now. -/
def legacyNodeKind : List (String × String) :=
  [("provider", "Provider"), ("service", "Service"), ("endpoint", "Endpoint"),
    ("schema", "Schema"), ("field", "Field"), ("auth_scope", "AuthScope"),
    ("consumer", "Consumer"), ("error_type", "ErrorType"), ("slo", "SLO"),
    ("change", "Change"), ("surface", "Surface"), ("pr", "PullRequest"),
    ("file", "File"), ("symbol", "Symbol"), ("callsite", "Symbol"),
    ("table", "DataStore"), ("business_rule", "BusinessRule"),
    ("invariant", "Invariant"), ("bsg_node", "BSGNode"),
    ("pattern", "Pattern")]

/-- Kinds of edges in rows of an older schema, and what they are now. -/
def legacyEdgeKind : List (String × String) :=
  [("calls", "CALLS"), ("depends_on", "DEPENDS_ON"),
    ("deprecated_by", "DEPRECATES"), ("breaks", "BREAKS"),
    ("secures", "REQUIRES_SCOPE"), ("versions_of", "VERSIONS"),
    ("monitors", "MONITORS"), ("impacts", "IMPACTS"), ("imports", "IMPORTS"),
    ("reads", "READS_FIELD"), ("writes", "WRITES_FIELD"),
    ("preserves_behavior", "PRESERVES_INVARIANT"),
    ("migrated_from", "MIGRATED_FROM"), ("has_field", "HAS_FIELD"),
    ("has_endpoint", "HAS_ENDPOINT"), ("outcome_merged", "OUTCOME_MERGED"),
    ("outcome_closed", "OUTCOME_CLOSED"), ("outcome_broke", "OUTCOME_BROKE"),
    ("outcome_waived", "OUTCOME_WAIVED"), ("related", "RELATED")]

def normalizeNodeKind (kind : String) : String :=
  (OrderedMap.lookupEntry kind legacyNodeKind).getD kind

def normalizeEdgeKind (kind : String) : String :=
  (OrderedMap.lookupEntry kind legacyEdgeKind).getD kind

/-- A kind together with the older ones which are now that kind. -/
def withLegacy (legacy : List (String × String)) (kind : String) :
    List String :=
  kind :: (legacy.filter fun entry => decide (entry.2 = kind)).map Prod.fst

def expandKinds (kinds : List String) : List String :=
  kinds.flatMap (withLegacy legacyEdgeKind)

/-! ## Tables -/

/-- A row of `gl_nodes`. -/
structure NodeRow where
  id : String
  kind : String
  label : String
  repoId : Option String
  firstSeen : Option String
  lastSeen : Option String
  propsJson : Option Json
  metaJson : Option Json

/-- A row of `gl_edges`. -/
structure EdgeRow where
  id : String
  kind : String
  source : String
  target : String
  validFrom : Option String
  validTo : Option String
  sourceSystem : Option String
  confidence : Option ℚ
  propsJson : Option Json
  label : Option ℚ

/-- A database: its file, and tables in which an id is the key. -/
structure GraphLearnDb where
  path : String
  nodes : List NodeRow
  edges : List EdgeRow
  nodeKeys : (nodes.map NodeRow.id).Nodup
  edgeKeys : (edges.map EdgeRow.id).Nodup

def openGraphLearnMemory : GraphLearnDb where
  path := ":memory:"
  nodes := []
  edges := []
  nodeKeys := List.nodup_nil
  edgeKeys := List.nodup_nil

/-- The row which is inserted for a node. -/
def rowOfNode (now : String) (node : GlNode) : NodeRow where
  id := node.id
  kind := node.kind
  label := node.label
  repoId := some (node.repoId.getD "")
  firstSeen := some (node.firstSeen.getD now)
  lastSeen := some (node.lastSeen.getD now)
  propsJson := node.props
  metaJson := node.metaFields

/-- The row which is inserted for an edge. -/
def rowOfEdge (now : String) (edge : GlEdge) : EdgeRow where
  id := edge.id
  kind := edge.kind
  source := edge.source
  target := edge.target
  validFrom := some (edge.validFrom.getD now)
  validTo := edge.validTo
  sourceSystem := some (edge.sourceSystem.getD "pipeline")
  confidence := some (edge.confidence.getD 1)
  propsJson := edge.props
  label := edge.label

def upsertNode (now : String) (db : GraphLearnDb) (node : GlNode) :
    GraphLearnDb where
  path := db.path
  nodes := Table.upsert NodeRow.id
    (fun old =>
      { rowOfNode now node with id := old.id, firstSeen := old.firstSeen })
    (rowOfNode now node) db.nodes
  edges := db.edges
  nodeKeys := Table.nodup_upsert (fun _ => rfl) db.nodeKeys
  edgeKeys := db.edgeKeys

def upsertEdge (now : String) (db : GraphLearnDb) (edge : GlEdge) :
    GraphLearnDb where
  path := db.path
  nodes := db.nodes
  edges := Table.upsert EdgeRow.id
    (fun old => { rowOfEdge now edge with id := old.id })
    (rowOfEdge now edge) db.edges
  nodeKeys := db.nodeKeys
  edgeKeys := Table.nodup_upsert (fun _ => rfl) db.edgeKeys

/-! ## Reads -/

def rowToNode (row : NodeRow) : GlNode where
  id := row.id
  kind := normalizeNodeKind row.kind
  label := row.label
  repoId := row.repoId
  firstSeen := row.firstSeen
  lastSeen := row.lastSeen
  metaFields := row.metaJson
  props := row.propsJson

def rowToEdge (row : EdgeRow) : GlEdge where
  id := row.id
  kind := normalizeEdgeKind row.kind
  source := row.source
  target := row.target
  validFrom := row.validFrom
  validTo := row.validTo
  sourceSystem := row.sourceSystem
  confidence := row.confidence
  label := row.label
  props := row.propsJson

def listAllNodes (db : GraphLearnDb) : List GlNode :=
  db.nodes.map rowToNode

def listAllEdges (db : GraphLearnDb) : List GlEdge :=
  db.edges.map rowToEdge

def getNode (db : GraphLearnDb) (id : String) : Option GlNode :=
  (db.nodes.find? fun row => decide (row.id = id)).map rowToNode

def listNodesByKind (db : GraphLearnDb) (kind : String) : List GlNode :=
  (db.nodes.filter fun row =>
    decide (row.kind ∈ withLegacy legacyNodeKind kind)).map rowToNode

/-- Which edges a read takes by the instants of their validity. -/
structure EdgeQueryOptions where
  asOf : Option String := none
  includeInvalidated : Bool := false

def temporalInstant (now : String) (opts : EdgeQueryOptions) :
    Option String :=
  match opts.asOf with
  | some "" | none => if opts.includeInvalidated then none else some now
  | some instant => some instant

/-- Whether a row is valid at an instant; texts compare by characters. -/
def EdgeRow.validAt (row : EdgeRow) (instant : String) : Bool :=
  row.validFrom.all (fun start => decide (start ≤ instant)) &&
    row.validTo.all fun stop => decide (instant < stop)

/-- Whether a read takes a row by its kind and its validity. -/
def EdgeRow.taken (now : String) (kinds : Option (List String))
    (opts : EdgeQueryOptions) (row : EdgeRow) : Bool :=
  (match kinds with
    | none | some [] => true
    | some kinds => decide (row.kind ∈ expandKinds kinds)) &&
    (temporalInstant now opts).all row.validAt

def edgesFrom (now : String) (db : GraphLearnDb) (source : String)
    (kinds : Option (List String) := none) (opts : EdgeQueryOptions := {}) :
    List GlEdge :=
  (db.edges.filter fun row =>
    decide (row.source = source) && row.taken now kinds opts).map rowToEdge

def edgesTo (now : String) (db : GraphLearnDb) (target : String)
    (kinds : Option (List String) := none) (opts : EdgeQueryOptions := {}) :
    List GlEdge :=
  (db.edges.filter fun row =>
    decide (row.target = target) && row.taken now kinds opts).map rowToEdge

def edgesByKindAt (db : GraphLearnDb) (kinds : List String)
    (atTime : String) (limit : Nat := 5000) : List GlEdge :=
  ((db.edges.filter fun row =>
    decide (row.kind ∈ expandKinds kinds) && row.validAt atTime).take
      limit).map rowToEdge

end Mendpoint.Graph
