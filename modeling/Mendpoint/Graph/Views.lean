import Mendpoint.Graph.Store
import Mendpoint.Library.Numbers
import Mendpoint.Library.TextOrder

/-!
# The graph of a tenant

Which nodes a tenant owns, and the views and counts which hold these nodes and
the edges between them.  The same ownership is computed over callers' nodes
and, twice, by a condition of SQL over rows.  `numeral` is how SQLite writes a
number where it compares it with a text of a column.
-/

namespace Mendpoint.Graph

open Mendpoint.Library

/-! ## Ownership -/

/-- A tenant, and the consumers which are bound to it. -/
structure GraphTenantScope where
  tenantId : String
  consumerIds : Option (List String) := none

def hasTenantPrefix (value : Option String) (tenantId : String) : Bool :=
  match value with
  | none => false
  | some text =>
    decide (text = tenantId) || Text.startsWith text (tenantId ++ ":")

/-- An id behind its first colon: `id.slice(id.indexOf(":") + 1)`. -/
def namespacedId (id : String) : String :=
  match id.toList.idxOf? ':' with
  | none => id
  | some place => String.ofList (id.toList.drop (place + 1))

section Ownership

variable (numerals : Numerals) (numeral : ℚ → String)

/-- The tenant which a node names, an empty text for none. -/
def namedTenant (node : GlNode) : String :=
  match Json.nonNull? (node.metaFields.bind (Json.get? · "tenant_id")) with
  | some value => Json.asString numerals value
  | none =>
    match Json.nonNull? (node.props.bind (Json.get? · "tenant_id")) with
    | some value => Json.asString numerals value
    | none => ""

def graphNodeBelongsToTenant (node : GlNode) (scope : GraphTenantScope) :
    Bool :=
  hasTenantPrefix node.repoId scope.tenantId ||
    hasTenantPrefix (some (namespacedId node.id)) scope.tenantId ||
    decide (namedTenant numerals node = scope.tenantId) ||
    (decide (node.kind = "Consumer") &&
      (scope.consumerIds.getD []).contains
        (Text.dropPrefix "consumer:" node.id))

/-- A tenant in front of a column: equal, or followed by a colon. -/
def sqlTenantPrefix (column : String) (tenantId : String) : Bool :=
  decide (column = tenantId) ||
    decide (SqlText.substr column 1 (SqlText.length tenantId + 1) =
      tenantId ++ ":")

/-- An id behind its first colon, by `instr` and `substr`. -/
def sqlNamespacedId (id : String) : String :=
  if 0 < SqlText.instr id ':' then
    SqlText.substrFrom id (SqlText.instr id ':' + 1)
  else id

/-- The tenant which a row names, as SQLite takes it out of the columns. -/
def sqlNamedTenant (row : NodeRow) : SqlValue :=
  (SqlValue.jsonExtract numerals row.metaJson "tenant_id").coalesce
    ((SqlValue.jsonExtract numerals row.propsJson "tenant_id").coalesce
      (.text ""))

/-- An id of a consumer without its kind, by `substr`. -/
def sqlConsumerId (id : String) : String :=
  if SqlText.substr id 1 9 = "consumer:" then SqlText.substrFrom id 10
  else id

/-- The condition on rows, with the comparison of the tenant which is named. -/
def tenantPredicate (equals : SqlValue → String → Bool) (row : NodeRow)
    (scope : GraphTenantScope) : Bool :=
  row.repoId.any (sqlTenantPrefix · scope.tenantId) ||
    sqlTenantPrefix (sqlNamespacedId row.id) scope.tenantId ||
    equals (sqlNamedTenant numerals row) scope.tenantId ||
    (decide (row.kind ∈ ["Consumer", "consumer"]) &&
      (scope.consumerIds.getD []).contains (sqlConsumerId row.id))

/-- The condition of the view, which reads the tenant from a table. -/
def projectionPredicate (row : NodeRow) (scope : GraphTenantScope) : Bool :=
  tenantPredicate numerals (SqlValue.equalsColumn numeral) row scope

/-- The condition of the counts, in which the tenant is bound. -/
def statsPredicate (row : NodeRow) (scope : GraphTenantScope) : Bool :=
  tenantPredicate numerals SqlValue.equalsBound row scope

/-! ## Views -/

/-- Edges with both ends among some nodes, each of which has an id alone. -/
def joined (allowed : List String) (edges : List EdgeRow) : List EdgeRow :=
  edges.filter fun edge =>
    decide (edge.source ∈ allowed) && decide (edge.target ∈ allowed)

def openPersistentTenantProjection (db : GraphLearnDb)
    (scope : GraphTenantScope) : GraphLearnDb where
  path := db.path
  nodes := db.nodes.filter (projectionPredicate numerals numeral · scope)
  edges := joined
    ((db.nodes.filter (projectionPredicate numerals numeral · scope)).map
      NodeRow.id) db.edges
  nodeKeys := db.nodeKeys.sublist (List.filter_sublist.map NodeRow.id)
  edgeKeys := db.edgeKeys.sublist (List.filter_sublist.map EdgeRow.id)

/-- A copy in memory of the nodes of a tenant and the edges between them. -/
def copyTenantGraph (now : String) (db : GraphLearnDb)
    (scope : GraphTenantScope) : GraphLearnDb :=
  let nodes := (listAllNodes db).filter
    (graphNodeBelongsToTenant numerals · scope)
  let allowed := nodes.map GlNode.id
  let view := nodes.foldl (upsertNode now) openGraphLearnMemory
  ((listAllEdges db).filter fun edge =>
    decide (edge.source ∈ allowed) && decide (edge.target ∈ allowed)).foldl
      (upsertEdge now) view

def createTenantGraphView (now : String) (db : GraphLearnDb)
    (scope : GraphTenantScope) : GraphLearnDb :=
  if db.path ≠ ":memory:" then
    openPersistentTenantProjection numerals numeral db scope
  else copyTenantGraph numerals now db scope

/-- What `tenantGraphStats` answers. -/
structure GraphStats where
  nodes : Nat
  edges : Nat
  path : String
  exists_ : Bool
  schema : String

/-- The ids which the counts are taken over. -/
def statsAllowed (db : GraphLearnDb) (scope : GraphTenantScope) :
    List String :=
  (db.nodes.filter (statsPredicate numerals · scope)).map NodeRow.id

def tenantGraphStats (db : GraphLearnDb) (scope : GraphTenantScope) :
    GraphStats where
  nodes := (statsAllowed numerals db scope).length
  edges := (joined (statsAllowed numerals db scope) db.edges).length
  path := ":memory:"
  exists_ := true
  schema := "v0"

end Ownership

/-! ## Success of patterns -/

/-- Outcomes of a pattern. -/
structure Samples where
  ok : Nat
  fail : Nat

/-- The record of a pattern. -/
structure PatternRow where
  pattern : String
  samples : Nat
  successRate : ℚ
  ok : Nat
  fail : Nat

def outcomeKinds : List String :=
  ["OUTCOME_MERGED", "OUTCOME_CLOSED", "OUTCOME_BROKE", "OUTCOME_WAIVED"]

section Patterns

variable (numerals : Numerals)

/-- The pattern which an outcome counts for. -/
def patternOf (edge : GlEdge) : String :=
  match Json.nonNull? (edge.props.bind (Json.get? · "pattern")) with
  | some value => Json.asString numerals value
  | none => edge.target

/-- Counting one outcome. -/
def countOutcome (stats : OrderedMap String Samples) (edge : GlEdge) :
    OrderedMap String Samples :=
  let current := stats.getD (patternOf numerals edge) { ok := 0, fail := 0 }
  stats.set (patternOf numerals edge)
    (if edge.kind = "OUTCOME_MERGED" ∨ edge.kind = "OUTCOME_WAIVED" then
      { current with ok := current.ok + 1 }
    else { current with fail := current.fail + 1 })

def patternRow (entry : String × Samples) : PatternRow :=
  let total := entry.2.ok + entry.2.fail
  { pattern := entry.1
    samples := total
    successRate := if total = 0 then 0 else entry.2.ok / total
    ok := entry.2.ok
    fail := entry.2.fail }

/-- The counts as rows, those with enough samples, best rates first. -/
def rankedRows (stats : OrderedMap String Samples) (minSamples : ℚ) :
    List PatternRow :=
  ((stats.entries.map patternRow).filter fun row =>
    decide (minSamples ≤ row.samples)).insertionSort
      fun left right => right.successRate ≤ left.successRate

/-- Counting the outcomes which leave some consumers. -/
def outcomeStats (now : String) (db : GraphLearnDb)
    (consumers : List GlNode) : OrderedMap String Samples :=
  consumers.foldl
    (fun stats consumer =>
      (edgesFrom now db consumer.id (some outcomeKinds)).foldl
        (countOutcome numerals) stats)
    OrderedMap.empty

def tenantPatternSuccessRows (now : String) (db : GraphLearnDb)
    (scope : GraphTenantScope) (minSamples : ℚ := 1) : List PatternRow :=
  rankedRows
    (outcomeStats numerals now db
      ((listNodesByKind db "Consumer").filter
        (graphNodeBelongsToTenant numerals · scope)))
    minSamples

/-- The rows of the query `pattern_success_rates` in a view. -/
def patternSuccessRates (now : String) (view : GraphLearnDb)
    (minSamples : ℚ := 1) : List PatternRow :=
  rankedRows (outcomeStats numerals now view (listNodesByKind view "Consumer"))
    minSamples

end Patterns

end Mendpoint.Graph

/-!
## One ownership, three conditions

The conditions of the view in memory, of the view in SQL and of the counts
agree on where a node is kept and on the consumers which are bound to a
tenant.  They are apart only in how they read the tenant which a node names.
-/

namespace Mendpoint.Graph

open Mendpoint.Library

/-! ## The parts on which the conditions agree -/

theorem sqlTenantPrefix_eq (text tenantId : String) :
    sqlTenantPrefix text tenantId = hasTenantPrefix (some text) tenantId := by
  rw [sqlTenantPrefix, hasTenantPrefix]
  congr 1
  rw [show SqlText.length tenantId + 1 = SqlText.length (tenantId ++ ":") from
    (SqlText.length_append tenantId ":").symm]
  rw [Bool.eq_iff_iff, decide_eq_true_iff]
  exact SqlText.substr_eq_iff_startsWith text (tenantId ++ ":")

theorem sqlNamespacedId_eq (id : String) :
    sqlNamespacedId id = namespacedId id := by
  rw [sqlNamespacedId, namespacedId, SqlText.instr]
  by_cases inside : ':' ∈ id.toList
  · have place : id.toList.idxOf? ':' = some (id.toList.idxOf ':') := by
      exact List.findIdx?_eq_some_of_exists ⟨':', inside, beq_self_eq_true ':'⟩
    rw [if_pos inside, if_pos (Nat.succ_pos _), place]
    rfl
  · rw [if_neg inside, if_neg (Nat.lt_irrefl 0),
      List.idxOf?_eq_none_iff.mpr inside]

theorem sqlConsumerId_eq (id : String) :
    sqlConsumerId id = Text.dropPrefix "consumer:" id := by
  rw [sqlConsumerId, Text.dropPrefix]
  have front : SqlText.substr id 1 9 = "consumer:" ↔
      Text.startsWith id "consumer:" = true :=
    SqlText.substr_eq_iff_startsWith id "consumer:"
  by_cases starts : Text.startsWith id "consumer:" = true
  · rw [if_pos starts, if_pos (front.mpr starts)]
    rfl
  · rw [if_neg starts, if_neg (mt front.mp starts)]

/-! ## Kinds of an older schema -/

theorem mem_withLegacy_iff {legacy : List (String × String)}
    (distinct : (legacy.map Prod.fst).Nodup) {kind : String}
    (current : OrderedMap.lookupEntry kind legacy = none) (old : String) :
    old ∈ withLegacy legacy kind ↔
      (OrderedMap.lookupEntry old legacy).getD old = kind := by
  have listed : old ∈ (legacy.filter fun entry =>
      decide (entry.2 = kind)).map Prod.fst ↔
      OrderedMap.lookupEntry old legacy = some kind := by
    rw [OrderedMap.lookupEntry_eq_some_iff distinct, List.mem_map]
    constructor
    · rintro ⟨⟨name, now⟩, inside, rfl⟩
      rw [List.mem_filter, decide_eq_true_iff] at inside
      exact inside.2 ▸ inside.1
    · intro inside
      exact ⟨(old, kind), List.mem_filter.mpr ⟨inside, by simp⟩, rfl⟩
  rw [withLegacy, List.mem_cons, listed]
  cases found : OrderedMap.lookupEntry old legacy with
  | none => simp
  | some now =>
    constructor
    · rintro (rfl | same)
      · rw [current] at found
        cases found
      · exact Option.some.inj same
    · rintro rfl
      exact Or.inr rfl

theorem mem_consumerKinds_iff (kind : String) :
    kind ∈ withLegacy legacyNodeKind "Consumer" ↔
      normalizeNodeKind kind = "Consumer" :=
  mem_withLegacy_iff (by decide) (by decide) kind

theorem consumer_kind_iff (kind : String) :
    normalizeNodeKind kind = "Consumer" ↔
      kind ∈ ["Consumer", "consumer"] := by
  have listed : withLegacy legacyNodeKind "Consumer" =
      ["Consumer", "consumer"] := by decide
  rw [← listed]
  exact (mem_consumerKinds_iff kind).symm

theorem mem_expandKinds_iff {kinds : List String}
    (current : ∀ kind ∈ kinds,
      OrderedMap.lookupEntry kind legacyEdgeKind = none) (old : String) :
    old ∈ expandKinds kinds ↔ normalizeEdgeKind old ∈ kinds := by
  have distinct : (legacyEdgeKind.map Prod.fst).Nodup := by decide
  rw [expandKinds, List.mem_flatMap]
  constructor
  · rintro ⟨kind, inside, listed⟩
    rw [mem_withLegacy_iff distinct (current kind inside)] at listed
    rw [normalizeEdgeKind, listed]
    exact inside
  · intro inside
    exact ⟨_, inside,
      (mem_withLegacy_iff distinct (current _ inside) old).mpr rfl⟩

theorem lookupEntry_idem {legacy : List (String × String)}
    (distinct : (legacy.map Prod.fst).Nodup)
    (current : ∀ entry ∈ legacy,
      OrderedMap.lookupEntry entry.2 legacy = none) (kind : String) :
    (OrderedMap.lookupEntry
      ((OrderedMap.lookupEntry kind legacy).getD kind) legacy).getD
        ((OrderedMap.lookupEntry kind legacy).getD kind) =
      (OrderedMap.lookupEntry kind legacy).getD kind := by
  cases found : OrderedMap.lookupEntry kind legacy with
  | none =>
    rw [Option.getD_none, found]
    rfl
  | some now =>
    have listed :=
      (OrderedMap.lookupEntry_eq_some_iff distinct kind now).mp found
    rw [Option.getD_some, current _ listed]
    rfl

theorem normalizeNodeKind_idem (kind : String) :
    normalizeNodeKind (normalizeNodeKind kind) = normalizeNodeKind kind :=
  lookupEntry_idem (by decide) (by decide) kind

theorem normalizeEdgeKind_idem (kind : String) :
    normalizeEdgeKind (normalizeEdgeKind kind) = normalizeEdgeKind kind :=
  lookupEntry_idem (by decide) (by decide) kind

/-! ## The parts together -/

/-- Whether a row is a tenant's by its place or by a bound consumer. -/
def keptWithTenant (row : NodeRow) (scope : GraphTenantScope) : Bool :=
  hasTenantPrefix row.repoId scope.tenantId ||
    hasTenantPrefix (some (namespacedId row.id)) scope.tenantId ||
    (decide (normalizeNodeKind row.kind = "Consumer") &&
      (scope.consumerIds.getD []).contains
        (Text.dropPrefix "consumer:" row.id))

variable (numerals : Numerals) (numeral : ℚ → String)

theorem graphNodeBelongsToTenant_eq (row : NodeRow)
    (scope : GraphTenantScope) :
    graphNodeBelongsToTenant numerals (rowToNode row) scope =
      (keptWithTenant row scope ||
        decide (namedTenant numerals (rowToNode row) = scope.tenantId)) := by
  rw [graphNodeBelongsToTenant, keptWithTenant, Bool.or_assoc, Bool.or_assoc,
    Bool.or_assoc, Bool.or_assoc]
  congr 2
  exact Bool.or_comm _ _

theorem tenantPredicate_eq (equals : SqlValue → String → Bool)
    (row : NodeRow) (scope : GraphTenantScope) :
    tenantPredicate numerals equals row scope =
      (keptWithTenant row scope ||
        equals (sqlNamedTenant numerals row) scope.tenantId) := by
  have repo : row.repoId.any (sqlTenantPrefix · scope.tenantId) =
      hasTenantPrefix row.repoId scope.tenantId := by
    cases row.repoId with
    | none => rfl
    | some repo => exact sqlTenantPrefix_eq repo scope.tenantId
  have consumer : decide (row.kind ∈ ["Consumer", "consumer"]) =
      decide (normalizeNodeKind row.kind = "Consumer") :=
    decide_eq_decide.mpr (consumer_kind_iff row.kind).symm
  rw [tenantPredicate, keptWithTenant, repo, sqlTenantPrefix_eq,
    sqlNamespacedId_eq, sqlConsumerId_eq, consumer, Bool.or_assoc,
    Bool.or_assoc, Bool.or_assoc, Bool.or_assoc]
  congr 2
  exact Bool.or_comm _ _

theorem projectionPredicate_of_statsPredicate {row : NodeRow}
    {scope : GraphTenantScope}
    (counted : statsPredicate numerals row scope = true) :
    projectionPredicate numerals numeral row scope = true := by
  rw [statsPredicate, tenantPredicate_eq, Bool.or_eq_true] at counted
  rw [projectionPredicate, tenantPredicate_eq, Bool.or_eq_true]
  exact counted.imp_right SqlValue.equalsColumn_of_equalsBound

/-- A row whose tenant is read alike in all three places. -/
structure NamesAlike (row : NodeRow) (scope : GraphTenantScope) : Prop where
  view : namedTenant numerals (rowToNode row) = scope.tenantId ↔
    (sqlNamedTenant numerals row).equalsColumn numeral scope.tenantId = true
  counts : (sqlNamedTenant numerals row).equalsBound scope.tenantId = true ↔
    (sqlNamedTenant numerals row).equalsColumn numeral scope.tenantId = true

theorem belongs_iff_projected (row : NodeRow) (scope : GraphTenantScope) :
    (graphNodeBelongsToTenant numerals (rowToNode row) scope = true ↔
      projectionPredicate numerals numeral row scope = true) ↔
      (keptWithTenant row scope = false →
        (namedTenant numerals (rowToNode row) = scope.tenantId ↔
          (sqlNamedTenant numerals row).equalsColumn numeral
            scope.tenantId = true)) := by
  rw [graphNodeBelongsToTenant_eq, projectionPredicate, tenantPredicate_eq]
  cases keptWithTenant row scope with
  | false => simp
  | true => simp

theorem counted_iff_projected (row : NodeRow) (scope : GraphTenantScope) :
    (statsPredicate numerals row scope = true ↔
      projectionPredicate numerals numeral row scope = true) ↔
      (keptWithTenant row scope = false →
        ((sqlNamedTenant numerals row).equalsBound scope.tenantId = true ↔
          (sqlNamedTenant numerals row).equalsColumn numeral
            scope.tenantId = true)) := by
  rw [statsPredicate, projectionPredicate, tenantPredicate_eq,
    tenantPredicate_eq]
  cases keptWithTenant row scope with
  | false => simp
  | true => simp

end Mendpoint.Graph

/-!
## What the views hold

The rows of the copy in memory, and which reads of a view are reads of the
store: the nodes of a tenant by their kind, and from a node of the tenant the
edges which do not leave its graph.
-/

namespace Mendpoint.Graph

open Mendpoint.Library

/-! ## Inserting many rows -/

theorem nodes_foldl_upsertNode (now : String) {nodes : List GlNode}
    (db : GraphLearnDb)
    (distinct : (db.nodes.map NodeRow.id ++ nodes.map GlNode.id).Nodup) :
    (nodes.foldl (upsertNode now) db).nodes =
      db.nodes ++ nodes.map (rowOfNode now) := by
  rw [← Table.foldl_upsert _ (rowOfNode now) db.nodes distinct]
  exact (List.foldl_hom GraphLearnDb.nodes fun _ _ => rfl).symm

theorem edges_foldl_upsertNode (now : String) (nodes : List GlNode)
    (db : GraphLearnDb) :
    (nodes.foldl (upsertNode now) db).edges = db.edges := by
  induction nodes generalizing db with
  | nil => rfl
  | cons first rest inductionHypothesis =>
    exact inductionHypothesis (upsertNode now db first)

theorem edges_foldl_upsertEdge (now : String) {edges : List GlEdge}
    (db : GraphLearnDb)
    (distinct : (db.edges.map EdgeRow.id ++ edges.map GlEdge.id).Nodup) :
    (edges.foldl (upsertEdge now) db).edges =
      db.edges ++ edges.map (rowOfEdge now) := by
  rw [← Table.foldl_upsert _ (rowOfEdge now) db.edges distinct]
  exact (List.foldl_hom GraphLearnDb.edges fun _ _ => rfl).symm

theorem nodes_foldl_upsertEdge (now : String) (edges : List GlEdge)
    (db : GraphLearnDb) :
    (edges.foldl (upsertEdge now) db).nodes = db.nodes := by
  induction edges generalizing db with
  | nil => rfl
  | cons first rest inductionHypothesis =>
    exact inductionHypothesis (upsertEdge now db first)

/-! ## The copy in memory -/

section Copy

variable (numerals : Numerals) (now : String) (db : GraphLearnDb)
  (scope : GraphTenantScope)

/-- The rows of a tenant, as the view in memory finds them. -/
def tenantRows : List NodeRow :=
  db.nodes.filter fun row =>
    graphNodeBelongsToTenant numerals (rowToNode row) scope

/-- The row which a copy has for a row. -/
def copiedNode (row : NodeRow) : NodeRow :=
  rowOfNode now (rowToNode row)

def copiedEdge (row : EdgeRow) : EdgeRow :=
  rowOfEdge now (rowToEdge row)

theorem filter_listAllNodes :
    (listAllNodes db).filter (graphNodeBelongsToTenant numerals · scope) =
      (tenantRows numerals db scope).map rowToNode := by
  rw [listAllNodes, List.filter_map]
  rfl

theorem filter_listAllEdges (allowed : List String) :
    ((listAllEdges db).filter fun edge =>
      decide (edge.source ∈ allowed) && decide (edge.target ∈ allowed)) =
      (joined allowed db.edges).map rowToEdge := by
  rw [listAllEdges, List.filter_map]
  rfl

theorem nodes_copyTenantGraph :
    (copyTenantGraph numerals now db scope).nodes =
      (tenantRows numerals db scope).map (copiedNode now) := by
  have keys : (((tenantRows numerals db scope).map rowToNode).map
      GlNode.id).Nodup := by
    rw [List.map_map]
    exact db.nodeKeys.sublist (List.filter_sublist.map NodeRow.id)
  rw [copyTenantGraph, nodes_foldl_upsertEdge, filter_listAllNodes,
    nodes_foldl_upsertNode now openGraphLearnMemory keys, List.map_map]
  rfl

theorem edges_copyTenantGraph :
    (copyTenantGraph numerals now db scope).edges =
      (joined ((tenantRows numerals db scope).map NodeRow.id) db.edges).map
        (copiedEdge now) := by
  have keys : (((joined ((tenantRows numerals db scope).map NodeRow.id)
      db.edges).map rowToEdge).map GlEdge.id).Nodup := by
    rw [List.map_map]
    exact db.edgeKeys.sublist (List.filter_sublist.map EdgeRow.id)
  have allowed : (((tenantRows numerals db scope).map rowToNode).map
      GlNode.id) = (tenantRows numerals db scope).map NodeRow.id := by
    rw [List.map_map]
    rfl
  rw [copyTenantGraph, filter_listAllNodes, allowed, filter_listAllEdges]
  rw [edges_foldl_upsertEdge, edges_foldl_upsertNode, List.map_map]
  · rfl
  · rw [edges_foldl_upsertNode]
    exact keys

end Copy

/-! ## Copied rows read like the rows -/

theorem taken_copiedEdge (now : String) {kinds : List String}
    (current : ∀ kind ∈ kinds,
      OrderedMap.lookupEntry kind legacyEdgeKind = none) (row : EdgeRow) :
    (copiedEdge now row).taken now (some kinds) {} =
      row.taken now (some kinds) {} := by
  have validity : (copiedEdge now row).validAt now = row.validAt now := by
    rw [EdgeRow.validAt, EdgeRow.validAt]
    congr 1
    show decide (row.validFrom.getD now ≤ now) = _
    cases row.validFrom with
    | none => exact decide_eq_true (String.le_refl now)
    | some start => rfl
  cases kinds with
  | nil => exact validity
  | cons first rest =>
    have kind : decide ((copiedEdge now row).kind ∈
        expandKinds (first :: rest)) =
        decide (row.kind ∈ expandKinds (first :: rest)) := by
      rw [decide_eq_decide, mem_expandKinds_iff current,
        mem_expandKinds_iff current]
      show normalizeEdgeKind (normalizeEdgeKind row.kind) ∈ _ ↔ _
      rw [normalizeEdgeKind_idem]
    exact congrArg₂ and kind validity

theorem countOutcome_copiedEdge (numerals : Numerals) (now : String)
    (stats : OrderedMap String Samples) (row : EdgeRow) :
    countOutcome numerals stats (rowToEdge (copiedEdge now row)) =
      countOutcome numerals stats (rowToEdge row) := by
  have kind : (rowToEdge (copiedEdge now row)).kind =
      (rowToEdge row).kind :=
    normalizeEdgeKind_idem row.kind
  rw [countOutcome, countOutcome, kind]
  rfl

end Mendpoint.Graph
