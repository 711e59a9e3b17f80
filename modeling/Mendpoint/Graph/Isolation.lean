import Mathlib.Data.List.Flatten
import Mendpoint.Graph.Agreement
import Mendpoint.Graph.Operations

/-!
# What other tenants can change

The answers to a tenant are determined by the rows which it owns, the edges
between them, and the outcomes which leave its consumers.  Rows of another
tenant make no difference as long as none of them is among these.
-/

namespace Mendpoint.Graph

open Mendpoint.Library

/-! ## Views as databases -/

theorem GraphLearnDb.eq_of_tables {db other : GraphLearnDb}
    (path : db.path = other.path) (nodes : db.nodes = other.nodes)
    (edges : db.edges = other.edges) : db = other := by
  rcases db with ⟨_, _, _, _, _⟩
  rcases other with ⟨_, _, _, _, _⟩
  cases path
  cases nodes
  cases edges
  rfl

theorem path_foldl {α : Type} {insert : GraphLearnDb → α → GraphLearnDb}
    (kept : ∀ db item, (insert db item).path = db.path) (items : List α)
    (db : GraphLearnDb) : (items.foldl insert db).path = db.path := by
  induction items generalizing db with
  | nil => rfl
  | cons first rest inductionHypothesis =>
    rw [List.foldl_cons, inductionHypothesis, kept]

section Views

variable (runtime : Runtime) (now : String) (db : GraphLearnDb)
  (scope : GraphTenantScope)

theorem path_copyTenantGraph :
    (copyTenantGraph runtime.numerals now db scope).path = ":memory:" := by
  have node : ∀ view node, (upsertNode now view node).path = view.path :=
    fun _ _ => rfl
  have edge : ∀ view edge, (upsertEdge now view edge).path = view.path :=
    fun _ _ => rfl
  rw [copyTenantGraph, path_foldl edge, path_foldl node]
  rfl

/-! ## Rows of another tenant -/

/-- A consumer which is bound to the tenant of a scope. -/
def boundConsumer (row : NodeRow) : Bool :=
  decide (normalizeNodeKind row.kind = "Consumer") &&
    (scope.consumerIds.getD []).contains (Text.dropPrefix "consumer:" row.id)

/-- A row in the name space of a tenant. -/
def namespacedTo (tenantId : String) (row : NodeRow) : Bool :=
  hasTenantPrefix row.repoId tenantId ||
    hasTenantPrefix (some (namespacedId row.id)) tenantId ||
    propIs row.propsJson "tenant_id" tenantId

/-- A row of another tenant which is not bound to the tenant of a scope. -/
def foreignTo (other : String) (row : NodeRow) : Bool :=
  namespacedTo other row && !boundConsumer scope row

def foreignIds (other : String) : List String :=
  (db.nodes.filter (foreignTo scope other)).map NodeRow.id

/-- An edge with no end among some ids. -/
def apartFrom (ids : List String) (edge : EdgeRow) : Bool :=
  decide (edge.source ∉ ids) && decide (edge.target ∉ ids)

/--
Nodes of another tenant, and edges at them, have been added, changed or
removed.
-/
structure DiffersOnlyFor (other : String) (changed : GraphLearnDb) :
    Prop where
  path : changed.path = db.path
  nodes : changed.nodes.filter (fun row => !foreignTo scope other row) =
    db.nodes.filter fun row => !foreignTo scope other row
  edges : changed.edges.filter (apartFrom
      (foreignIds db scope other ++ foreignIds changed scope other)) =
    db.edges.filter (apartFrom
      (foreignIds db scope other ++ foreignIds changed scope other))

/-- The condition of the view of a database. -/
def viewPredicate (path : String) (row : NodeRow) : Bool :=
  if path ≠ ":memory:" then
    projectionPredicate runtime.numerals runtime.sqliteNumeral row scope
  else graphNodeBelongsToTenant runtime.numerals (rowToNode row) scope

/-- Whether a row is in the view of a tenant or among its counts. -/
def seen (path : String) (row : NodeRow) : Bool :=
  viewPredicate runtime scope path row ||
    statsPredicate runtime.numerals row scope

/-- No row of another tenant is in the view of a tenant or counted for it. -/
def NoneSeen (other : String) : Prop :=
  ∀ row ∈ db.nodes, foreignTo scope other row = true →
    seen runtime scope db.path row = false

/-- The outcomes which leave the consumers of a tenant are what they were. -/
def SameOutcomes (changed : GraphLearnDb) : Prop :=
  tenantOutcomes runtime.numerals now changed scope =
    tenantOutcomes runtime.numerals now db scope

end Views

/-! ## What is unseen changes nothing -/

section Unchanged

variable {runtime : Runtime} {now : String} {db changed : GraphLearnDb}
  {scope : GraphTenantScope} {other : String}

/-- A condition which selects nothing foreign. -/
def Selects (scope : GraphTenantScope) (other : String)
    (selected : NodeRow → Bool) (db : GraphLearnDb) : Prop :=
  ∀ row ∈ db.nodes, foreignTo scope other row = true → selected row = false

theorem Selects.filter {selected : NodeRow → Bool}
    (selects : Selects scope other selected db) :
    db.nodes.filter selected =
      (db.nodes.filter fun row => !foreignTo scope other row).filter
        selected := by
  rw [List.filter_filter]
  refine List.filter_congr fun row inside => ?_
  cases foreign : foreignTo scope other row with
  | false => simp
  | true => simp [selects row inside foreign]

section Both

variable (differs : DiffersOnlyFor db scope other changed)
  {selected : NodeRow → Bool}
  (before : Selects scope other selected db)
  (after : Selects scope other selected changed)

include differs before after

theorem filter_eq_of_differs :
    changed.nodes.filter selected = db.nodes.filter selected := by
  rw [after.filter, before.filter, differs.nodes]

theorem not_mem_foreignIds {id : String}
    (inside : id ∈ (db.nodes.filter selected).map NodeRow.id) :
    id ∉ foreignIds db scope other ++ foreignIds changed scope other := by
  have alone : ∀ table : GraphLearnDb,
      Selects scope other selected table →
      id ∈ (table.nodes.filter selected).map NodeRow.id →
      id ∉ foreignIds table scope other := by
    intro table selects within foreign
    rcases List.mem_map.mp within with ⟨row, member, rfl⟩
    rw [List.mem_filter] at member
    have isForeign := (mem_ids_filter member.1).mp foreign
    rw [selects row member.1 isForeign] at member
    cases member.2
  rw [List.mem_append, not_or]
  refine ⟨alone db before inside, alone changed after ?_⟩
  rw [filter_eq_of_differs differs before after]
  exact inside

theorem joined_eq_of_differs :
    joined ((changed.nodes.filter selected).map NodeRow.id) changed.edges =
      joined ((db.nodes.filter selected).map NodeRow.id) db.edges := by
  have apart : ∀ edges : List EdgeRow,
      joined ((db.nodes.filter selected).map NodeRow.id) edges =
        joined ((db.nodes.filter selected).map NodeRow.id)
          (edges.filter (apartFrom (foreignIds db scope other ++
            foreignIds changed scope other))) := by
    intro edges
    rw [joined, joined, List.filter_filter]
    refine List.filter_congr fun edge _ => ?_
    rw [Bool.eq_iff_iff, Bool.and_eq_true, Bool.and_eq_true,
      Bool.and_eq_true]
    constructor
    · rintro ⟨source, target⟩
      refine ⟨⟨source, target⟩, ?_⟩
      rw [apartFrom, Bool.and_eq_true, decide_eq_true_iff,
        decide_eq_true_iff]
      exact ⟨not_mem_foreignIds differs before after
          (of_decide_eq_true source),
        not_mem_foreignIds differs before after (of_decide_eq_true target)⟩
    · intro both
      exact both.1
  rw [filter_eq_of_differs differs before after, apart changed.edges,
    apart db.edges, differs.edges]

end Both

/-! ## Answers -/

section Answers

variable (differs : DiffersOnlyFor db scope other changed)
  (before : NoneSeen runtime db scope other)
  (after : NoneSeen runtime changed scope other)

theorem NoneSeen.selects_inView {table : GraphLearnDb}
    (none : NoneSeen runtime table scope other) :
    Selects scope other (viewPredicate runtime scope table.path) table := by
  intro row inside foreign
  have hidden := none row inside foreign
  rw [seen, Bool.or_eq_false_iff] at hidden
  exact hidden.1

theorem NoneSeen.selects_counted {table : GraphLearnDb}
    (none : NoneSeen runtime table scope other) :
    Selects scope other (statsPredicate runtime.numerals · scope) table := by
  intro row inside foreign
  have hidden := none row inside foreign
  rw [seen, Bool.or_eq_false_iff] at hidden
  exact hidden.2

include differs before after

theorem tenantGraphStats_unchanged :
    tenantGraphStats runtime.numerals changed scope =
      tenantGraphStats runtime.numerals db scope := by
  have allowed : statsAllowed runtime.numerals changed scope =
      statsAllowed runtime.numerals db scope :=
    congrArg (List.map NodeRow.id) (filter_eq_of_differs differs
      before.selects_counted after.selects_counted)
  have edges : joined (statsAllowed runtime.numerals changed scope)
      changed.edges = joined (statsAllowed runtime.numerals db scope)
        db.edges :=
    joined_eq_of_differs differs before.selects_counted
      after.selects_counted
  rw [tenantGraphStats, tenantGraphStats, edges, allowed]

theorem createTenantGraphView_unchanged :
    createTenantGraphView runtime.numerals runtime.sqliteNumeral now changed
        scope =
      createTenantGraphView runtime.numerals runtime.sqliteNumeral now db
        scope := by
  have selectsAfter := after.selects_inView
  have selectsBefore := before.selects_inView
  rw [differs.path] at selectsAfter
  have nodes := filter_eq_of_differs differs selectsBefore selectsAfter
  have edges := joined_eq_of_differs differs selectsBefore selectsAfter
  rw [createTenantGraphView, createTenantGraphView, differs.path]
  split
  · next persistent =>
      have condition : viewPredicate runtime scope db.path =
          (projectionPredicate runtime.numerals runtime.sqliteNumeral ·
            scope) :=
        funext fun row => if_pos persistent
      rw [condition] at nodes edges
      exact GraphLearnDb.eq_of_tables differs.path nodes edges
  · next inMemory =>
      have condition : viewPredicate runtime scope db.path =
          fun row => graphNodeBelongsToTenant runtime.numerals
            (rowToNode row) scope :=
        funext fun row => if_neg inMemory
      rw [condition] at nodes edges
      apply GraphLearnDb.eq_of_tables
      · rw [path_copyTenantGraph, path_copyTenantGraph]
      · rw [nodes_copyTenantGraph, nodes_copyTenantGraph]
        exact congrArg _ nodes
      · rw [edges_copyTenantGraph, edges_copyTenantGraph]
        exact congrArg _ edges

theorem runGraphQuery_unchanged
    (outcomes : SameOutcomes runtime now db scope changed)
    (latency later : GraphQueryResult) {query : GraphQuery} (notLatency : query ≠ .latencyStats) :
    runGraphQuery runtime now changed later query scope =
      runGraphQuery runtime now db latency query scope := by
  unfold runGraphQuery
  split
  · rfl
  · congr 1
    cases query with
    | patternSuccessRates minSamples =>
      rw [SameOutcomes] at outcomes
      simp only [tenantPatternSuccessRows_eq, outcomes]
    | stats =>
      simp only [tenantGraphStats_unchanged differs before after]
    | latencyStats => exact absurd rfl notLatency
    | inView query =>
      simp only [createTenantGraphView_unchanged differs before after]

end Answers

end Unchanged

/-! ## What is seen changes an answer -/

section Seen

variable {runtime : Runtime} {now : String} {db : GraphLearnDb}
  {scope : GraphTenantScope}

theorem nodes_upsertNode {node : GlNode}
    (fresh : node.id ∉ db.nodes.map NodeRow.id) :
    (upsertNode now db node).nodes = db.nodes ++ [rowOfNode now node] :=
  Table.upsert_of_fresh fresh

theorem edges_upsertEdge {edge : GlEdge}
    (fresh : edge.id ∉ db.edges.map EdgeRow.id) :
    (upsertEdge now db edge).edges = db.edges ++ [rowOfEdge now edge] :=
  Table.upsert_of_fresh fresh

theorem isSome_getNode (view : GraphLearnDb) (id : String) :
    (getNode view id).isSome = true ↔ id ∈ view.nodes.map NodeRow.id := by
  rw [getNode, Option.isSome_map, List.find?_isSome, List.mem_map]
  simp only [decide_eq_true_iff]

theorem ids_createTenantGraphView (db : GraphLearnDb) :
    (createTenantGraphView runtime.numerals runtime.sqliteNumeral now db
      scope).nodes.map NodeRow.id =
    (db.nodes.filter (viewPredicate runtime scope db.path)).map
      NodeRow.id := by
  rw [createTenantGraphView]
  split
  · next persistent =>
      have same : (viewPredicate runtime scope db.path) =
          (projectionPredicate runtime.numerals runtime.sqliteNumeral ·
            scope) := by
        exact funext fun row => if_pos persistent
      rw [same]
      rfl
  · next inMemory =>
      have same : (viewPredicate runtime scope db.path) =
          fun row => graphNodeBelongsToTenant runtime.numerals
            (rowToNode row) scope := by
        exact funext fun row => if_neg inMemory
      rw [same, ids_copyTenantGraph]
      rfl

variable {latency later : GraphQueryResult}

theorem stats_change_of_counted (named : scope.tenantId ≠ "")
    {node : GlNode} (fresh : node.id ∉ db.nodes.map NodeRow.id)
    (counted : statsPredicate runtime.numerals (rowOfNode now node) scope =
      true) :
    runGraphQuery runtime now (upsertNode now db node) later .stats scope ≠
      runGraphQuery runtime now db latency .stats scope := by
  intro same
  unfold runGraphQuery at same
  rw [if_neg named, if_neg named] at same
  have rows := congrArg GraphQueryResult.rows (Except.ok.inj same)
  have row := List.head_eq_of_cons_eq (Option.some.inj rows)
  have count := List.head_eq_of_cons_eq row
  have number := Json.num.inj (Option.some.inj (congrArg Prod.snd count))
  have lengths : (statsAllowed runtime.numerals (upsertNode now db node)
      scope).length = (statsAllowed runtime.numerals db scope).length :=
    Nat.cast_injective number
  have last : [rowOfNode now node].filter
      (statsPredicate runtime.numerals · scope) = [rowOfNode now node] :=
    List.filter_cons_of_pos counted
  rw [statsAllowed, nodes_upsertNode fresh, List.filter_append, last,
    List.length_map, List.length_append, statsAllowed,
    List.length_map] at lengths
  exact absurd lengths (Nat.succ_ne_self _)

theorem neighbors_change_of_inView (named : scope.tenantId ≠ "")
    {node : GlNode} (fresh : node.id ∉ db.nodes.map NodeRow.id)
    (inView : viewPredicate runtime scope db.path (rowOfNode now node) =
      true) :
    runGraphQuery runtime now (upsertNode now db node) later
        (.inView (.neighbors node.id none none)) scope ≠
      runGraphQuery runtime now db latency
        (.inView (.neighbors node.id none none)) scope := by
  intro same
  unfold runGraphQuery at same
  rw [if_neg named, if_neg named] at same
  have coverage := congrArg GraphQueryResult.coverage (Except.ok.inj same)
  have basis : (coverageOf (getNode (createTenantGraphView runtime.numerals
      runtime.sqliteNumeral now (upsertNode now db node) scope)
        node.id).isSome _).basis = (coverageOf (getNode
          (createTenantGraphView runtime.numerals runtime.sqliteNumeral now
            db scope) node.id).isSome _).basis :=
    congrArg GraphQueryCoverage.basis coverage
  have present : (getNode (createTenantGraphView runtime.numerals
      runtime.sqliteNumeral now (upsertNode now db node) scope)
        node.id).isSome = true := by
    rw [isSome_getNode, ids_createTenantGraphView, nodes_upsertNode fresh,
      List.filter_append]
    refine List.mem_map.mpr ⟨rowOfNode now node, ?_, rfl⟩
    rw [List.mem_append, List.mem_filter]
    exact Or.inr (List.mem_filter.mpr ⟨List.mem_singleton.mpr rfl, inView⟩)
  have absent : (getNode (createTenantGraphView runtime.numerals
      runtime.sqliteNumeral now db scope) node.id).isSome = false := by
    rw [← Bool.not_eq_true, isSome_getNode, ids_createTenantGraphView]
    intro inside
    rcases List.mem_map.mp inside with ⟨row, member, sameId⟩
    exact fresh (sameId ▸ List.mem_map_of_mem (List.mem_filter.mp member).1)
  rw [present, absent] at basis
  cases basis

theorem PatternRow.row_injective : Function.Injective PatternRow.row := by
  rintro ⟨pattern, samples, rate, ok, fail⟩
    ⟨otherPattern, otherSamples, otherRate, otherOk, otherFail⟩ same
  simp only [PatternRow.row, List.cons.injEq, Prod.mk.injEq,
    Option.some.injEq, Json.str.injEq, Json.num.injEq, Nat.cast_inj,
    true_and, and_true] at same
  rcases same with ⟨rfl, rfl, rfl, rfl, rfl⟩
  rfl

variable {changed : GraphLearnDb}

theorem length_tenantOutcomes_of_rates (named : scope.tenantId ≠ "")
    (same : runGraphQuery runtime now changed later (.patternSuccessRates
      (some 0)) scope = runGraphQuery runtime now db latency
      (.patternSuccessRates (some 0)) scope) :
    (tenantOutcomes runtime.numerals now changed scope).length =
      (tenantOutcomes runtime.numerals now db scope).length := by
  unfold runGraphQuery at same
  rw [if_neg named, if_neg named] at same
  have rows := Option.some.inj
    (congrArg GraphQueryResult.rows (Except.ok.inj same))
  have equal := List.map_injective_iff.mpr PatternRow.row_injective rows
  rw [Option.getD_some, tenantPatternSuccessRows_eq,
    tenantPatternSuccessRows_eq] at equal
  exact length_eq_of_perm runtime.numerals (List.Perm.of_eq equal)

theorem tenantOutcomes_sublist (nodes : db.nodes.Sublist changed.nodes)
    (edges : db.edges.Sublist changed.edges) :
    (tenantOutcomes runtime.numerals now db scope).Sublist
      (tenantOutcomes runtime.numerals now changed scope) := by
  have consumers : (tenantConsumers runtime.numerals db scope).Sublist
      (tenantConsumers runtime.numerals changed scope) :=
    (nodes.filter _).filter _
  rw [tenantOutcomes, tenantOutcomes]
  refine List.Sublist.trans ?_ (consumers.flatMap _)
  exact List.Sublist.flatMap_right _ fun consumer _ => edges.filter _

theorem sameOutcomes_of_rates (named : scope.tenantId ≠ "")
    (nodes : db.nodes.Sublist changed.nodes)
    (edges : db.edges.Sublist changed.edges)
    (same : runGraphQuery runtime now changed later (.patternSuccessRates
      (some 0)) scope = runGraphQuery runtime now db latency
      (.patternSuccessRates (some 0)) scope) :
    SameOutcomes runtime now db scope changed :=
  ((tenantOutcomes_sublist nodes edges).eq_of_length
    (length_tenantOutcomes_of_rates named same).symm).symm

end Seen

/-! ## Additions -/

section Additions

variable {runtime : Runtime} {now : String} {db : GraphLearnDb}
  {scope : GraphTenantScope} {other : String}
  {latency later : GraphQueryResult}

variable {node : GlNode}

theorem differsOnlyFor_upsertNode (fresh : node.id ∉ db.nodes.map NodeRow.id)
    (foreign : foreignTo scope other (rowOfNode now node) = true) :
    DiffersOnlyFor db scope other (upsertNode now db node) where
  path := rfl
  nodes := by
    rw [nodes_upsertNode fresh, List.filter_append, List.filter_cons_of_neg
      (by simp [foreign])]
    exact List.append_nil _
  edges := rfl

theorem differsOnlyFor_upsertEdge {edge : GlEdge}
    (fresh : edge.id ∉ db.edges.map EdgeRow.id)
    (touches : edge.source ∈ foreignIds db scope other ∨
      edge.target ∈ foreignIds db scope other) :
    DiffersOnlyFor db scope other (upsertEdge now db edge) where
  path := rfl
  nodes := rfl
  edges := by
    have touching : apartFrom (foreignIds db scope other ++
        foreignIds (upsertEdge now db edge) scope other)
          (rowOfEdge now edge) = false := by
      rw [apartFrom, Bool.and_eq_false_iff, decide_eq_false_iff_not,
        decide_eq_false_iff_not, not_not, not_not]
      exact touches.imp (List.mem_append_left _) (List.mem_append_left _)
    rw [edges_upsertEdge fresh, List.filter_append, List.filter_cons_of_neg
      (ne_true_of_eq_false touching)]
    exact List.append_nil _

theorem noneSeen_upsertNode (fresh : node.id ∉ db.nodes.map NodeRow.id)
    (none : NoneSeen runtime db scope other)
    (hidden : seen runtime scope db.path (rowOfNode now node) = false) :
    NoneSeen runtime (upsertNode now db node) scope other := by
  intro row inside foreign
  rw [nodes_upsertNode fresh, List.mem_append, List.mem_singleton] at inside
  rcases inside with old | rfl
  · exact none row old foreign
  · exact hidden

theorem upsertNode_unchanged_iff (named : scope.tenantId ≠ "")
    (fresh : node.id ∉ db.nodes.map NodeRow.id)
    (foreign : foreignTo scope other (rowOfNode now node) = true)
    (none : NoneSeen runtime db scope other) :
    (∀ query, query ≠ GraphQuery.latencyStats →
      runGraphQuery runtime now (upsertNode now db node) later query scope =
        runGraphQuery runtime now db latency query scope) ↔
      seen runtime scope db.path (rowOfNode now node) = false ∧
        SameOutcomes runtime now db scope (upsertNode now db node) := by
  constructor
  · intro same
    refine ⟨?_, ?_⟩
    · rw [seen, Bool.or_eq_false_iff, ← Bool.not_eq_true, ← Bool.not_eq_true]
      refine ⟨fun inView => ?_, fun counted => ?_⟩
      · exact neighbors_change_of_inView named fresh inView
          (same _ (by simp))
      · exact stats_change_of_counted named fresh counted
          (same _ (by simp))
    · refine sameOutcomes_of_rates named ?_ (List.Sublist.refl _)
        (same (.patternSuccessRates (some 0)) (by simp))
      rw [nodes_upsertNode fresh]
      exact List.sublist_append_left _ _
  · rintro ⟨hidden, outcomes⟩ query notLatency
    exact runGraphQuery_unchanged (differsOnlyFor_upsertNode fresh foreign)
      none (noneSeen_upsertNode fresh none hidden) outcomes latency later
      notLatency

theorem upsertEdge_unchanged_iff (named : scope.tenantId ≠ "")
    {edge : GlEdge} (fresh : edge.id ∉ db.edges.map EdgeRow.id)
    (touches : edge.source ∈ foreignIds db scope other ∨
      edge.target ∈ foreignIds db scope other)
    (none : NoneSeen runtime db scope other) :
    (∀ query, query ≠ GraphQuery.latencyStats →
      runGraphQuery runtime now (upsertEdge now db edge) later query scope =
        runGraphQuery runtime now db latency query scope) ↔
      SameOutcomes runtime now db scope (upsertEdge now db edge) := by
  constructor
  · intro same
    refine sameOutcomes_of_rates named (List.Sublist.refl _) ?_
      (same (.patternSuccessRates (some 0)) (by simp))
    rw [edges_upsertEdge fresh]
    exact List.sublist_append_left _ _
  · intro outcomes query notLatency
    exact runGraphQuery_unchanged (differsOnlyFor_upsertEdge fresh touches)
      none none outcomes latency later notLatency

end Additions

/-! ## A store of two tenants -/

/-- A host which writes whole numbers and compares texts by code units. -/
def plainRuntime : Runtime where
  numerals := Numerals.fractions
  sqliteNumeral number := String.ofList (Numerals.fractions.text number)
  collation := Collation.ordinal
  lowerCase := Text.lowerCase
  upperCase text := String.ofList (text.toList.map Char.toUpper)

theorem twoTenants_keys :
    ([nodeNaming "consumer:app" "Consumer" (.str "acme"),
      nodeNaming "change:c1" "Change" (.str "globex")].map
        NodeRow.id).Nodup := by
  decide

/-- A consumer of one tenant and a change of another. -/
def twoTenants : GraphLearnDb where
  path := ":memory:"
  nodes := [nodeNaming "consumer:app" "Consumer" (.str "acme"),
    nodeNaming "change:c1" "Change" (.str "globex")]
  edges := []
  nodeKeys := twoTenants_keys
  edgeKeys := List.nodup_nil

def globexService : GlNode where
  id := "service:globex:api"
  kind := "Service"
  label := "api"
  repoId := some "globex"
  firstSeen := none
  lastSeen := none
  metaFields := none
  props := none

/-- A service of a tenant in whose name the first tenant is a prefix. -/
def nestedService : GlNode where
  id := "service:api"
  kind := "Service"
  label := "api"
  repoId := some "acme:eu"
  firstSeen := none
  lastSeen := none
  metaFields := none
  props := none

/-- An outcome of the consumer, for the change of the other tenant. -/
def mergedOutcome : GlEdge where
  id := "OUTCOME:1"
  kind := "OUTCOME_MERGED"
  source := "consumer:app"
  target := "change:c1"
  validFrom := some "2026-01-01T00:00:00.000Z"
  validTo := none
  sourceSystem := some "pr_outcome"
  confidence := some 1
  label := some 1
  props := none

/-- A report without samples. -/
def noLatencies : GraphQueryResult where
  op := "latency_stats"
  summary := ""
  coverage := { basis := .complete }

end Mendpoint.Graph
