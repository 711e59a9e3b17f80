import Mathlib.Algebra.BigOperators.Group.List.Basic
import Mendpoint.Graph.Views
import Mendpoint.Library.Counting

/-!
# Views, counts and rows of one scope

When the view in memory, the view in SQL and the counts hold the same graph,
and when the success of patterns, which is counted in the store, is what a
view would answer.  They do so as long as every node which is not kept with
the tenant is read alike, and no outcome leaves the graph of the tenant.
-/

namespace Mendpoint.Graph

open Mendpoint.Library

/-! ## Outcomes of a tenant -/

section Outcomes

variable (numerals : Numerals) (numeral : ℚ → String) (now : String)
  (db : GraphLearnDb) (scope : GraphTenantScope)

/-- The outcomes which hold now and leave a node. -/
def outcomesFrom (edges : List EdgeRow) (id : String) : List EdgeRow :=
  edges.filter fun row =>
    decide (row.source = id) && row.taken now (some outcomeKinds) {}

/-- The consumers which a tenant owns. -/
def tenantConsumers : List NodeRow :=
  (tenantRows numerals db scope).filter fun row =>
    decide (row.kind ∈ withLegacy legacyNodeKind "Consumer")

/-- The outcomes which hold now and leave a consumer of a tenant. -/
def tenantOutcomes : List EdgeRow :=
  (tenantConsumers numerals db scope).flatMap fun consumer =>
    outcomesFrom now db.edges consumer.id

/-- Outcomes counted one by one. -/
def countedOutcomes (rows : List EdgeRow) : OrderedMap String Samples :=
  (rows.map rowToEdge).foldl (countOutcome numerals) OrderedMap.empty

theorem outcomeStats_eq (consumers : List GlNode) :
    outcomeStats numerals now db consumers =
      countedOutcomes numerals
        (consumers.flatMap fun consumer =>
          outcomesFrom now db.edges consumer.id) := by
  rw [outcomeStats, countedOutcomes, List.map_flatMap, List.foldl_flatMap]
  rfl

theorem tenantPatternSuccessRows_eq (minSamples : ℚ) :
    tenantPatternSuccessRows numerals now db scope minSamples =
      rankedRows (countedOutcomes numerals
        (tenantOutcomes numerals now db scope)) minSamples := by
  have consumers : (listNodesByKind db "Consumer").filter
      (graphNodeBelongsToTenant numerals · scope) =
      (tenantConsumers numerals db scope).map rowToNode := by
    rw [listNodesByKind, List.filter_map, tenantConsumers, tenantRows,
      List.filter_filter, List.filter_filter]
    congr 2
    funext row
    exact Bool.and_comm _ _
  rw [tenantPatternSuccessRows, consumers, outcomeStats_eq, List.flatMap_map]
  rfl

/-! ## The rows in a view -/

theorem outcomesFrom_joined {allowed : List String} {id : String}
    (inside : id ∈ allowed) :
    outcomesFrom now (joined allowed db.edges) id =
      (outcomesFrom now db.edges id).filter
        fun row => decide (row.target ∈ allowed) := by
  rw [outcomesFrom, joined, outcomesFrom, List.filter_filter,
    List.filter_filter]
  refine List.filter_congr fun row _ => ?_
  by_cases source : row.source = id
  · rw [source, decide_eq_true inside]
    simp [Bool.and_comm]
  · simp [source]

theorem outcomesFrom_copied (edges : List EdgeRow) (id : String) :
    outcomesFrom now (edges.map (copiedEdge now)) id =
      (outcomesFrom now edges id).map (copiedEdge now) := by
  rw [outcomesFrom, outcomesFrom, List.filter_map]
  congr 1
  refine List.filter_congr fun row _ => ?_
  exact congrArg (decide (row.source = id) && ·)
    (taken_copiedEdge now (by decide) row)

theorem countedOutcomes_copied (rows : List EdgeRow) :
    countedOutcomes numerals (rows.map (copiedEdge now)) =
      countedOutcomes numerals rows := by
  rw [countedOutcomes, countedOutcomes, List.foldl_map, List.foldl_map,
    List.foldl_map]
  congr 1
  funext stats row
  exact countOutcome_copiedEdge numerals now stats row

theorem listNodesByKind_copyTenantGraph :
    listNodesByKind (copyTenantGraph numerals now db scope) "Consumer" =
      (tenantConsumers numerals db scope).map
        fun row => rowToNode (copiedNode now row) := by
  rw [listNodesByKind, nodes_copyTenantGraph, List.filter_map, List.map_map,
    tenantConsumers]
  congr 1
  refine List.filter_congr fun row _ => ?_
  refine decide_eq_decide.mpr ?_
  rw [mem_consumerKinds_iff, mem_consumerKinds_iff]
  show normalizeNodeKind (normalizeNodeKind row.kind) = _ ↔ _
  rw [normalizeNodeKind_idem]

theorem mem_tenantRows_of_mem_tenantConsumers {row : NodeRow}
    (inside : row ∈ tenantConsumers numerals db scope) :
    row ∈ tenantRows numerals db scope :=
  (List.mem_filter.mp inside).1

theorem patternSuccessRates_copyTenantGraph (minSamples : ℚ) :
    patternSuccessRates numerals now
        (copyTenantGraph numerals now db scope) minSamples =
      rankedRows (countedOutcomes numerals
        ((tenantOutcomes numerals now db scope).filter fun row =>
          decide (row.target ∈
            (tenantRows numerals db scope).map NodeRow.id))) minSamples := by
  rw [patternSuccessRates, outcomeStats_eq, listNodesByKind_copyTenantGraph,
    List.flatMap_map, edges_copyTenantGraph]
  have copied : (tenantConsumers numerals db scope).flatMap (fun consumer =>
      outcomesFrom now
        ((joined ((tenantRows numerals db scope).map NodeRow.id)
          db.edges).map (copiedEdge now))
        (rowToNode (copiedNode now consumer)).id) =
      ((tenantOutcomes numerals now db scope).filter fun row =>
        decide (row.target ∈
          (tenantRows numerals db scope).map NodeRow.id)).map
            (copiedEdge now) := by
    rw [tenantOutcomes, List.filter_flatMap, List.map_flatMap]
    refine List.flatMap_congr fun consumer inside => ?_
    have owned := @List.mem_map_of_mem _ _ _ _ NodeRow.id
      (mem_tenantRows_of_mem_tenantConsumers numerals db scope inside)
    rw [outcomesFrom_copied]
    exact congrArg _ (outcomesFrom_joined now db owned)
  rw [copied, countedOutcomes_copied]

/-! ## Rows count outcomes -/

/-- The number of outcomes which some counts are of. -/
def outcomesIn (samples : Samples) : Nat :=
  samples.ok + samples.fail

theorem weight_countOutcome (stats : OrderedMap String Samples)
    (edge : GlEdge) :
    OrderedMap.weight outcomesIn (countOutcome numerals stats edge).entries =
      OrderedMap.weight outcomesIn stats.entries + 1 := by
  have step := OrderedMap.weight_set outcomesIn stats
    (patternOf numerals edge)
  rw [countOutcome, OrderedMap.getD]
  cases found : stats.get? (patternOf numerals edge) with
  | none =>
    split
    · have changed := step { ok := 0 + 1, fail := 0 }
      rw [found] at changed
      simpa [outcomesIn, Nat.add_comm] using changed
    · have changed := step { ok := 0, fail := 0 + 1 }
      rw [found] at changed
      simpa [outcomesIn, Nat.add_comm] using changed
  | some old =>
    split
    · have changed := step { old with ok := old.ok + 1 }
      rw [found] at changed
      simp only [Option.map_some, Option.getD_some, outcomesIn] at changed ⊢
      omega
    · have changed := step { old with fail := old.fail + 1 }
      rw [found] at changed
      simp only [Option.map_some, Option.getD_some, outcomesIn] at changed ⊢
      omega

theorem weight_countedOutcomes (rows : List EdgeRow) :
    OrderedMap.weight outcomesIn (countedOutcomes numerals rows).entries =
      rows.length := by
  rw [countedOutcomes, OrderedMap.weight_foldl outcomesIn _
    (weight_countOutcome numerals), List.length_map]
  exact Nat.zero_add _

theorem sum_rankedRows (stats : OrderedMap String Samples) :
    ((rankedRows stats 0).map PatternRow.samples).sum =
      OrderedMap.weight outcomesIn stats.entries := by
  have all : (stats.entries.map patternRow).filter
      (fun row => decide ((0 : ℚ) ≤ row.samples)) =
      stats.entries.map patternRow :=
    List.filter_eq_self.mpr fun row _ => decide_eq_true (Nat.cast_nonneg _)
  rw [rankedRows, ((List.perm_insertionSort _ _).map _).sum_eq, all,
    List.map_map]
  rfl

theorem length_eq_of_perm {rows others : List EdgeRow}
    (same : (rankedRows (countedOutcomes numerals rows) 0).Perm
      (rankedRows (countedOutcomes numerals others) 0)) :
    rows.length = others.length := by
  rw [← weight_countedOutcomes numerals rows,
    ← weight_countedOutcomes numerals others, ← sum_rankedRows,
    ← sum_rankedRows]
  exact (same.map PatternRow.samples).sum_eq

/-! ## Agreement -/

/-- The three implementations of a scope describe one graph. -/
structure DescribesOneScope : Prop where
  nodes : ∀ id,
    id ∈ (copyTenantGraph numerals now db scope).nodes.map NodeRow.id ↔
      id ∈ (openPersistentTenantProjection numerals numeral db
        scope).nodes.map NodeRow.id
  edges : ∀ id,
    id ∈ (copyTenantGraph numerals now db scope).edges.map EdgeRow.id ↔
      id ∈ (openPersistentTenantProjection numerals numeral db
        scope).edges.map EdgeRow.id
  countedNodes : (tenantGraphStats numerals db scope).nodes =
    (openPersistentTenantProjection numerals numeral db scope).nodes.length
  countedEdges : (tenantGraphStats numerals db scope).edges =
    (openPersistentTenantProjection numerals numeral db scope).edges.length
  rowsOfCopy : ∀ minSamples,
    (tenantPatternSuccessRows numerals now db scope minSamples).Perm
      (patternSuccessRates numerals now
        (copyTenantGraph numerals now db scope) minSamples)
  rowsOfProjection : ∀ minSamples,
    (tenantPatternSuccessRows numerals now db scope minSamples).Perm
      (patternSuccessRates numerals now
        (openPersistentTenantProjection numerals numeral db scope)
        minSamples)

/--
Nodes which only name the tenant are read alike, and the outcomes of the
tenant's consumers lead to nodes of the tenant.
-/
structure ReadAlike : Prop where
  names : ∀ row ∈ db.nodes, keptWithTenant row scope = false →
    NamesAlike numerals numeral row scope
  outcomes : ∀ row ∈ tenantOutcomes numerals now db scope,
    row.target ∈ (tenantRows numerals db scope).map NodeRow.id

variable {numerals numeral now db scope}

theorem ids_copyTenantGraph :
    (copyTenantGraph numerals now db scope).nodes.map NodeRow.id =
      (tenantRows numerals db scope).map NodeRow.id := by
  rw [nodes_copyTenantGraph, List.map_map]
  rfl

theorem mem_ids_filter {selected : NodeRow → Bool} {row : NodeRow}
    (inside : row ∈ db.nodes) :
    row.id ∈ (db.nodes.filter selected).map NodeRow.id ↔
      selected row = true := by
  rw [List.mem_map]
  constructor
  · rintro ⟨other, within, same⟩
    rw [List.mem_filter] at within
    rw [Table.eq_of_key db.nodeKeys inside within.1 same.symm]
    exact within.2
  · intro chosen
    exact ⟨row, List.mem_filter.mpr ⟨inside, chosen⟩, rfl⟩

theorem DescribesOneScope.readAlike
    (one : DescribesOneScope numerals numeral now db scope) :
    ReadAlike numerals numeral now db scope where
  names row inside apart := by
    have view := one.nodes row.id
    rw [ids_copyTenantGraph, tenantRows, mem_ids_filter inside,
      openPersistentTenantProjection, mem_ids_filter inside] at view
    have counted : statsPredicate numerals row scope = true ↔
        projectionPredicate numerals numeral row scope = true := by
      have sub : (db.nodes.filter (statsPredicate numerals · scope)).Sublist
          (db.nodes.filter
            (projectionPredicate numerals numeral · scope)) :=
        List.monotone_filter_right _ fun _ =>
          projectionPredicate_of_statsPredicate numerals numeral
      have same := sub.eq_of_length (by
        have lengths := one.countedNodes
        rwa [tenantGraphStats, statsAllowed, List.length_map] at lengths)
      have both : row.id ∈ (db.nodes.filter
          (statsPredicate numerals · scope)).map NodeRow.id ↔
          row.id ∈ (db.nodes.filter
            (projectionPredicate numerals numeral · scope)).map
              NodeRow.id := by
        rw [same]
      rwa [mem_ids_filter inside, mem_ids_filter inside] at both
    exact
      { view := (belongs_iff_projected numerals numeral row scope).mp view
          apart
        counts := (counted_iff_projected numerals numeral row scope).mp
          counted apart }
  outcomes := by
    have rows := one.rowsOfCopy 0
    rw [tenantPatternSuccessRows_eq, patternSuccessRates_copyTenantGraph]
      at rows
    have lengths := length_eq_of_perm numerals rows
    intro row inside
    have kept := List.length_filter_eq_length_iff.mp lengths.symm row inside
    exact of_decide_eq_true kept

section Alike

variable (alike : ReadAlike numerals numeral now db scope)

include alike

theorem ReadAlike.nodes_projection :
    (openPersistentTenantProjection numerals numeral db scope).nodes =
      tenantRows numerals db scope := by
  refine List.filter_congr fun row inside => ?_
  rw [Bool.eq_iff_iff]
  exact ((belongs_iff_projected numerals numeral row scope).mpr fun apart =>
    (alike.names row inside apart).view).symm

theorem ReadAlike.edges_projection :
    (openPersistentTenantProjection numerals numeral db scope).edges =
      joined ((tenantRows numerals db scope).map NodeRow.id) db.edges :=
  congrArg (fun nodes : List NodeRow => joined (nodes.map NodeRow.id) db.edges)
    alike.nodes_projection

theorem ReadAlike.counted :
    statsAllowed numerals db scope =
      (openPersistentTenantProjection numerals numeral db scope).nodes.map
        NodeRow.id := by
  refine congrArg (List.map NodeRow.id) ?_
  refine List.filter_congr fun row inside => ?_
  rw [Bool.eq_iff_iff]
  exact (counted_iff_projected numerals numeral row scope).mpr fun apart =>
    (alike.names row inside apart).counts

theorem ReadAlike.outcomes_kept :
    ((tenantOutcomes numerals now db scope).filter fun row =>
      decide (row.target ∈ (tenantRows numerals db scope).map NodeRow.id)) =
      tenantOutcomes numerals now db scope :=
  List.filter_eq_self.mpr fun row inside =>
    decide_eq_true (alike.outcomes row inside)

theorem ReadAlike.patternSuccessRates_projection (minSamples : ℚ) :
    patternSuccessRates numerals now
        (openPersistentTenantProjection numerals numeral db scope)
        minSamples =
      tenantPatternSuccessRows numerals now db scope minSamples := by
  rw [patternSuccessRates, outcomeStats_eq, tenantPatternSuccessRows_eq,
    listNodesByKind, List.flatMap_map, alike.nodes_projection,
    alike.edges_projection]
  congr 2
  rw [← alike.outcomes_kept, tenantOutcomes, List.filter_flatMap]
  refine List.flatMap_congr fun consumer inside => ?_
  exact outcomesFrom_joined now db (List.mem_map_of_mem
    (mem_tenantRows_of_mem_tenantConsumers numerals db scope inside))

theorem ReadAlike.describesOneScope :
    DescribesOneScope numerals numeral now db scope where
  nodes id := by
    rw [ids_copyTenantGraph, alike.nodes_projection]
  edges id := by
    rw [edges_copyTenantGraph, List.map_map, alike.edges_projection]
    exact Iff.rfl
  countedNodes := by
    rw [tenantGraphStats, alike.counted, List.length_map]
  countedEdges := by
    rw [tenantGraphStats, alike.counted]
    rfl
  rowsOfCopy minSamples := by
    rw [tenantPatternSuccessRows_eq, patternSuccessRates_copyTenantGraph,
      alike.outcomes_kept]
  rowsOfProjection minSamples := by
    rw [alike.patternSuccessRates_projection]

end Alike

end Outcomes

/-! ## Two graphs which are not described alike -/

/-- A node which was upserted for a tenant, or names one in its way. -/
def nodeNaming (id kind : String) (tenant : Json) : NodeRow where
  id := id
  kind := kind
  label := id
  repoId := some ""
  firstSeen := some "2026-01-01T00:00:00.000Z"
  lastSeen := some "2026-01-01T00:00:00.000Z"
  propsJson := some (.obj [("tenant_id", tenant)])
  metaJson := none

/-- A merged change, labelled for one tenant and then for another. -/
def sharedChange : GraphLearnDb where
  path := ":memory:"
  nodes := [nodeNaming "consumer:app" "Consumer" (.str "acme"),
    nodeNaming "change:c1" "Change" (.str "globex")]
  edges :=
    [{ id := "OUTCOME:1", kind := "OUTCOME_MERGED", source := "consumer:app"
       target := "change:c1", validFrom := some "2026-01-01T00:00:00.000Z"
       validTo := none, sourceSystem := some "pr_outcome"
       confidence := some 1, propsJson := none, label := some 1 }]
  nodeKeys := by decide
  edgeKeys := List.nodup_singleton _

/-- A node which names its tenant by a number. -/
def numberedTenant : GraphLearnDb where
  path := ":memory:"
  nodes := [nodeNaming "service:api" "Service" (.num 7)]
  edges := []
  nodeKeys := List.nodup_singleton _
  edgeKeys := List.nodup_nil

end Mendpoint.Graph
