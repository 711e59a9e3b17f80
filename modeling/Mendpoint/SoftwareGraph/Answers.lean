import Mendpoint.SoftwareGraph.Chain
import Mendpoint.SoftwareGraph.Reach

/-!
# Answers about impacts

What an answer says of a published graph: no impact only where nothing of the
repository leads to the target, and paths which can always be compiled.
-/

namespace Mendpoint.SoftwareGraph

open Mendpoint.Library
open Mendpoint.Library.Fallible

/-! ## Graphs which are read -/

theorem normal_of_read {hexDigest : String → String} {db : GraphDb}
    {tenantId repositoryId versionId : String} {graph : PublishedVersion}
    (read : readSoftwareGraphVersion hexDigest db tenantId repositoryId
      versionId = .ok graph) :
    Accepted graph.toPublication ∧
      normal graph.toPublication = graph.toPublication := by
  rw [readSoftwareGraphVersion] at read
  cases found : db.version? versionId tenantId repositoryId with
  | none =>
    rw [found] at read
    cases read
  | some row =>
    rw [found] at read
    dsimp only at read
    rw [check_bind_eq_ok, bind_eq_ok] at read
    obtain ⟨_, publication, _, read⟩ := read
    rw [check_bind_eq_ok, check_bind_eq_ok, bind_eq_ok] at read
    obtain ⟨_, _, normalized, normal, read⟩ := read
    rw [check_bind_eq_ok, pure_eq_ok] at read
    rw [← read.2]
    exact normalizedPublication_eq_ok.mp (normalized_normalized normal)

theorem mem_of_resolveAlias {entities : List Entity} {key : String}
    {entity : Entity}
    (resolved : (resolveAlias entities key).entity? = some entity) :
    entity ∈ entities := by
  rw [resolveAlias] at resolved
  split at resolved
  · cases resolved
  · rename_i only same
    cases resolved
    exact (List.mem_filter.mp (same ▸ List.mem_singleton_self entity)).1
  · cases resolved

theorem mem_of_resolved {entities : List Entity} {key : String}
    {entity : Entity}
    (resolved : (resolveSoftwareEntity entities key).entity? = some entity) :
    entity ∈ entities := by
  rw [resolveSoftwareEntity] at resolved
  split at resolved
  · exact mem_of_resolveAlias resolved
  · rename_i only same
    cases resolved
    exact (List.mem_filter.mp (same ▸ List.mem_singleton_self entity)).1
  · cases resolved

theorem Accepted.proper {graph : Publication} (accepted : Accepted graph)
    {query : ImpactQuery} {target : Entity}
    (member : target ∈ graph.entities) :
    (query.search graph target).Proper where
  ids := accepted.ids
  relationshipIds := accepted.relationshipIds
  target := member

theorem source_of_accepted {graph : Publication}
    (accepted : Accepted graph) (same : normal graph = graph)
    {edge : Relationship} (member : edge ∈ graph.relationships) :
    ∃ source ∈ graph.entities, source.id = edge.sourceId := by
  have checked := accepted.relationships edge member
  rw [same, checkRelationship] at checked
  simp only [check_bind_eq_ok] at checked
  have pair := checked.2.2.1
  rw [checkPair] at pair
  cases kind : entityKind? graph.entities edge.sourceId with
  | none =>
    rw [kind] at pair
    cases pair
  | some sourceKind =>
    rw [entityKind?_eq_some accepted.ids] at kind
    obtain ⟨source, inside, named, _⟩ := kind
    exact ⟨source, inside, named⟩

/-! ## No impact -/

/-- A chain of relationships, of any length, from an id to another one. -/
def Upstream (graph : Publication) : String → String → Prop :=
  Relation.TransGen fun sourceId targetId => ∃ edge ∈ graph.relationships,
    edge.sourceId = sourceId ∧ edge.targetId = targetId

theorem mem_allowed {query : ImpactQuery}
    (unfiltered : query.filtersKinds = false) (kind : RelationshipKind) :
    kind ∈ query.allowed := by
  rw [ImpactQuery.filtersKinds, decide_eq_false_iff_not, ne_eq,
    not_not] at unfiltered
  have within : query.allowed.dedup ⊆ RelationshipKind.all :=
    fun kind _ => kind.mem_all
  have permuted := (List.subperm_of_subset
    (List.nodup_dedup query.allowed) within).perm_of_length_le
      (Nat.le_of_eq unfiltered.symm)
  exact List.mem_dedup.mp (permuted.mem_iff.mpr kind.mem_all)

section Complete

variable {graph : Publication} {query : ImpactQuery} {target : Entity}

theorem leads_of_complete (accepted : Accepted graph)
    (same : normal graph = graph) (member : target ∈ graph.entities)
    (active : hasNonActiveEvidence graph = false)
    (unfiltered : query.filtersKinds = false) {edge : Relationship}
    (inside : edge ∈ graph.relationships) :
    ∃ source, (query.search graph target).Leads edge source ∧
      source.id = edge.sourceId := by
  obtain ⟨source, sourceInside, named⟩ := source_of_accepted accepted same inside
  rw [hasNonActiveEvidence, Bool.or_eq_false_iff, List.any_eq_false,
    List.any_eq_false] at active
  have sourceActive := active.1 source sourceInside
  have edgeActive := active.2 edge inside
  rw [decide_eq_true_eq, not_not] at sourceActive edgeActive
  refine ⟨source, ⟨⟨inside, edgeActive, mem_allowed unfiltered _⟩, ?_,
    sourceActive⟩, named⟩
  rw [← named]
  exact (accepted.proper member).byId_eq sourceInside

theorem found_of_upstream (accepted : Accepted graph)
    (same : normal graph = graph) (member : target ∈ graph.entities)
    (active : hasNonActiveEvidence graph = false)
    (unfiltered : query.filtersKinds = false)
    (complete : (query.search graph target).run.truncated = false)
    {id : String} (upstream : Upstream graph id target.id) :
    ∃ edge source,
      edge ∈ (query.search graph target).run.foundRelationships.values ∧
      (query.search graph target).Leads edge source ∧ source.id = id := by
  have proper : (query.search graph target).Proper := accepted.proper member
  induction upstream using Relation.TransGen.head_induction_on with
  | single joined =>
    obtain ⟨edge, inside, rfl, ends⟩ := joined
    obtain ⟨source, leads, named⟩ := leads_of_complete accepted same member
      active unfiltered inside
    refine ⟨edge, source, ?_, leads, named⟩
    rw [ImpactSearch.foundRelationships_run proper complete]
    exact ⟨source, leads, target, .target, ends⟩
  | head joined _ inductionHypothesis =>
    obtain ⟨edge, inside, rfl, ends⟩ := joined
    obtain ⟨next, entity, found, nextLeads, nextNamed⟩ :=
      inductionHypothesis
    obtain ⟨source, leads, named⟩ := leads_of_complete accepted same member
      active unfiltered inside
    refine ⟨edge, source, ?_, leads, named⟩
    rw [ImpactSearch.foundRelationships_run proper complete] at found ⊢
    obtain ⟨_, _, last, reached, nextEnds⟩ := found
    exact ⟨source, leads, entity, .source reached nextLeads nextEnds,
      ends.trans nextNamed.symm⟩

end Complete

/-! ## Paths -/

/-- A path along relationships of a result, between entities of it. -/
structure PathIn (result : ImpactResult) (path : List String) : Prop where
  joined : path.IsChain fun targetId id => ∃ edge ∈ result.relationships,
    edge.targetId = targetId ∧ edge.sourceId = id
  known : ∀ id ∈ path, ∃ entity ∈ result.entities, entity.id = id

variable {result : ImpactResult} {hexDigest : String → String}
  {query : ImpactQuery} {graph : PublishedVersion}

theorem entityOf_eq {id : String}
    (known : ∃ entity ∈ result.entities, entity.id = id) :
    ∃ entity, entityOf result id = .ok entity := by
  obtain ⟨entity, member, named⟩ := known
  have present : id ∈ result.entityById.keys := by
    rw [ImpactResult.entityById, OrderedMap.mem_keys_ofList, List.map_map]
    exact List.mem_map.mpr ⟨entity, member, named⟩
  obtain ⟨other, found⟩ := (OrderedMap.mem_keys_iff _ _).mp present
  exact ⟨other, by rw [entityOf, found]⟩

theorem edgeOf_eq {targetId id : String}
    (joined : ∃ edge ∈ result.relationships, edge.targetId = targetId ∧
      edge.sourceId = id) : ∃ edge, edgeOf result targetId id = .ok edge := by
  obtain ⟨edge, member, rfl, rfl⟩ := joined
  have present : pairKey edge.targetId edge.sourceId ∈
      result.edgeByPair.keys := by
    rw [ImpactResult.edgeByPair, OrderedMap.mem_keys_ofList, List.map_map]
    exact List.mem_map.mpr ⟨edge, member, rfl⟩
  obtain ⟨other, found⟩ := (OrderedMap.mem_keys_iff _ _).mp present
  exact ⟨other, by rw [edgeOf, found]⟩

theorem compileSteps_eq {targetId : String} {rest : List String}
    (path : PathIn result (targetId :: rest)) :
    ∃ steps, compileSteps result targetId rest = .ok steps := by
  induction rest generalizing targetId with
  | nil => exact ⟨[], rfl⟩
  | cons id others inductionHypothesis =>
    have joined := List.isChain_cons_cons.mp path.joined
    have known := path.known
    rw [List.forall_mem_cons] at known
    obtain ⟨entity, entityFound⟩ := entityOf_eq
      (known.2 id List.mem_cons_self)
    obtain ⟨edge, edgeFound⟩ := edgeOf_eq joined.1
    obtain ⟨steps, compiled⟩ := inductionHypothesis ⟨joined.2, known.2⟩
    rw [compileSteps, entityFound, ok_bind, edgeFound, ok_bind, compiled]
    exact ⟨_, rfl⟩

theorem compilePath_eq {path : List String} (inside : PathIn result path) :
    ∃ compiled, compilePath result path = .ok compiled := by
  cases path with
  | nil => exact ⟨_, rfl⟩
  | cons id rest =>
    obtain ⟨entity, found⟩ := entityOf_eq
      (inside.known id List.mem_cons_self)
    obtain ⟨steps, compiled⟩ := compileSteps_eq inside
    rw [compilePath, found, ok_bind, compiled]
    exact ⟨_, rfl⟩

theorem compilePaths_eq {paths : List (List String)}
    (inside : ∀ path ∈ paths, PathIn result path) :
    ∃ compiled, paths.mapM (compilePath result) = .ok compiled := by
  induction paths with
  | nil => exact ⟨[], rfl⟩
  | cons path rest inductionHypothesis =>
    rw [List.forall_mem_cons] at inside
    obtain ⟨first, compiled⟩ := compilePath_eq inside.1
    obtain ⟨others, allCompiled⟩ := inductionHypothesis inside.2
    rw [List.mapM_cons, compiled, ok_bind, allCompiled, ok_bind]
    exact ⟨first :: others, rfl⟩

theorem compile_error {maxBytes : Int} {message : String}
    (inside : ∀ path ∈ result.paths, PathIn result path)
    (failed : compileFettlerImpactContext hexDigest result maxBytes = .error
      message) :
    message = "fettler_impact_context_bounds_invalid" ∨
      message = "fettler_impact_context_too_large" := by
  obtain ⟨compiled, all⟩ := compilePaths_eq inside
  rw [compileFettlerImpactContext, all, ok_bind] at failed
  rw [bind_eq_error] at failed
  rcases failed with bounds | ⟨_, _, failed⟩
  · rw [throwIf_eq_error] at bounds
    exact .inl bounds.2.symm
  · dsimp only at failed
    rw [bind_eq_error] at failed
    rcases failed with large | ⟨_, _, impossible⟩
    · rw [throwIf_eq_error] at large
      exact .inr large.2.symm
    · cases impossible

/-! ## Answers -/

/-- What an answer about a target says of the graph. -/
structure ImpactKept (hexDigest : String → String) (graph : Publication)
    (query : ImpactQuery) (target : Entity) (result : ImpactResult) :
    Prop where
  noImpact : result.impact = .noImpact → ∀ entity ∈ graph.entities,
    entity.kind.inRepository = true → ¬ Upstream graph entity.id target.id
  impact : result.impact = .impact ↔
    (∃ entity ∈ result.entities,
        entity ≠ target ∧ entity.kind.inRepository = true) ∨
      (target.kind.inRepository = true ∧
        ∃ edge ∈ result.relationships, edge.sourceId = target.id)
  entities : result.coverage.truncated = false → ∀ entity,
    entity ∈ result.entities ↔ (query.search graph target).Reached entity
  relationships : result.coverage.truncated = false → ∀ edge,
    edge ∈ result.relationships ↔
      (query.search graph target).Followed edge ∧
        (∃ source ∈ result.entities,
          source.id = edge.sourceId ∧ source.status = .active) ∧
        ∃ entity ∈ result.entities, entity.id = edge.targetId
  truncated : result.coverage.truncated = true →
    result.coverage.basis = .partly
  paths : ∀ path ∈ result.paths,
    path.head? = some target.id ∧ PathIn result path
  compiled : ∀ maxBytes message,
    compileFettlerImpactContext hexDigest result maxBytes = .error message →
    message = "fettler_impact_context_bounds_invalid" ∨
      message = "fettler_impact_context_too_large"

theorem answer_eq {db : GraphDb} {target : Entity}
    (read : readSoftwareGraphVersion hexDigest db query.tenantId
      query.repositoryId query.graphVersionId = .ok graph)
    (resolved : (resolveSoftwareEntity graph.entities
      query.endpointKey).entity? = some target)
    (answered : queryFettlerEndpointImpact hexDigest db query = .ok result) :
    result.toImpactBase = foundBase graph query
      (resolveSoftwareEntity graph.entities query.endpointKey)
      (query.search graph.toPublication target).run := by
  rw [queryFettlerEndpointImpact, check_bind_eq_ok, read, ok_bind,
    pure_eq_ok] at answered
  rw [← answered.2, impactBase, resolved]

theorem isComplete_eq_true {graph : Publication} {truncated : Bool}
    (complete : isComplete graph query truncated = true) :
    hasNonActiveEvidence graph = false ∧ truncated = false ∧
      query.filtersKinds = false := by
  rw [isComplete, Bool.and_eq_true, Bool.and_eq_true, Bool.and_eq_true,
    Bool.not_eq_true', Bool.not_eq_true', Bool.not_eq_true'] at complete
  exact ⟨complete.1.1.2, complete.1.2, complete.2⟩

theorem mem_entities_found {target : EntityResolution} {state : SearchState}
    {entity : Entity} :
    entity ∈ (foundBase graph query target state).entities ↔
      entity ∈ state.foundEntities.values :=
  Text.mem_sortBy Entity.id

theorem mem_relationships_found {target : EntityResolution}
    {state : SearchState} {edge : Relationship} :
    edge ∈ (foundBase graph query target state).relationships ↔
      edge ∈ state.foundRelationships.values :=
  Text.mem_sortBy Relationship.id

/-- Every answer about an entity which a key resolves to is kept. -/
theorem impact_kept {hexDigest : String → String} {db : GraphDb}
    {query : ImpactQuery} {graph : PublishedVersion} {target : Entity}
    {result : ImpactResult}
    (read : readSoftwareGraphVersion hexDigest db query.tenantId
      query.repositoryId query.graphVersionId = .ok graph)
    (resolved : (resolveSoftwareEntity graph.entities
      query.endpointKey).entity? = some target)
    (answered : queryFettlerEndpointImpact hexDigest db query = .ok result) :
    ImpactKept hexDigest graph.toPublication query target result := by
  obtain ⟨accepted, same⟩ := normal_of_read read
  have member := mem_of_resolved resolved
  have base := answer_eq read resolved answered
  have proper : (query.search graph.toPublication target).Proper :=
    accepted.proper member
  have sound := (ImpactSearch.kept_run proper).sound
  have entities : ∀ entity, entity ∈ result.entities ↔ entity ∈
      (query.search graph.toPublication target).run.foundEntities.values := by
    intro entity
    rw [base, mem_entities_found]
  have relationships : ∀ edge, edge ∈ result.relationships ↔ edge ∈
      (query.search graph.toPublication
        target).run.foundRelationships.values := by
    intro edge
    rw [base, mem_relationships_found]
  have truncated : result.coverage.truncated =
      (query.search graph.toPublication target).run.truncated := by
    rw [base]
    rfl
  have flagged : result.impact = .impact ↔
      (query.search graph.toPublication target).run.hasRepositoryImpact =
        true := by
    rw [base, foundBase]
    dsimp only
    cases (query.search graph.toPublication target).run.hasRepositoryImpact
      with
    | true => simp
    | false =>
      rw [if_neg Bool.false_ne_true]
      split
      · simp
      · simp
  have paths : ∀ path ∈ result.paths,
      path.head? = some target.id ∧ PathIn result path := by
    intro path inside
    rw [base, foundBase, sortPaths, Text.mem_sortBy] at inside
    have isPath := sound.paths path inside
    refine ⟨isPath.starts, isPath.joined.imp ?_, ?_⟩
    · rintro targetId id ⟨key, edge, found, joins⟩
      refine ⟨edge, ?_, joins⟩
      rw [relationships, OrderedMap.mem_values_iff]
      exact ⟨key, found⟩
    · intro id known
      obtain ⟨entity, found⟩ := isPath.known id known
      refine ⟨entity, ?_, (sound.entities id entity found).1⟩
      rw [entities, OrderedMap.mem_values_iff]
      exact ⟨id, found⟩
  constructor
  case noImpact =>
    intro noImpact entity inside kind upstream
    have complete : isComplete graph.toPublication query
        (query.search graph.toPublication target).run.truncated = true := by
      rw [base, foundBase] at noImpact
      dsimp only at noImpact
      split at noImpact
      · cases noImpact
      · split at noImpact
        · assumption
        · cases noImpact
    obtain ⟨active, uncut, unfiltered⟩ := isComplete_eq_true complete
    obtain ⟨edge, source, found, leads, named⟩ := found_of_upstream accepted
      same member active unfiltered uncut upstream
    rw [OrderedMap.mem_values_iff] at found
    obtain ⟨key, found⟩ := found
    have isSource := proper.entity_eq (ImpactSearch.mem_of_byId leads.named).1
      inside named
    have impact := flagged.mpr (sound.impact.mpr
      ⟨key, edge, source, found, leads, isSource ▸ kind⟩)
    rw [noImpact] at impact
    cases impact
  case impact =>
    rw [flagged, sound.impact]
    constructor
    · rintro ⟨id, edge, source, found, leads, kind⟩
      obtain ⟨_, other, otherLeads, known, _⟩ :=
        sound.relationships id edge found
      have isSource := otherLeads.named
      rw [leads.named, Option.some_inj] at isSource
      by_cases isTarget : source = target
      · refine .inr ⟨isTarget ▸ kind, edge, ?_, ?_⟩
        · rw [relationships, OrderedMap.mem_values_iff]
          exact ⟨id, found⟩
        · rw [← isTarget, (ImpactSearch.mem_of_byId leads.named).2]
      · refine .inl ⟨source, ?_, isTarget, kind⟩
        rw [entities, OrderedMap.mem_values_iff]
        exact ⟨_, isSource ▸ known⟩
    · rintro (⟨entity, inside, other, kind⟩ | ⟨kind, edge, inside, named⟩)
      · rw [entities, OrderedMap.mem_values_iff] at inside
        obtain ⟨id, found⟩ := inside
        rcases sound.sources id entity found with isTarget |
          ⟨key, edge, edgeFound, leads⟩
        · exact absurd isTarget other
        · exact ⟨key, edge, entity, edgeFound, leads, kind⟩
      · rw [relationships, OrderedMap.mem_values_iff] at inside
        obtain ⟨id, found⟩ := inside
        obtain ⟨_, source, leads, _⟩ := sound.relationships id edge found
        have sourceMember := ImpactSearch.mem_of_byId leads.named
        have isTarget := proper.entity_eq sourceMember.1 member
          (sourceMember.2.trans named)
        exact ⟨id, edge, source, found, leads, isTarget ▸ kind⟩
  case entities =>
    intro uncut entity
    rw [truncated] at uncut
    rw [entities, ImpactSearch.foundEntities_run proper uncut]
  case relationships =>
    intro uncut edge
    rw [truncated] at uncut
    rw [relationships, ImpactSearch.foundRelationships_run proper uncut]
    simp only [entities, ImpactSearch.foundEntities_run proper uncut]
    constructor
    · rintro ⟨source, leads, entity, reached, ends⟩
      exact ⟨leads.followed, ⟨source, .source reached leads ends,
        (ImpactSearch.mem_of_byId leads.named).2, leads.active⟩,
        entity, reached, ends.symm⟩
    · rintro ⟨followed, ⟨source, reachedSource, named, active⟩, entity,
        reached, ends⟩
      refine ⟨source, ⟨followed, ?_, active⟩, entity, reached, ends.symm⟩
      rw [← named]
      exact proper.byId_eq (proper.reached_mem reachedSource)
  case truncated =>
    intro cut
    rw [truncated] at cut
    rw [base, foundBase]
    dsimp only
    rw [if_neg]
    intro complete
    rw [(isComplete_eq_true complete).2.1] at cut
    cases cut
  case paths => exact paths
  case compiled =>
    intro maxBytes message failed
    exact compile_error (fun path inside => (paths path inside).2) failed

/-! ## A function which calls itself -/

def treeFinding : Finding where
  evidenceRefs := ["tree"]
  extractor := sampleExtractor
  derivation := .callGraph
  confidenceBasis := .deterministicExact
  status := .active
  validFrom := "2026-01-01T00:00:00.000Z"
  validTo := none
  conflictRefs := none

def walk : Entity where
  toFinding := treeFinding
  id := "walk"
  kind := .function
  canonicalKey := "walk"
  aliases := []
  label := "walk"
  scope := .repository

def walkAgain : Relationship where
  toFinding := treeFinding
  id := "again"
  kind := .calls
  sourceId := "walk"
  targetId := "walk"

def walkGraph : Publication :=
  { sample with
    entities := [walk]
    relationships := [walkAgain] }

/-- An injective digest, which is the SHA-256 of the graph there. -/
def walkDigest : String → String :=
  Equiv.swap (contentJson walkGraph)
    "5b6af904131480275290a9ed5ec8e7c5666834348d5cfa870ec7ca15e557ea8a"

def walkQuery : ImpactQuery where
  tenantId := walkGraph.tenantId
  repositoryId := walkGraph.repositoryId
  graphVersionId := idOf walkDigest walkGraph
  endpointKey := "walk"
  allowedRelationshipKinds := none
  maxHops := 3
  maxEntities := 10
  maxRelationships := 10

def walkVersion : PublishedVersion where
  toPublication := walkGraph
  versionId := idOf walkDigest walkGraph
  contentDigest := digestOf walkDigest walkGraph

def walkResult : ImpactResult where
  toImpactBase := impactBase walkVersion walkQuery
  resultDigest := sha256 walkDigest
    (Written.canonical (impactBase walkVersion walkQuery).write)

theorem checkPublication_walkGraph :
    checkPublication walkGraph = .ok () := by
  rfl

theorem normal_walkGraph : normal walkGraph = walkGraph := by
  decide

theorem normalized_walkGraph :
    normalizedPublication walkGraph = .ok walkGraph := by
  rw [normalizedPublication, checkPublication_walkGraph, ok_bind,
    normal_walkGraph]
  rfl

theorem kept_first (injective : Function.Injective hexDigest)
    {publication : Publication}
    (normalized : normalizedPublication publication = .ok publication)
    (parentless : publication.parentVersionId = none) :
    Kept hexDigest (publishAll hexDigest [publication]) [publication] := by
  obtain ⟨after, outcome, kept, _⟩ :=
    Kept.empty.stepped injective publication
  rw [outcome.after_of_first normalized parentless] at kept
  exact kept

theorem walkDigest_injective : Function.Injective walkDigest :=
  Equiv.injective _

theorem read_walkGraph :
    readSoftwareGraphVersion walkDigest (publishAll walkDigest [walkGraph])
      walkQuery.tenantId walkQuery.repositoryId walkQuery.graphVersionId =
        .ok walkVersion := by
  have parentless : walkGraph.parentVersionId = none := rfl
  have kept := kept_first walkDigest_injective normalized_walkGraph parentless
  rw [walkQuery, kept.read_eq walkDigest_injective List.mem_cons_self,
    walkVersion]

theorem query_walkGraph :
    queryFettlerEndpointImpact walkDigest (publishAll walkDigest [walkGraph])
      walkQuery = .ok walkResult := by
  rw [queryFettlerEndpointImpact, throwIf, if_neg (by decide), ok_bind,
    read_walkGraph, ok_bind, walkResult]
  rfl

theorem resolved_walkGraph :
    (resolveSoftwareEntity walkVersion.entities
      walkQuery.endpointKey).entity? = some walk := by
  decide

theorem impact_kept_walkGraph :
    ImpactKept walkDigest walkGraph walkQuery walk walkResult :=
  impact_kept read_walkGraph resolved_walkGraph query_walkGraph

/-- The impact of a function on itself is no impact on another entity. -/
theorem walkGraph_impact :
    ¬ ∀ result, queryFettlerEndpointImpact walkDigest
        (publishAll walkDigest [walkGraph]) walkQuery = .ok result →
      (result.impact = .impact ↔ ∃ entity ∈ result.entities,
        entity ≠ walk ∧ entity.kind.inRepository = true) := by
  intro claimed
  have impact : walkResult.impact = .impact := by
    rfl
  obtain ⟨entity, member, other, _⟩ :=
    (claimed walkResult query_walkGraph).mp impact
  have only : walkResult.entities = [walk] := by
    rfl
  rw [only, List.mem_singleton] at member
  exact other member

end Mendpoint.SoftwareGraph
