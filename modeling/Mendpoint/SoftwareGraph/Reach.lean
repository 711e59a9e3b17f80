import Mathlib.Algebra.Order.BigOperators.Group.List
import Mathlib.Data.List.Chain
import Mendpoint.SoftwareGraph.Impact
import Mendpoint.SoftwareGraph.Normal

/-!
# What a search for impacts reaches

A search which is not cut returns the entities with a chain of relationships
to its target, and a search which is cut tells so.
-/

namespace Mendpoint.SoftwareGraph.ImpactSearch

open Mendpoint.Library

/-- A search in a graph whose ids are unique, from one of its entities. -/
structure Proper (search : ImpactSearch) : Prop where
  ids : (search.graph.entities.map Entity.id).Nodup
  relationshipIds : (search.graph.relationships.map Relationship.id).Nodup
  target : search.target ∈ search.graph.entities

/-- An active relationship of an allowed kind. -/
def Followed (search : ImpactSearch) (edge : Relationship) : Prop :=
  edge ∈ search.graph.relationships ∧ edge.status = .active ∧
    edge.kind ∈ search.allowed

/-- An active entity which a followed relationship comes from. -/
structure Leads (search : ImpactSearch) (edge : Relationship)
    (source : Entity) : Prop where
  followed : search.Followed edge
  named : search.byId edge.sourceId = some source
  active : source.status = .active

/-- The target, and what leads to it through active entities. -/
inductive Reached (search : ImpactSearch) : Entity → Prop where
  | target : Reached search search.target
  | source {entity source : Entity} {edge : Relationship}
      (reached : Reached search entity) (leads : search.Leads edge source)
      (ends : edge.targetId = entity.id) : Reached search source

variable {search : ImpactSearch}

theorem mem_incoming {edge : Relationship} {id : String} :
    edge ∈ search.incoming id ↔ search.Followed edge ∧ edge.targetId = id := by
  rw [incoming, Text.mem_sortBy, List.mem_filter, decide_eq_true_eq,
    Followed, and_assoc, and_assoc]

theorem mem_of_byId {id : String} {entity : Entity}
    (named : search.byId id = some entity) :
    entity ∈ search.graph.entities ∧ entity.id = id := by
  have member := OrderedMap.mem_of_get?_ofList named
  obtain ⟨other, inside, same⟩ := List.mem_map.mp member
  cases same
  exact ⟨inside, rfl⟩

namespace Proper

theorem byId_eq (proper : search.Proper) {entity : Entity}
    (member : entity ∈ search.graph.entities) :
    search.byId entity.id = some entity := by
  have keys : ((search.graph.entities.map fun entity =>
      (entity.id, entity)).map Prod.fst).Nodup := by
    rw [List.map_map]
    exact proper.ids
  exact (OrderedMap.get?_ofList_of_nodup keys _ _).mpr
    (List.mem_map.mpr ⟨entity, member, rfl⟩)

theorem entity_eq (proper : search.Proper) {entity other : Entity}
    (member : entity ∈ search.graph.entities)
    (otherMember : other ∈ search.graph.entities)
    (same : entity.id = other.id) : entity = other :=
  List.inj_on_of_nodup_map proper.ids member otherMember same

theorem edge_eq (proper : search.Proper) {edge other : Relationship}
    (member : edge ∈ search.graph.relationships)
    (otherMember : other ∈ search.graph.relationships)
    (same : edge.id = other.id) : edge = other :=
  List.inj_on_of_nodup_map proper.relationshipIds member otherMember same

theorem reached_mem (proper : search.Proper) {entity : Entity}
    (reached : search.Reached entity) : entity ∈ search.graph.entities := by
  cases reached with
  | target => exact proper.target
  | source _ leads => exact (mem_of_byId leads.named).1

end Proper

/-! ## Growth -/

/-- Nothing which has been found is lost. -/
structure Grows (state after : SearchState) : Prop where
  entities : ∀ id entity, state.foundEntities.get? id = some entity →
    after.foundEntities.get? id = some entity
  relationships : ∀ id edge, state.foundRelationships.get? id = some edge →
    after.foundRelationships.get? id = some edge
  truncated : after.truncated = false → state.truncated = false

theorem Grows.refl (state : SearchState) : Grows state state where
  entities _ _ := id
  relationships _ _ := id
  truncated := id

theorem Grows.trans {state middle after : SearchState}
    (first : Grows state middle) (second : Grows middle after) :
    Grows state after where
  entities id entity found := second.entities id entity
    (first.entities id entity found)
  relationships id edge found := second.relationships id edge
    (first.relationships id edge found)
  truncated complete := first.truncated (second.truncated complete)

/-- A path from the target along relationships which have been found. -/
structure IsPath (search : ImpactSearch) (state : SearchState)
    (path : List String) : Prop where
  starts : path.head? = some search.target.id
  joined : path.IsChain fun targetId id => ∃ key edge,
    state.foundRelationships.get? key = some edge ∧
      edge.targetId = targetId ∧ edge.sourceId = id
  known : ∀ id ∈ path, ∃ entity, state.foundEntities.get? id = some entity

theorem IsPath.grows {state after : SearchState} {path : List String}
    (isPath : search.IsPath state path) (grows : Grows state after) :
    search.IsPath after path where
  starts := isPath.starts
  joined := by
    refine isPath.joined.imp ?_
    rintro targetId id ⟨key, edge, found, joins⟩
    exact ⟨key, edge, grows.relationships key edge found, joins⟩
  known := by
    intro id member
    obtain ⟨entity, found⟩ := isPath.known id member
    exact ⟨entity, grows.entities id entity found⟩

/-- A visit whose path ends at its entity. -/
structure Arrives (search : ImpactSearch) (state : SearchState)
    (visit : Visit) : Prop where
  isPath : search.IsPath state visit.path
  ends : visit.path.getLast? = some visit.id

theorem Arrives.grows {state after : SearchState} {visit : Visit}
    (arrives : search.Arrives state visit) (grows : Grows state after) :
    search.Arrives after visit :=
  ⟨arrives.isPath.grows grows, arrives.ends⟩

/-- What has been found is what there is, and how it was found. -/
structure Sound (search : ImpactSearch) (state : SearchState) : Prop where
  target : state.foundEntities.get? search.target.id = some search.target
  entities : ∀ id entity, state.foundEntities.get? id = some entity →
    entity.id = id ∧ search.Reached entity
  relationships : ∀ id edge, state.foundRelationships.get? id = some edge →
    edge.id = id ∧ ∃ source, search.Leads edge source ∧
      state.foundEntities.get? source.id = some source ∧
      ∃ entity, state.foundEntities.get? edge.targetId = some entity
  sources : ∀ id entity, state.foundEntities.get? id = some entity →
    entity = search.target ∨ ∃ key edge,
      state.foundRelationships.get? key = some edge ∧
        search.Leads edge entity
  impact : state.hasRepositoryImpact = true ↔ ∃ id edge source,
    state.foundRelationships.get? id = some edge ∧
      search.Leads edge source ∧ source.kind.inRepository = true
  paths : ∀ path ∈ state.paths, search.IsPath state path
  queued : ∀ visit ∈ state.queue, search.Arrives state visit
  visited : ∀ id depth, state.visitedDepth.get? id = some depth →
    ∃ entity, state.foundEntities.get? id = some entity

theorem sound_start : search.Sound search.start where
  target := OrderedMap.get?_set_self _ _ _
  entities := by
    intro id entity found
    rw [start, OrderedMap.get?_set, OrderedMap.get?_empty] at found
    by_cases same : search.target.id = id
    · rw [if_pos same, Option.some_inj] at found
      exact ⟨found ▸ same, found ▸ .target⟩
    · rw [if_neg same] at found
      cases found
  relationships := by
    intro id edge found
    cases found
  sources := by
    intro id entity found
    rw [start, OrderedMap.get?_set, OrderedMap.get?_empty] at found
    by_cases same : search.target.id = id
    · rw [if_pos same, Option.some_inj] at found
      exact .inl found.symm
    · rw [if_neg same] at found
      cases found
  impact := by
    constructor
    · intro impossible
      cases impossible
    · rintro ⟨id, edge, source, found, _⟩
      cases found
  paths := List.forall_mem_nil _
  queued := by
    intro visit member
    rw [start, List.mem_singleton] at member
    subst member
    refine ⟨⟨rfl, List.isChain_singleton _, ?_⟩, rfl⟩
    intro id member
    rw [List.mem_singleton] at member
    subst member
    exact ⟨search.target, OrderedMap.get?_set_self _ _ _⟩
  visited := by
    intro id depth found
    rw [start, OrderedMap.get?_set, OrderedMap.get?_empty] at found
    by_cases same : search.target.id = id
    · exact ⟨search.target, same ▸ OrderedMap.get?_set_self _ _ _⟩
    · rw [if_neg same] at found
      cases found

/-! ## Following a relationship -/

section Found

variable {state : SearchState} {current : Visit} {edge : Relationship}
  {source : Entity}

theorem grows_found (current : Visit) (proper : search.Proper)
    (sound : search.Sound state) (leads : search.Leads edge source) :
    Grows state (search.found current edge source state) where
  entities := by
    intro id entity found
    rw [ImpactSearch.found, OrderedMap.get?_set]
    have known := sound.entities id entity found
    by_cases same : source.id = id
    · rw [if_pos same, proper.entity_eq (mem_of_byId leads.named).1
        (proper.reached_mem known.2) (same.trans known.1.symm)]
    · rw [if_neg same]
      exact found
  relationships := by
    intro id other found
    rw [ImpactSearch.found, OrderedMap.get?_set]
    obtain ⟨named, _, otherLeads, _⟩ := sound.relationships id other found
    by_cases same : edge.id = id
    · rw [if_pos same, proper.edge_eq leads.followed.1
        otherLeads.followed.1 (same.trans named.symm)]
    · rw [if_neg same]
      exact found
  truncated := id

theorem isPath_found (proper : search.Proper) (sound : search.Sound state)
    (arrives : search.Arrives state current)
    (leads : search.Leads edge source) (ends : edge.targetId = current.id) :
    search.IsPath (search.found current edge source state)
      (current.path ++ [source.id]) := by
  have old := arrives.isPath.grows
    (grows_found current proper sound leads)
  constructor
  case starts =>
    rw [List.head?_append, old.starts, Option.some_or]
  case joined =>
    rw [List.isChain_append]
    refine ⟨old.joined, List.isChain_singleton _, ?_⟩
    intro targetId last id first
    rw [arrives.ends, Option.mem_def, Option.some_inj] at last
    rw [List.head?_cons, Option.mem_def, Option.some_inj] at first
    refine ⟨edge.id, edge, OrderedMap.get?_set_self _ _ _,
      ends.trans last, ?_⟩
    rw [← first, (mem_of_byId leads.named).2]
  case known =>
    intro id member
    rcases List.mem_append.mp member with inside | new
    · exact old.known id inside
    · rw [List.mem_singleton] at new
      exact ⟨source, new ▸ OrderedMap.get?_set_self _ _ _⟩

theorem sound_found (proper : search.Proper) (sound : search.Sound state)
    (arrives : search.Arrives state current)
    (leads : search.Leads edge source) (ends : edge.targetId = current.id) :
    search.Sound (search.found current edge source state) := by
  have grows := grows_found current proper sound leads
  have isPath := isPath_found proper sound arrives leads ends
  have here : ∃ entity, state.foundEntities.get? current.id = some entity :=
    arrives.isPath.known _ (List.mem_of_getLast? arrives.ends)
  constructor
  case target => exact grows.entities _ _ sound.target
  case entities =>
    intro id entity found
    rw [ImpactSearch.found, OrderedMap.get?_set] at found
    by_cases same : source.id = id
    · rw [if_pos same, Option.some_inj] at found
      subst found
      obtain ⟨entity, known⟩ := here
      obtain ⟨named, reached⟩ := sound.entities _ _ known
      exact ⟨same, .source reached leads (ends.trans named.symm)⟩
    · rw [if_neg same] at found
      exact sound.entities id entity found
  case relationships =>
    intro id other found
    rw [ImpactSearch.found, OrderedMap.get?_set] at found
    by_cases same : edge.id = id
    · rw [if_pos same, Option.some_inj] at found
      subst found
      obtain ⟨entity, known⟩ := here
      exact ⟨same, source, leads, OrderedMap.get?_set_self _ _ _, entity,
        ends ▸ grows.entities _ _ known⟩
    · rw [if_neg same] at found
      obtain ⟨named, other, otherLeads, known, entity, target⟩ :=
        sound.relationships id _ found
      exact ⟨named, other, otherLeads, grows.entities _ _ known, entity,
        grows.entities _ _ target⟩
  case sources =>
    intro id entity found
    rw [ImpactSearch.found, OrderedMap.get?_set] at found
    by_cases same : source.id = id
    · rw [if_pos same, Option.some_inj] at found
      subst found
      exact .inr ⟨edge.id, edge, OrderedMap.get?_set_self _ _ _, leads⟩
    · rw [if_neg same] at found
      refine (sound.sources id entity found).imp_right ?_
      rintro ⟨key, other, kept, otherLeads⟩
      exact ⟨key, other, grows.relationships _ _ kept, otherLeads⟩
  case impact =>
    rw [ImpactSearch.found, Bool.or_eq_true, sound.impact]
    constructor
    · rintro (kind | ⟨id, other, otherSource, found, otherLeads, kind⟩)
      · exact ⟨edge.id, edge, source, OrderedMap.get?_set_self _ _ _, leads,
          kind⟩
      · exact ⟨id, other, otherSource, grows.relationships _ _ found,
          otherLeads, kind⟩
    · rintro ⟨id, other, otherSource, found, otherLeads, kind⟩
      rw [OrderedMap.get?_set] at found
      by_cases same : edge.id = id
      · rw [if_pos same, Option.some_inj] at found
        subst found
        have named := otherLeads.named
        rw [leads.named, Option.some_inj] at named
        exact .inl (named ▸ kind)
      · rw [if_neg same] at found
        exact .inr ⟨id, other, otherSource, found, otherLeads, kind⟩
  case paths =>
    have old : ∀ path ∈ state.paths,
        search.IsPath (search.found current edge source state) path :=
      fun path member => (sound.paths path member).grows grows
    intro path member
    rw [ImpactSearch.found] at member
    dsimp only at member
    split at member
    · rcases List.mem_append.mp member with inside | new
      · exact old path inside
      · rw [List.mem_singleton] at new
        exact new ▸ isPath
    · exact old path member
  case queued =>
    exact fun visit member => (sound.queued visit member).grows grows
  case visited =>
    intro id depth seen
    obtain ⟨entity, found⟩ := sound.visited id depth seen
    exact ⟨entity, grows.entities _ _ found⟩

theorem grows_enqueue (current : Visit) (source : Entity)
    (state : SearchState) :
    Grows state (enqueue current source state) := by
  rw [enqueue]
  split
  · exact ⟨fun _ _ => id, fun _ _ => id, id⟩
  · exact Grows.refl state

theorem sound_enqueue (sound : search.Sound state)
    (isPath : search.IsPath state (current.path ++ [source.id]))
    (found : state.foundEntities.get? source.id = some source) :
    search.Sound (enqueue current source state) := by
  have grows := grows_enqueue current source state
  rw [enqueue] at grows ⊢
  split
  · rename_i nearer
    rw [if_pos nearer] at grows
    constructor
    case target => exact sound.target
    case entities => exact sound.entities
    case relationships => exact sound.relationships
    case sources => exact sound.sources
    case impact => exact sound.impact
    case paths =>
      exact fun path member => (sound.paths path member).grows grows
    case queued =>
      intro visit member
      rcases List.mem_append.mp member with inside | new
      · exact (sound.queued visit inside).grows grows
      · rw [List.mem_singleton] at new
        subst new
        exact ⟨isPath.grows grows, List.getLast?_concat⟩
    case visited =>
      intro id depth seen
      rw [OrderedMap.get?_set] at seen
      by_cases same : source.id = id
      · exact ⟨source, same ▸ found⟩
      · rw [if_neg same] at seen
        exact sound.visited id depth seen
  · exact sound

end Found

/-! ## Following every relationship -/

theorem follow_cases (search : ImpactSearch) (current : Visit)
    (edge : Relationship) (state : SearchState)
    (followed : search.Followed edge) :
    ((∀ source, ¬ search.Leads edge source) ∧
        search.follow current edge state = state) ∨
      ∃ source, search.Leads edge source ∧
        (search.follow current edge state = { state with truncated := true } ∨
          search.follow current edge state =
            enqueue current source
              (search.found current edge source state)) := by
  rw [follow]
  cases named : search.byId edge.sourceId with
  | none =>
    refine .inl ⟨fun source leads => ?_, rfl⟩
    rw [leads.named] at named
    cases named
  | some source =>
    dsimp only
    by_cases active : source.status = .active
    · refine .inr ⟨source, ⟨followed, named, active⟩, ?_⟩
      rw [if_neg (not_not_intro active)]
      split
      · exact .inl rfl
      · exact .inr rfl
    · rw [if_pos active]
      refine .inl ⟨fun other leads => ?_, rfl⟩
      have same := leads.named
      rw [named, Option.some_inj] at same
      exact active (same ▸ leads.active)

theorem Sound.cut {state : SearchState} (sound : search.Sound state) :
    search.Sound { state with truncated := true } where
  target := sound.target
  entities := sound.entities
  relationships := sound.relationships
  sources := sound.sources
  impact := sound.impact
  paths path member :=
    (sound.paths path member).grows
      ⟨fun _ _ => id, fun _ _ => id, fun impossible => by cases impossible⟩
  queued visit member :=
    (sound.queued visit member).grows
      ⟨fun _ _ => id, fun _ _ => id, fun impossible => by cases impossible⟩
  visited := sound.visited

theorem grows_cut (state : SearchState) :
    Grows state { state with truncated := true } where
  entities _ _ := id
  relationships _ _ := id
  truncated impossible := by cases impossible

/-- Every relationship which leads to an entity has been found. -/
def Expanded (search : ImpactSearch) (state : SearchState) (id : String) :
    Prop :=
  ∀ edge source, search.Leads edge source → edge.targetId = id →
    state.foundRelationships.get? edge.id = some edge

/-- Every entity is expanded or queued, apart from an exception. -/
def Covered (search : ImpactSearch) (state : SearchState)
    (exception : String → Prop) : Prop :=
  ∀ id entity, state.foundEntities.get? id = some entity →
    search.Expanded state id ∨ (∃ visit ∈ state.queue, visit.id = id) ∨
      exception id

theorem Expanded.grows {state after : SearchState} {id : String}
    (expanded : search.Expanded state id) (grows : Grows state after) :
    search.Expanded after id :=
  fun edge source leads ends =>
    grows.relationships _ _ (expanded edge source leads ends)

section Follow

variable {state : SearchState} {current : Visit} {edge : Relationship}

theorem queue_enqueue {visit : Visit} {source : Entity}
    (member : visit ∈ state.queue) :
    visit ∈ (enqueue current source state).queue := by
  rw [enqueue]
  split
  · exact List.mem_append_left _ member
  · exact member

theorem enqueue_cases (current : Visit) (source : Entity)
    (state : SearchState) :
    (∃ visit ∈ (enqueue current source state).queue,
        visit.id = source.id) ∨
      ∃ depth, state.visitedDepth.get? source.id = some depth := by
  rw [enqueue]
  cases seen : state.visitedDepth.get? source.id with
  | none =>
    rw [isNearer, if_pos rfl]
    exact .inl ⟨_, List.mem_concat_self, rfl⟩
  | some depth => exact .inr ⟨depth, rfl⟩

theorem foundEntities_enqueue (source : Entity) :
    (enqueue current source state).foundEntities = state.foundEntities := by
  rw [enqueue]
  split
  · rfl
  · rfl

theorem covered_found (proper : search.Proper) (sound : search.Sound state)
    {source : Entity} (leads : search.Leads edge source)
    {exception : String → Prop} (covered : search.Covered state exception) :
    search.Covered
      (enqueue current source (search.found current edge source state))
      exception := by
  have grows : Grows state
      (enqueue current source (search.found current edge source state)) :=
    (grows_found current proper sound leads).trans
      (grows_enqueue current source _)
  have old : ∀ id entity, state.foundEntities.get? id = some entity →
      search.Expanded (enqueue current source
          (search.found current edge source state)) id ∨
        (∃ visit ∈ (enqueue current source
          (search.found current edge source state)).queue, visit.id = id) ∨
        exception id := by
    intro id entity known
    rcases covered id entity known with expanded | ⟨visit, waits, named⟩ |
      excepted
    · exact .inl (expanded.grows grows)
    · exact .inr (.inl ⟨visit, queue_enqueue waits, named⟩)
    · exact .inr (.inr excepted)
  intro id entity known
  rw [foundEntities_enqueue, ImpactSearch.found, OrderedMap.get?_set] at known
  by_cases same : source.id = id
  · subst same
    rcases enqueue_cases current source
      (search.found current edge source state) with queued | ⟨depth, seen⟩
    · exact .inr (.inl queued)
    · obtain ⟨other, before⟩ := sound.visited _ depth seen
      exact old _ other before
  · rw [if_neg same] at known
    exact old id entity known

/-- What following relationships to one entity keeps, and what it finds. -/
structure FollowedAll (search : ImpactSearch) (current : Visit)
    (edges : List Relationship) (state after : SearchState) : Prop where
  sound : search.Sound after
  grows : Grows state after
  covered : after.truncated = false →
    search.Covered state (fun id => id = current.id) →
    search.Covered after (fun id => id = current.id)
  found : after.truncated = false → ∀ edge ∈ edges, ∀ source,
    search.Leads edge source →
    after.foundRelationships.get? edge.id = some edge

theorem followedAll_cut (sound : search.Sound state)
    (edges : List Relationship) :
    search.FollowedAll current edges state
      { state with truncated := true } where
  sound := sound.cut
  grows := grows_cut state
  covered impossible := by cases impossible
  found impossible := by cases impossible

theorem followedAll_follow (proper : search.Proper)
    (sound : search.Sound state) (arrives : search.Arrives state current)
    (followed : search.Followed edge) (ends : edge.targetId = current.id) :
    search.FollowedAll current [edge] state
      (search.follow current edge state) := by
  rcases follow_cases search current edge state followed with
    ⟨none, same⟩ | ⟨source, leads, same | same⟩
  · rw [same]
    refine ⟨sound, Grows.refl state, fun _ => id, ?_⟩
    intro _ other member source leads
    rw [List.mem_singleton] at member
    exact absurd (member ▸ leads) (none source)
  · rw [same]
    exact followedAll_cut sound [edge]
  · rw [same]
    have foundSound := sound_found proper sound arrives leads ends
    have foundGrows := grows_found current proper sound leads
    have isPath := isPath_found proper sound arrives leads ends
    refine ⟨sound_enqueue foundSound isPath (OrderedMap.get?_set_self _ _ _),
      foundGrows.trans (grows_enqueue current source _),
      fun _ => covered_found proper sound leads, ?_⟩
    intro _ other member _ _
    rw [List.mem_singleton] at member
    subst member
    exact (grows_enqueue current source _).relationships _ _
      (OrderedMap.get?_set_self _ _ _)

theorem followedAll (proper : search.Proper) (sound : search.Sound state)
    (arrives : search.Arrives state current) {edges : List Relationship}
    (followed : ∀ edge ∈ edges,
      search.Followed edge ∧ edge.targetId = current.id) :
    search.FollowedAll current edges state
      (search.followAll current edges state) := by
  induction edges generalizing state with
  | nil =>
    exact ⟨sound, Grows.refl state, fun _ => id,
      fun _ => List.forall_mem_nil _⟩
  | cons edge rest inductionHypothesis =>
    rw [followAll]
    split
    · exact followedAll_cut sound (edge :: rest)
    · rw [List.forall_mem_cons] at followed
      have first := followedAll_follow proper sound arrives followed.1.1
        followed.1.2
      have others := inductionHypothesis first.sound
        (arrives.grows first.grows) followed.2
      refine ⟨others.sound, first.grows.trans others.grows, ?_, ?_⟩
      · intro complete covered
        exact others.covered complete
          (first.covered (others.grows.truncated complete) covered)
      · intro complete
        rw [List.forall_mem_cons]
        refine ⟨fun source leads => ?_, others.found complete⟩
        exact others.grows.relationships _ _ (first.found
          (others.grows.truncated complete) edge List.mem_cons_self
          source leads)

end Follow

/-! ## Rounds -/

/-- What an expansion keeps, and that it leaves no exception. -/
structure ExpandedBy (search : ImpactSearch) (current : Visit)
    (state after : SearchState) : Prop where
  sound : search.Sound after
  grows : Grows state after
  covered : after.truncated = false →
    search.Covered state (fun id => id = current.id) →
    search.Covered after (fun _ => False)

variable {state : SearchState} {current : Visit}

theorem Covered.close
    (covered : search.Covered state (fun id => id = current.id))
    (expanded : search.Expanded state current.id) :
    search.Covered state (fun _ => False) := by
  intro id entity known
  rcases covered id entity known with done | waits | rfl
  · exact .inl done
  · exact .inr (.inl waits)
  · exact .inl expanded

theorem expandedBy (proper : search.Proper) (sound : search.Sound state)
    (arrives : search.Arrives state current) :
    search.ExpandedBy current state (search.expand current state) := by
  have inside : ∀ edge source, search.Leads edge source →
      edge.targetId = current.id → edge ∈ search.incoming current.id :=
    fun edge source leads ends => mem_incoming.mpr ⟨leads.followed, ends⟩
  rw [expand]
  split
  · split
    · refine ⟨sound.cut, grows_cut state, ?_⟩
      intro impossible
      cases impossible
    · rename_i none
      refine ⟨sound, Grows.refl state, fun _ covered => covered.close ?_⟩
      intro edge source leads ends
      exact absurd (List.length_pos_of_mem (inside edge source leads ends))
        none
  · have all := followedAll proper sound arrives
      fun edge member => mem_incoming.mp member
    refine ⟨all.sound, all.grows, fun complete covered => ?_⟩
    refine (all.covered complete covered).close ?_
    intro edge source leads ends
    exact all.found complete edge (inside edge source leads ends) source leads

theorem grows_pop (state : SearchState) (rest : List Visit) :
    Grows state { state with queue := rest } where
  entities _ _ := id
  relationships _ _ := id
  truncated := id

theorem Sound.pop {rest : List Visit} (sound : search.Sound state)
    (fewer : ∀ visit ∈ rest, visit ∈ state.queue) :
    search.Sound { state with queue := rest } where
  target := sound.target
  entities := sound.entities
  relationships := sound.relationships
  sources := sound.sources
  impact := sound.impact
  paths path member :=
    (sound.paths path member).grows (grows_pop state rest)
  queued visit member :=
    (sound.queued visit (fewer visit member)).grows (grows_pop state rest)
  visited := sound.visited

/-- What holds of every state of the loop. -/
structure Kept (search : ImpactSearch) (state : SearchState) : Prop where
  sound : search.Sound state
  covered : state.truncated = false → search.Covered state (fun _ => False)

theorem kept_start : search.Kept search.start where
  sound := sound_start
  covered := by
    intro _ id entity known
    refine .inr (.inl ⟨_, List.mem_singleton.mpr rfl, ?_⟩)
    rw [start, OrderedMap.get?_set, OrderedMap.get?_empty] at known
    by_contra other
    rw [if_neg other] at known
    cases known

theorem Kept.expand (proper : search.Proper) {state : SearchState}
    (kept : search.Kept state) {current : Visit} {rest : List Visit}
    (queue : state.queue = current :: rest) :
    search.Kept (search.expand current { state with queue := rest }) := by
  have sound : search.Sound { state with queue := rest } := by
    refine kept.sound.pop fun visit member => ?_
    rw [queue]
    exact List.mem_cons_of_mem _ member
  have arrives := kept.sound.queued current (queue ▸ List.mem_cons_self)
  have expanded := expandedBy proper sound
    (arrives.grows (grows_pop state rest))
  refine ⟨expanded.sound, fun complete => expanded.covered complete ?_⟩
  intro id entity known
  rcases kept.covered (expanded.grows.truncated complete) id entity known with
    done | ⟨visit, waits, named⟩ | impossible
  · exact .inl (done.grows (grows_pop state rest))
  · rw [queue, List.mem_cons] at waits
    rcases waits with rfl | later
    · exact .inr (.inr named.symm)
    · exact .inr (.inl ⟨visit, later, named⟩)
  · exact impossible.elim

theorem Kept.rounds (proper : search.Proper) (fuel : Nat)
    (kept : search.Kept state) : search.Kept (search.rounds fuel state) := by
  induction fuel generalizing state with
  | zero => exact kept
  | succ fuel inductionHypothesis =>
    rw [ImpactSearch.rounds]
    cases queue : state.queue with
    | nil => exact kept
    | cons current rest =>
      exact inductionHypothesis (kept.expand proper queue)

/-! ## The end of the loop -/

/-- The depth of an entity, which is more than any where it is not visited. -/
def depthOf (search : ImpactSearch) (state : SearchState) (entity : Entity) :
    Nat :=
  (state.visitedDepth.get? entity.id).getD (search.maxHops + 1)

/-- A bound on the rounds which are still to come. -/
def work (search : ImpactSearch) (state : SearchState) : Nat :=
  2 * (search.graph.entities.map (search.depthOf state)).sum +
    state.queue.length

theorem isNearer_iff {prior : Option Nat} {depth bound : Nat}
    (within : depth < bound) :
    isNearer prior depth = true ↔ depth < prior.getD bound := by
  cases prior with
  | none => exact ⟨fun _ => within, fun _ => rfl⟩
  | some prior => rw [isNearer, decide_eq_true_eq, Option.getD_some]

theorem work_enqueue {source : Entity} (state : SearchState)
    (shallow : current.depth < search.maxHops)
    (member : source ∈ search.graph.entities) :
    search.work (enqueue current source state) ≤ search.work state := by
  rw [enqueue]
  split
  · rename_i nearer
    rw [isNearer_iff (Nat.succ_lt_succ shallow)] at nearer
    have fewer := List.sum_lt_sum (l := search.graph.entities)
      (search.depthOf { state with
        visitedDepth :=
          state.visitedDepth.set source.id (current.depth + 1) })
      (search.depthOf state) ?_ ⟨source, member, ?_⟩
    · rw [work, work, List.length_append, List.length_singleton]
      exact (by omega : ∀ less more length : Nat, less < more →
        2 * less + (length + 1) ≤ 2 * more + length) _ _ _ fewer
    · intro entity _
      rw [depthOf, depthOf, OrderedMap.get?_set]
      by_cases same : source.id = entity.id
      · rw [if_pos same, Option.getD_some, ← same]
        exact Nat.le_of_lt nearer
      · rw [if_neg same]
    · rw [depthOf, OrderedMap.get?_set_self, Option.getD_some]
      exact nearer
  · exact Nat.le_refl _

theorem work_follow (edge : Relationship) (state : SearchState)
    (shallow : current.depth < search.maxHops) :
    search.work (search.follow current edge state) ≤ search.work state := by
  rw [follow]
  cases named : search.byId edge.sourceId with
  | none => exact Nat.le_refl _
  | some source =>
    dsimp only
    split
    · exact Nat.le_refl _
    · split
      · exact Nat.le_refl _
      · exact work_enqueue (search.found current edge source state) shallow
          (mem_of_byId named).1

theorem work_followAll (edges : List Relationship) (state : SearchState)
    (shallow : current.depth < search.maxHops) :
    search.work (search.followAll current edges state) ≤
      search.work state := by
  induction edges generalizing state with
  | nil => exact Nat.le_refl _
  | cons edge rest inductionHypothesis =>
    rw [followAll]
    split
    · exact Nat.le_refl _
    · exact (inductionHypothesis _).trans (work_follow edge state shallow)

theorem work_expand (current : Visit) (state : SearchState) :
    search.work (search.expand current state) ≤ search.work state := by
  rw [expand]
  split
  · split
    · exact Nat.le_refl _
    · exact Nat.le_refl _
  · rename_i shallow
    exact work_followAll _ state (Nat.lt_of_not_le shallow)

theorem queue_rounds {fuel : Nat} (enough : search.work state ≤ fuel) :
    (search.rounds fuel state).queue = [] := by
  induction fuel generalizing state with
  | zero =>
    rw [work] at enough
    have none : state.queue.length = 0 := by
      omega
    exact List.eq_nil_of_length_eq_zero none
  | succ fuel inductionHypothesis =>
    rw [rounds]
    cases queue : state.queue with
    | nil => exact queue
    | cons current rest =>
      refine inductionHypothesis ?_
      refine (work_expand current _).trans ?_
      have popped : search.work state =
          search.work { state with queue := rest } + 1 := by
        rw [work, work, queue, List.length_cons]
        rfl
      omega

theorem work_start (search : ImpactSearch) :
    search.work search.start ≤ search.fuel := by
  have bounded : (search.graph.entities.map
      (search.depthOf search.start)).sum ≤
        (search.graph.entities.map
          (search.depthOf search.start)).length • (search.maxHops + 1) := by
    refine List.sum_le_card_nsmul _ _ ?_
    intro depth member
    obtain ⟨entity, _, rfl⟩ := List.mem_map.mp member
    rw [depthOf, start, OrderedMap.get?_set, OrderedMap.get?_empty]
    split
    · exact Nat.zero_le _
    · exact Nat.le_refl _
  rw [List.length_map, Nat.nsmul_eq_mul, Nat.mul_comm] at bounded
  rw [work, fuel]
  have one : search.start.queue.length = 1 := rfl
  omega

theorem queue_run (search : ImpactSearch) : search.run.queue = [] :=
  queue_rounds search.work_start

theorem kept_run (proper : search.Proper) : search.Kept search.run :=
  kept_start.rounds proper search.fuel

/-! ## What is found -/

theorem expanded_run (proper : search.Proper)
    (complete : search.run.truncated = false) {id : String} {entity : Entity}
    (known : search.run.foundEntities.get? id = some entity) :
    search.Expanded search.run id := by
  rcases (kept_run proper).covered complete id entity known with done |
    ⟨visit, waits, _⟩ | impossible
  · exact done
  · rw [queue_run] at waits
    cases waits
  · exact impossible.elim

theorem foundEntities_run (proper : search.Proper)
    (complete : search.run.truncated = false) (entity : Entity) :
    entity ∈ search.run.foundEntities.values ↔ search.Reached entity := by
  have sound := (kept_run proper).sound
  rw [OrderedMap.mem_values_iff]
  constructor
  · rintro ⟨id, known⟩
    exact (sound.entities id entity known).2
  · intro reached
    refine ⟨entity.id, ?_⟩
    induction reached with
    | target => exact sound.target
    | source reached leads ends inductionHypothesis =>
      have edge := expanded_run proper complete inductionHypothesis _ _
        leads ends
      obtain ⟨_, source, otherLeads, known, _⟩ :=
        sound.relationships _ _ edge
      have same := leads.named
      rw [otherLeads.named, Option.some_inj] at same
      exact same ▸ known

theorem foundRelationships_run (proper : search.Proper)
    (complete : search.run.truncated = false) (edge : Relationship) :
    edge ∈ search.run.foundRelationships.values ↔
      ∃ source, search.Leads edge source ∧
        ∃ entity, search.Reached entity ∧ edge.targetId = entity.id := by
  have sound := (kept_run proper).sound
  rw [OrderedMap.mem_values_iff]
  constructor
  · rintro ⟨id, known⟩
    obtain ⟨_, source, leads, _, entity, target⟩ :=
      sound.relationships id edge known
    obtain ⟨named, reached⟩ := sound.entities _ _ target
    exact ⟨source, leads, entity, reached, named.symm⟩
  · rintro ⟨source, leads, entity, reached, ends⟩
    rw [← foundEntities_run proper complete, OrderedMap.mem_values_iff]
      at reached
    obtain ⟨id, known⟩ := reached
    have named := (sound.entities id entity known).1
    exact ⟨edge.id, expanded_run proper complete known edge source leads
      (ends.trans named)⟩

end Mendpoint.SoftwareGraph.ImpactSearch
