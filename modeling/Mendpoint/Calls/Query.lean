import Mendpoint.Calls.Build
import Mendpoint.Library.BreadthFirst

/-!
# Reverse reachability

The query walks call edges backwards from a seed, breadth first, and reports
every caller once, with the path on which it was discovered.  It is an
instance of the library's search: an item is a queued caller, and expanding it
yields the callers admitted by the depth bound, the confidence bound and the
test filter.

A depth bound is an integer; an absent one is three.  The memo which keeps the
edge index between queries of an unchanged graph is not modelled.
-/

namespace Mendpoint.Calls

open Mendpoint.Library

/-! ## The query -/

/-- Edges under their identifiers; the last edge of an identifier wins. -/
def edgeIndexOf (graph : CallGraph) : OrderedMap String CallEdge :=
  OrderedMap.ofList (graph.edges.map fun edge => (edge.id, edge))

/-- The edge found under an identifier. -/
def edgeById (graph : CallGraph) (id : String) : Option CallEdge :=
  (edgeIndexOf graph).get? id

/-- Options of a reverse reachability query. -/
structure ReachabilityOptions where
  maxDepth : Option Int := none
  minConfidence : Option CallEdgeConfidence := none
  excludeTests : Bool := false

/-- The bound on the number of edges of a chain. -/
def ReachabilityOptions.depthBound (opts : ReachabilityOptions) : Int :=
  opts.maxDepth.getD 3

/-- The least admitted confidence rank. -/
def ReachabilityOptions.minRank (opts : ReachabilityOptions) : Nat :=
  confRank (opts.minConfidence.getD .low)

/-- A queued node with the path on which it was discovered. -/
structure QueueItem where
  id : String
  depth : Nat
  path : List String
  conf : CallEdgeConfidence

/-- A reported caller. -/
structure ReachabilityHit where
  node : FunctionNode
  depth : Nat
  path : List String
  minEdgeConfidence : CallEdgeConfidence

/-- Whether an edge and its caller pass the filters of a query. -/
def admits (opts : ReachabilityOptions) (edge : CallEdge)
    (caller : FunctionNode) : Bool :=
  decide (opts.minRank ≤ confRank edge.confidence) &&
    !(opts.excludeTests && caller.isTest)

/-- The caller reached through one incoming edge of a queued node. -/
def callerThrough (graph : CallGraph) (opts : ReachabilityOptions)
    (cur : QueueItem) (eid : String) : Option QueueItem :=
  match edgeById graph eid with
  | none => none
  | some edge =>
    match graph.nodes.get? edge.callerId with
    | none => none
    | some caller =>
      if admits opts edge caller then
        some
          { id := caller.id
            depth := cur.depth + 1
            path := cur.path ++ [caller.id]
            conf := minConf cur.conf edge.confidence }
      else none

/-- The callers considered when a queued node is expanded. -/
def admittedCallers (graph : CallGraph) (opts : ReachabilityOptions)
    (cur : QueueItem) : List QueueItem :=
  if opts.depthBound ≤ cur.depth then []
  else
    (graph.inEdges.getD cur.id []).filterMap
      (callerThrough graph opts cur)

theorem callerThrough_eq_some_iff
    (graph : CallGraph) (opts : ReachabilityOptions)
    (cur found : QueueItem) (eid : String) :
    callerThrough graph opts cur eid = some found ↔
      ∃ edge caller,
        edgeById graph eid = some edge ∧
          graph.nodes.get? edge.callerId = some caller ∧
          admits opts edge caller = true ∧
          found =
            { id := edge.callerId
              depth := cur.depth + 1
              path := cur.path ++ [edge.callerId]
              conf := minConf cur.conf edge.confidence } := by
  unfold callerThrough
  constructor
  · intro result
    split at result
    · cases result
    · rename_i edge located
      split at result
      · cases result
      · rename_i caller present
        split at result
        · rename_i admitted
          have keyed := NodeTable.id_of_get? present
          refine ⟨edge, caller, located, present, admitted, ?_⟩
          rw [← keyed]
          exact (Option.some.inj result).symm
        · cases result
  · rintro ⟨edge, caller, located, present, admitted, rfl⟩
    simp [located, present, admitted, NodeTable.id_of_get? present]

theorem mem_admittedCallers_iff
    (graph : CallGraph) (opts : ReachabilityOptions)
    (cur found : QueueItem) :
    found ∈ admittedCallers graph opts cur ↔
      (cur.depth : Int) < opts.depthBound ∧
        ∃ eid ∈ graph.inEdges.getD cur.id [],
          callerThrough graph opts cur eid = some found := by
  unfold admittedCallers
  split
  · rename_i deep
    simp [Int.not_lt.mpr deep]
  · rename_i shallow
    simp [Int.not_le.mp shallow, List.mem_filterMap]

/-- The search behind a reverse reachability query. -/
def reverseSearch (graph : CallGraph) (opts : ReachabilityOptions) :
    Search QueueItem String where
  key := QueueItem.id
  depth := QueueItem.depth
  expand := admittedCallers graph opts
  depth_expand := by
    intro parent child member
    obtain ⟨_, eid, _, through⟩ :=
      (mem_admittedCallers_iff graph opts parent child).mp member
    obtain ⟨edge, caller, _, _, _, rfl⟩ :=
      (callerThrough_eq_some_iff graph opts parent child eid).mp through
    rfl

/-- The queue item of the seed. -/
def seedItem (seedId : String) : QueueItem where
  id := seedId
  depth := 0
  path := [seedId]
  conf := .high

/-- The state in which the search of a query ends. -/
def reverseFrontier (graph : CallGraph) (seedId : String)
    (opts : ReachabilityOptions) : Search.Frontier QueueItem String :=
  (reverseSearch graph opts).loop (graph.nodes.ids.length + 2)
    ((reverseSearch graph opts).start (seedItem seedId))

/-- The report of a discovered item. -/
def reportHit (graph : CallGraph) (item : QueueItem) :
    Option ReachabilityHit :=
  (graph.nodes.get? item.id).map fun node =>
    { node := node
      depth := item.depth
      path := item.path
      minEdgeConfidence := item.conf }

/-- All functions which call the seed within the depth bound. -/
def reverseReachability (graph : CallGraph) (seedId : String)
    (opts : ReachabilityOptions) : List ReachabilityHit :=
  (reverseFrontier graph seedId opts).hits.filterMap (reportHit graph)

/-! ## Chains of calls -/

/--
A chain of admitted call edges which leads from a node to the seed, listed
from the seed outwards.
-/
inductive CallChain (graph : CallGraph) (opts : ReachabilityOptions)
    (seedId : String) : String → List CallEdge → Prop where
  | seed : CallChain graph opts seedId seedId []
  | call {callee : String} {edges : List CallEdge} {edge : CallEdge}
      {caller : FunctionNode}
      (chain : CallChain graph opts seedId callee edges)
      (member : edge ∈ graph.edges)
      (target : edge.calleeId = callee)
      (present : graph.nodes.get? edge.callerId = some caller)
      (admitted : admits opts edge caller = true) :
      CallChain graph opts seedId edge.callerId (edges ++ [edge])

/-- The node identifiers along a chain, the seed first. -/
def chainPath (seedId : String) (edges : List CallEdge) : List String :=
  seedId :: edges.map (·.callerId)

/-- The least confidence of the edges of a chain. -/
def chainConfidence (edges : List CallEdge) : CallEdgeConfidence :=
  (edges.map (·.confidence)).foldl minConf .high

/-- The queue item which a chain produces. -/
def chainItem (seedId id : String) (edges : List CallEdge) : QueueItem where
  id := id
  depth := edges.length
  path := chainPath seedId edges
  conf := chainConfidence edges

/-- Edges which share an identifier are the same call to the query. -/
def EdgesAgree (graph : CallGraph) : Prop :=
  ∀ left ∈ graph.edges, ∀ right ∈ graph.edges, left.id = right.id →
    left.callerId = right.callerId ∧ left.calleeId = right.calleeId ∧
      left.confidence = right.confidence

/-- The incoming index of a graph is the one `rebuildAdjacency` computes. -/
def Adjacent (graph : CallGraph) : Prop :=
  graph.inEdges = (rebuildAdjacency graph).inEdges

theorem chainItem_call (seedId : String) (edges : List CallEdge)
    (edge : CallEdge) :
    chainItem seedId edge.callerId (edges ++ [edge]) =
      { id := edge.callerId
        depth := edges.length + 1
        path := chainPath seedId edges ++ [edge.callerId]
        conf := minConf (chainConfidence edges) edge.confidence } := by
  simp [chainItem, chainPath, chainConfidence]

theorem CallChain.present
    {graph : CallGraph} {opts : ReachabilityOptions}
    {seedId id : String} {edges : List CallEdge}
    (seedPresent : seedId ∈ graph.nodes.ids)
    (chain : CallChain graph opts seedId id edges) :
    id ∈ graph.nodes.ids := by
  cases chain with
  | seed => exact seedPresent
  | call _ _ _ present _ =>
    exact (NodeTable.mem_ids_iff _ _).mpr ⟨_, present⟩

variable {graph : CallGraph} {opts : ReachabilityOptions} {seedId : String}
  {item : QueueItem}

theorem CallChain.eq_seed_of_nil {id : String} {edges : List CallEdge}
    (chain : CallChain graph opts seedId id edges) (empty : edges = []) :
    id = seedId := by
  cases chain with
  | seed => rfl
  | call => simp at empty

theorem mem_liveEdges_iff (nodes : NodeTable) (edges : List CallEdge)
    (edge : CallEdge) :
    edge ∈ liveEdges nodes edges ↔
      edge ∈ edges ∧ edge.callerId ∈ nodes.ids ∧
        edge.calleeId ∈ nodes.ids := by
  simp only [liveEdges, List.mem_filter, Bool.and_eq_true,
    Option.isSome_iff_exists, NodeTable.mem_ids_iff]

theorem mem_indexEdges_iff (endpoint : CallEdge → String)
    (edges : List CallEdge) (key eid : String) :
    eid ∈ (indexEdges endpoint edges).getD key [] ↔
      ∃ edge ∈ edges, endpoint edge = key ∧ edge.id = eid := by
  rw [indexEdges, OrderedMap.getD_collect]
  simp only [List.mem_map, List.mem_filter, decide_eq_true_eq,
    Prod.exists]
  constructor
  · rintro ⟨other, id, ⟨⟨edge, member, pair⟩, same⟩, rfl⟩
    cases pair
    exact ⟨edge, member, same, rfl⟩
  · rintro ⟨edge, member, rfl, rfl⟩
    exact ⟨_, _, ⟨⟨edge, member, rfl⟩, rfl⟩, rfl⟩

theorem mem_inEdges_iff (adjacent : Adjacent graph) (id eid : String) :
    eid ∈ graph.inEdges.getD id [] ↔
      ∃ edge ∈ liveEdges graph.nodes graph.edges,
        edge.calleeId = id ∧ edge.id = eid := by
  rw [adjacent]
  exact mem_indexEdges_iff _ _ _ _

theorem edgeById_sound {eid : String} {edge : CallEdge}
    (found : edgeById graph eid = some edge) :
    edge ∈ graph.edges ∧ edge.id = eid := by
  have member := OrderedMap.mem_of_get?_ofList found
  obtain ⟨stored, storedMember, pair⟩ := List.mem_map.mp member
  cases pair
  exact ⟨storedMember, rfl⟩

theorem edgeById_complete {edge : CallEdge} (member : edge ∈ graph.edges) :
    ∃ found, edgeById graph edge.id = some found := by
  refine (OrderedMap.mem_keys_iff _ _).mp ?_
  rw [edgeIndexOf, OrderedMap.mem_keys_ofList, List.map_map]
  exact List.mem_map.mpr ⟨edge, member, rfl⟩

/-! ## Exactness -/

theorem chain_of_derived (adjacent : Adjacent graph)
    (agree : EdgesAgree graph)
    (derived : (reverseSearch graph opts).Derived (seedItem seedId) item) :
    ∃ edges, CallChain graph opts seedId item.id edges ∧
      item = chainItem seedId item.id edges ∧
      (edges = [] ∨ (edges.length : Int) ≤ opts.depthBound) := by
  induction derived with
  | seed => exact ⟨[], .seed, rfl, Or.inl rfl⟩
  | @expand parent child _ member inductionHypothesis =>
    obtain ⟨edges, chain, shape, _⟩ := inductionHypothesis
    obtain ⟨shallow, eid, indexed, through⟩ :=
      (mem_admittedCallers_iff graph opts parent child).mp member
    obtain ⟨edge, caller, located, present, admitted, rfl⟩ :=
      (callerThrough_eq_some_iff graph opts parent child eid).mp through
    obtain ⟨stored, live, target, sameId⟩ :=
      (mem_inEdges_iff adjacent parent.id eid).mp indexed
    obtain ⟨edgeMember, edgeId⟩ := edgeById_sound located
    have storedMember := ((mem_liveEdges_iff _ _ _).mp live).1
    have agreed :=
      agree edge edgeMember stored storedMember
        (edgeId.trans sameId.symm)
    refine ⟨edges ++ [edge],
      .call chain edgeMember (agreed.2.1.trans target) present admitted,
      ?_, ?_⟩
    · rw [chainItem_call, shape]
      rfl
    · right
      have depth : parent.depth = edges.length := by
        rw [shape]
        rfl
      rw [List.length_append, List.length_singleton]
      omega

theorem derived_of_chain {id : String} (adjacent : Adjacent graph)
    (agree : EdgesAgree graph) (seedPresent : seedId ∈ graph.nodes.ids)
    {edges : List CallEdge} (chain : CallChain graph opts seedId id edges)
    (bounded : (edges.length : Int) ≤ opts.depthBound) :
    (reverseSearch graph opts).Derived (seedItem seedId)
      (chainItem seedId id edges) := by
  induction chain with
  | seed => exact .seed
  | @call callee edges edge caller chain member target present admitted
      inductionHypothesis =>
      rw [List.length_append, List.length_singleton] at bounded
      have calleePresent := chain.present seedPresent
      have live : edge ∈ liveEdges graph.nodes graph.edges := by
        rw [mem_liveEdges_iff, target]
        exact ⟨member,
          (NodeTable.mem_ids_iff _ _).mpr ⟨_, present⟩, calleePresent⟩
      obtain ⟨found, located⟩ := edgeById_complete member
      obtain ⟨foundMember, foundId⟩ := edgeById_sound located
      obtain ⟨sameCaller, _, sameConfidence⟩ :=
        agree found foundMember edge member foundId
      refine .expand (inductionHypothesis (by omega)) ?_
      refine (mem_admittedCallers_iff graph opts _ _).mpr ⟨?_, edge.id, ?_, ?_⟩
      · change (edges.length : Int) < opts.depthBound
        omega
      · exact (mem_inEdges_iff adjacent _ _).mpr ⟨edge, live, target, rfl⟩
      · refine (callerThrough_eq_some_iff graph opts _ _ _).mpr
          ⟨found, caller, located, ?_, ?_, ?_⟩
        · rw [sameCaller]
          exact present
        · rw [admits, sameConfidence]
          exact admitted
        · rw [chainItem_call, sameCaller, sameConfidence]
          rfl

theorem derived_key_mem
    (derived : (reverseSearch graph opts).Derived (seedItem seedId) item) :
    item = seedItem seedId ∨ item.id ∈ graph.nodes.ids := by
  cases derived with
  | seed => exact Or.inl rfl
  | @expand parent _ _ member =>
    obtain ⟨_, eid, _, through⟩ :=
      (mem_admittedCallers_iff graph opts parent item).mp member
    obtain ⟨edge, caller, _, present, _, rfl⟩ :=
      (callerThrough_eq_some_iff graph opts parent item eid).mp through
    exact Or.inr ((NodeTable.mem_ids_iff _ _).mpr ⟨caller, present⟩)

theorem admittedCallers_monotone {shallow deep child : QueueItem}
    (same : shallow.id = deep.id) (shallower : shallow.depth ≤ deep.depth)
    (member : child ∈ admittedCallers graph opts deep) :
    ∃ other ∈ admittedCallers graph opts shallow, other.id = child.id := by
  obtain ⟨bounded, eid, indexed, through⟩ :=
    (mem_admittedCallers_iff graph opts deep child).mp member
  obtain ⟨edge, caller, located, present, admitted, rfl⟩ :=
    (callerThrough_eq_some_iff graph opts deep child eid).mp through
  refine ⟨_, (mem_admittedCallers_iff graph opts shallow _).mpr
    ⟨by omega, eid, same ▸ indexed,
      (callerThrough_eq_some_iff graph opts shallow _ eid).mpr
        ⟨edge, caller, located, present, admitted, rfl⟩⟩, rfl⟩

theorem reverseFrontier_exhausted (graph : CallGraph) (seedId : String)
    (opts : ReachabilityOptions) :
    (reverseFrontier graph seedId opts).queue = [] := by
  obtain ⟨_, _, empty⟩ :=
    (reverseSearch graph opts).exhausted (seedItem seedId)
      graph.nodes.ids (fun _ derived => derived_key_mem derived)
  exact empty

theorem reverseFrontier_exact (graph : CallGraph) (seedId : String)
    (opts : ReachabilityOptions) :
    let hits := (reverseFrontier graph seedId opts).hits
    ((seedItem seedId :: hits).map QueueItem.id).Nodup ∧
      (∀ item ∈ hits,
        (reverseSearch graph opts).Derived (seedItem seedId) item) ∧
      ∀ item, (reverseSearch graph opts).Derived (seedItem seedId) item →
        ∃ known ∈ seedItem seedId :: hits,
          known.id = item.id ∧ known.depth ≤ item.depth :=
  (reverseSearch graph opts).hitsWithin_exact (seedItem seedId)
    graph.nodes.ids (fun _ derived => derived_key_mem derived)
    admittedCallers_monotone

theorem mem_reverseReachability_iff (graph : CallGraph) (seedId : String)
    (opts : ReachabilityOptions) (hit : ReachabilityHit) :
    hit ∈ reverseReachability graph seedId opts ↔
      ∃ item ∈ (reverseFrontier graph seedId opts).hits,
        graph.nodes.get? item.id = some hit.node ∧
          hit.depth = item.depth ∧ hit.path = item.path ∧
          hit.minEdgeConfidence = item.conf := by
  rw [reverseReachability, List.mem_filterMap]
  refine exists_congr fun item => and_congr_right fun _ => ?_
  rw [reportHit, Option.map_eq_some_iff]
  constructor
  · rintro ⟨node, found, rfl⟩
    exact ⟨found, rfl, rfl, rfl⟩
  · rintro ⟨found, depth, path, conf⟩
    refine ⟨hit.node, found, ?_⟩
    cases hit
    simp_all

theorem reportHit_id {hit : ReachabilityHit}
    (reported : reportHit graph item = some hit) : hit.node.id = item.id := by
  obtain ⟨node, found, rfl⟩ := Option.map_eq_some_iff.mp reported
  exact NodeTable.id_of_get? found

theorem reported_ids_sublist (graph : CallGraph) (items : List QueueItem) :
    List.Sublist
      ((items.filterMap (reportHit graph)).map (·.node.id))
      (items.map QueueItem.id) := by
  induction items with
  | nil => exact List.Sublist.slnil
  | cons item rest inductionHypothesis =>
    cases reported : reportHit graph item with
    | none =>
      rw [List.filterMap_cons_none reported, List.map_cons]
      exact inductionHypothesis.cons _
    | some hit =>
      rw [List.filterMap_cons_some reported, List.map_cons,
        List.map_cons, reportHit_id reported]
      exact inductionHypothesis.cons_cons _

/--
Exactness of reverse reachability.

The query ends, and reports each node other than the seed at most once and
exactly when an admitted chain of at most the bounded length leads from it to
the seed.  The reported depth is the length of a shortest admitted chain, and
path and confidence are those of such a chain.
-/
theorem reverseReachability_exact
    (graph : CallGraph) (seedId : String) (opts : ReachabilityOptions)
    (adjacent : Adjacent graph)
    (agree : EdgesAgree graph)
    (seedPresent : seedId ∈ graph.nodes.ids) :
    (reverseFrontier graph seedId opts).queue = [] ∧
      ((reverseReachability graph seedId opts).map (·.node.id)).Nodup ∧
      (∀ id, (∃ hit ∈ reverseReachability graph seedId opts,
          hit.node.id = id) ↔
        id ≠ seedId ∧ ∃ edges, CallChain graph opts seedId id edges ∧
          (edges.length : Int) ≤ opts.depthBound) ∧
      ∀ hit ∈ reverseReachability graph seedId opts,
        graph.nodes.get? hit.node.id = some hit.node ∧
          (∀ edges, CallChain graph opts seedId hit.node.id edges →
            hit.depth ≤ edges.length) ∧
          ∃ edges, CallChain graph opts seedId hit.node.id edges ∧
            edges.length = hit.depth ∧
            hit.path = chainPath seedId edges ∧
            hit.minEdgeConfidence = chainConfidence edges := by
  obtain ⟨distinct, sound, complete⟩ :=
    reverseFrontier_exact graph seedId opts
  rw [List.map_cons, List.nodup_cons] at distinct
  have reports : ∀ hit, hit ∈ reverseReachability graph seedId opts →
      hit.node.id ≠ seedId ∧ graph.nodes.get? hit.node.id = some hit.node ∧
        ∃ edges, CallChain graph opts seedId hit.node.id edges ∧
          (edges.length : Int) ≤ opts.depthBound ∧
          edges.length = hit.depth ∧ hit.path = chainPath seedId edges ∧
          hit.minEdgeConfidence = chainConfidence edges := by
    intro hit reported
    obtain ⟨item, discovered, found, depth, path, conf⟩ :=
      (mem_reverseReachability_iff graph seedId opts hit).mp reported
    have keyed := NodeTable.id_of_get? found
    have differs : item.id ≠ seedId := by
      intro same
      exact distinct.1 (List.mem_map.mpr ⟨item, discovered, same⟩)
    obtain ⟨edges, chain, shape, bounded⟩ :=
      chain_of_derived adjacent agree (sound item discovered)
    rw [shape] at depth path conf
    refine ⟨keyed ▸ differs, keyed ▸ found, edges, keyed ▸ chain, ?_,
      depth.symm, path, conf⟩
    rcases bounded with empty | bounded
    · exact (differs (chain.eq_seed_of_nil empty)).elim
    · exact bounded
  -- a chain within the bound is represented by a report of no greater depth
  have represented : ∀ id edges, id ≠ seedId →
      CallChain graph opts seedId id edges →
      (edges.length : Int) ≤ opts.depthBound →
      ∃ hit ∈ reverseReachability graph seedId opts,
        hit.node.id = id ∧ hit.depth ≤ edges.length := by
    intro id edges differs chain bounded
    obtain ⟨item, known, keyed, shallower⟩ :=
      complete _ (derived_of_chain adjacent agree seedPresent chain bounded)
    have keyedId : item.id = id := keyed
    obtain ⟨node, present⟩ :=
      (NodeTable.mem_ids_iff _ _).mp (chain.present seedPresent)
    rcases List.mem_cons.mp known with rfl | discovered
    · exact (differs keyedId.symm).elim
    · refine ⟨⟨node, item.depth, item.path, item.conf⟩, ?_,
        NodeTable.id_of_get? present, shallower⟩
      rw [mem_reverseReachability_iff]
      exact ⟨item, discovered, keyedId ▸ present, rfl, rfl, rfl⟩
  have unique :
      ((reverseReachability graph seedId opts).map (·.node.id)).Nodup :=
    distinct.2.sublist (reported_ids_sublist graph _)
  refine ⟨reverseFrontier_exhausted graph seedId opts, unique, ?_, ?_⟩
  · intro id
    constructor
    · rintro ⟨hit, reported, rfl⟩
      obtain ⟨differs, _, edges, chain, bounded, _⟩ := reports hit reported
      exact ⟨differs, edges, chain, bounded⟩
    · rintro ⟨differs, edges, chain, bounded⟩
      obtain ⟨hit, reported, keyed, _⟩ :=
        represented id edges differs chain bounded
      exact ⟨hit, reported, keyed⟩
  · intro hit reported
    obtain ⟨differs, found, edges, chain, bounded, length, path, conf⟩ :=
      reports hit reported
    refine ⟨found, ?_, edges, chain, length, path, conf⟩
    intro other otherChain
    by_cases longer : edges.length ≤ other.length
    · omega
    · obtain ⟨better, betterReported, sameId, betterDepth⟩ :=
        represented hit.node.id other differs otherChain (by omega)
      have same : better = hit :=
        List.inj_on_of_nodup_map unique betterReported reported sameId
      rw [← same]
      exact betterDepth

/-- A node of an example graph: a function of its own file. -/
def exampleNode (name : String) : FunctionNode where
  id := nodeId (name ++ ".ts") name 1
  qualifiedName := name ++ ".ts:" ++ name
  name := name
  filePath := name ++ ".ts"
  lineStart := 1
  lineEnd := 3
  language := .typescript
  enclosingType := none
  isExternalApi := false
  isTest := false
  signature := none
  bodyHash := none

/-- A direct call between two nodes of an example graph. -/
def exampleEdge (id caller callee : String) : CallEdge where
  id := id
  callerId := nodeId (caller ++ ".ts") caller 1
  calleeId := nodeId (callee ++ ".ts") callee 1
  callSiteFile := caller ++ ".ts"
  callSiteLine := 2
  resolution := .direct
  confidence := .high
  virtual := false

/-- The graph, with its indices, of some functions and calls. -/
def exampleGraph (names : List String) (edges : List CallEdge) :
    CallGraph :=
  rebuildAdjacency
    { repoRoot := "/repo"
      algorithm := .hybrid
      nodes := (∅ : NodeTable).insertAll (names.map exampleNode)
      edges := edges
      outEdges := ∅
      inEdges := ∅
      byName := ∅
      hierarchy := emptyHierarchy
      stats := ⟨0, 0, 0, 0⟩ }

/-- The exactness theorem on a cyclic graph of three functions. -/
theorem reverseReachability_exact_cycle :
    let graph := exampleGraph ["leaf", "mid", "top"]
      [exampleEdge "1" "mid" "leaf", exampleEdge "2" "top" "mid",
        exampleEdge "3" "leaf" "top"]
    (∃ hit ∈ reverseReachability graph "leaf.ts::leaf@1" {},
        hit.node.id = "top.ts::top@1") ↔
      "top.ts::top@1" ≠ "leaf.ts::leaf@1" ∧
        ∃ edges, CallChain graph {} "leaf.ts::leaf@1" "top.ts::top@1"
            edges ∧
          (edges.length : Int) ≤
            ReachabilityOptions.depthBound {} := by
  intro graph
  have agree : EdgesAgree graph := by
    unfold EdgesAgree
    decide
  exact
    (reverseReachability_exact graph "leaf.ts::leaf@1" {} rfl agree
      (by decide)).2.2.1 "top.ts::top@1"

/--
Edges which share an identifier hide each other: both calls enter the seed,
but the index keeps the last of them, and the caller of the first is missing.
-/
theorem reverseReachability_misses_shared_id :
    let graph := exampleGraph ["leaf", "first", "second"]
      [exampleEdge "1" "first" "leaf", exampleEdge "1" "second" "leaf"]
    Adjacent graph ∧ "leaf.ts::leaf@1" ∈ graph.nodes.ids ∧
      CallChain graph {} "leaf.ts::leaf@1" "first.ts::first@1"
        [exampleEdge "1" "first" "leaf"] ∧
      ∀ hit ∈ reverseReachability graph "leaf.ts::leaf@1" {},
        hit.node.id ≠ "first.ts::first@1" := by
  intro graph
  refine ⟨rfl, by decide, ?_, by decide⟩
  have present :
      graph.nodes.get? (exampleEdge "1" "first" "leaf").callerId =
        some (exampleNode "first") := by
    decide
  exact .call .seed (by decide) rfl present (by decide)

end Mendpoint.Calls
