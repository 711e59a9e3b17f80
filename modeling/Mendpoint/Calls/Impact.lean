import Mendpoint.Calls.Query

/-!
# The subgraph of an impact

The functions which call into some seeds, up to a depth, with the calls along
the paths on which they were found.
-/

namespace Mendpoint.Calls

open Mendpoint.Library

/-! ## The subgraph -/

structure ImpactOptions where
  maxDepth : Option Int := none
  minConfidence : Option CallEdgeConfidence := none

/-- The options of the reverse search from each seed. -/
def ImpactOptions.reach (opts : ImpactOptions) : ReachabilityOptions where
  maxDepth := some (opts.maxDepth.getD 3)
  minConfidence := opts.minConfidence

structure WrapperOptions where
  maxCallees : Option Int := none
  maxDepth : Option Int := none

structure ImpactSubgraph where
  seedNodeIds : List String
  nodes : List FunctionNode
  edges : List CallEdge
  upstream : List ReachabilityHit
  wrappers : List FunctionNode

section Impact

variable (graph : CallGraph)

/-- Functions which call into the seeds and have few callees themselves. -/
def findWrappers (seedIds : List String) (opts : WrapperOptions) :
    List FunctionNode :=
  let hits := seedIds.flatMap fun seed =>
    reverseReachability graph seed { maxDepth := some (opts.maxDepth.getD 2) }
  let wrapping := hits.filter fun hit =>
    let outCount := (graph.outEdges.getD hit.node.id []).length
    decide (0 < outCount ∧ (outCount : Int) ≤ opts.maxCallees.getD 5)
  (OrderedMap.ofList
    (wrapping.map fun hit => (hit.node.id, hit.node))).values

/-- The edges from a caller to a callee, as the index has them. -/
def edgesBetween (callee caller : String) : List CallEdge :=
  (graph.inEdges.getD callee []).filterMap fun eid =>
    (edgeById graph eid).filter fun edge => decide (edge.callerId = caller)

/-- The edges along the path of a hit. -/
def pathEdges (path : List String) : List CallEdge :=
  (path.zip path.tail).flatMap fun pair => edgesBetween graph pair.1 pair.2

variable (seedIds : List String) (opts : ImpactOptions)

/-- What the searches from the seeds find, seed by seed. -/
def allUpstream : List ReachabilityHit :=
  seedIds.flatMap fun seed => reverseReachability graph seed opts.reach

/-- The nodes which are collected for one seed. -/
def seedNodes (seed : String) : List (String × FunctionNode) :=
  ((graph.nodes.get? seed).map fun node => (seed, node)).toList ++
    (reverseReachability graph seed opts.reach).map fun hit =>
      (hit.node.id, hit.node)

def impactSubgraph : ImpactSubgraph where
  seedNodeIds := seedIds
  nodes := (OrderedMap.ofList (seedIds.flatMap (seedNodes graph opts))).values
  edges := (OrderedMap.ofList
    ((allUpstream graph seedIds opts).flatMap fun hit =>
      (pathEdges graph hit.path).map fun edge => (edge.id, edge))).values
  upstream := allUpstream graph seedIds opts
  wrappers := findWrappers graph seedIds
    { maxDepth := some (min 2 (opts.maxDepth.getD 3)) }

end Impact

/-! ## Paths and chains -/

section Chains

variable {graph : CallGraph} {opts : ReachabilityOptions} {seedId : String}

/-- Values which a list gives its keys consistently are all kept. -/
theorem mem_values_ofList {β : Type} {entries : List (String × β)}
    (agree : ∀ entry ∈ entries, ∀ other ∈ entries, entry.1 = other.1 →
      entry.2 = other.2) (value : β) :
    value ∈ (OrderedMap.ofList entries).values ↔
      ∃ key, (key, value) ∈ entries := by
  rw [OrderedMap.mem_values_iff]
  constructor
  · rintro ⟨key, found⟩
    exact ⟨key, OrderedMap.mem_of_get?_ofList found⟩
  · rintro ⟨key, member⟩
    have present : key ∈ (OrderedMap.ofList entries).keys :=
      (OrderedMap.mem_keys_ofList entries key).mpr
        (List.mem_map.mpr ⟨_, member, rfl⟩)
    rcases (OrderedMap.mem_keys_iff _ key).mp present with ⟨other, found⟩
    have same : value = other :=
      agree _ member _ (OrderedMap.mem_of_get?_ofList found) rfl
    rw [same]
    exact ⟨key, found⟩

/-- Only a seed which is there has callers. -/
theorem seed_present (adjacent : Adjacent graph) {item : QueueItem}
    (derived : (reverseSearch graph opts).Derived (seedItem seedId) item) :
    item = seedItem seedId ∨ seedId ∈ graph.nodes.ids := by
  induction derived with
  | seed => exact Or.inl rfl
  | @expand parent child _ member inductionHypothesis =>
    rcases inductionHypothesis with rfl | present
    · rcases (mem_admittedCallers_iff graph opts _ child).mp member with
        ⟨_, eid, indexed, _⟩
      rcases (mem_inEdges_iff adjacent _ eid).mp indexed with
        ⟨stored, live, target, _⟩
      have ends := ((mem_liveEdges_iff _ _ _).mp live).2.2
      rw [target] at ends
      exact Or.inr ends
    · exact Or.inr present

/-- A search never reports its seed. -/
theorem reach_differs {hit : ReachabilityHit}
    (reported : hit ∈ reverseReachability graph seedId opts) :
    hit.node.id ≠ seedId := by
  have distinct := (reverseFrontier_exact graph seedId opts).1
  rw [List.map_cons, List.nodup_cons] at distinct
  rcases (mem_reverseReachability_iff graph seedId opts hit).mp reported with
    ⟨item, discovered, found, _⟩
  rw [NodeTable.id_of_get? found]
  exact fun same => distinct.1 (List.mem_map.mpr ⟨item, discovered, same⟩)

theorem reach_sound (adjacent : Adjacent graph) (agree : EdgesAgree graph)
    {hit : ReachabilityHit}
    (reported : hit ∈ reverseReachability graph seedId opts) :
    seedId ∈ graph.nodes.ids ∧ graph.nodes.get? hit.node.id = some hit.node ∧
      ∃ edges, CallChain graph opts seedId hit.node.id edges ∧
        (edges.length : Int) ≤ opts.depthBound ∧
        hit.path = chainPath seedId edges := by
  rcases reverseFrontier_exact graph seedId opts with ⟨_, sound, _⟩
  rcases (mem_reverseReachability_iff graph seedId opts hit).mp reported with
    ⟨item, discovered, found, _, path, _⟩
  have keyed := NodeTable.id_of_get? found
  have differs := keyed ▸ reach_differs reported
  rcases chain_of_derived adjacent agree (sound item discovered) with
    ⟨edges, chain, shape, bounded⟩
  rw [shape] at path
  refine ⟨?_, keyed ▸ found, edges, keyed ▸ chain, ?_, path⟩
  · rcases seed_present adjacent (sound item discovered) with same | present
    · exact absurd (congrArg QueueItem.id same) differs
    · exact present
  · rcases bounded with empty | bounded
    · exact absurd (chain.eq_seed_of_nil empty) differs
    · exact bounded

theorem reach_complete (adjacent : Adjacent graph) (agree : EdgesAgree graph)
    (seedPresent : seedId ∈ graph.nodes.ids) {id : String}
    (differs : id ≠ seedId) {edges : List CallEdge}
    (chain : CallChain graph opts seedId id edges)
    (bounded : (edges.length : Int) ≤ opts.depthBound) :
    ∃ hit ∈ reverseReachability graph seedId opts, hit.node.id = id := by
  rcases reverseFrontier_exact graph seedId opts with ⟨_, _, complete⟩
  rcases complete _ (derived_of_chain adjacent agree seedPresent chain bounded)
    with ⟨item, known, keyed, _⟩
  have keyedId : item.id = id := keyed
  rcases (NodeTable.mem_ids_iff _ _).mp (chain.present seedPresent) with
    ⟨node, present⟩
  rcases List.mem_cons.mp known with rfl | discovered
  · exact absurd keyedId.symm differs
  · refine ⟨⟨node, item.depth, item.path, item.conf⟩, ?_,
      NodeTable.id_of_get? present⟩
    rw [mem_reverseReachability_iff]
    exact ⟨item, discovered, keyedId ▸ present, rfl, rfl, rfl⟩

/-- A chain leads through every node on its path. -/
theorem CallChain.prefix_of_mem {id : String} {edges : List CallEdge}
    (chain : CallChain graph opts seedId id edges) {other : String}
    (member : other ∈ chainPath seedId edges) :
    ∃ part, CallChain graph opts seedId other part ∧
      part.length ≤ edges.length := by
  induction chain with
  | seed =>
    cases List.mem_singleton.mp member
    exact ⟨[], .seed, le_rfl⟩
  | @call callee edges edge caller chain inside target present admitted
      inductionHypothesis =>
    rw [chainPath, List.map_append, ← List.cons_append] at member
    rcases List.mem_append.mp member with before | last
    · rcases inductionHypothesis before with ⟨part, leads, shorter⟩
      exact ⟨part, leads, shorter.trans (by simp)⟩
    · cases List.mem_singleton.mp last
      exact ⟨_, .call chain inside target present admitted, le_rfl⟩

theorem zip_tail_concat {α : Type} (path : List α) (first last : α) :
    ((first :: path) ++ [last]).zip ((first :: path) ++ [last]).tail =
      (first :: path).zip path ++
        [((first :: path).getLast (List.cons_ne_nil _ _), last)] := by
  induction path generalizing first with
  | nil => rfl
  | cons second path inductionHypothesis =>
    have later := inductionHypothesis second
    simp only [List.cons_append, List.tail_cons, List.zip_cons_cons] at later ⊢
    rw [later, List.getLast_cons (List.cons_ne_nil _ _)]

/-- A chain ends, on its path, where it leads. -/
theorem CallChain.getLast {id : String} {edges : List CallEdge}
    (chain : CallChain graph opts seedId id edges) :
    (chainPath seedId edges).getLast (List.cons_ne_nil _ _) = id := by
  cases chain with
  | seed => rfl
  | call => simp [chainPath]

/-- The calls of a chain are steps of its path, between nodes which are there. -/
theorem CallChain.steps (seedPresent : seedId ∈ graph.nodes.ids) {id : String}
    {edges : List CallEdge} (chain : CallChain graph opts seedId id edges) :
    ∀ edge ∈ edges, edge ∈ liveEdges graph.nodes graph.edges ∧
      (edge.calleeId, edge.callerId) ∈
        (chainPath seedId edges).zip (chainPath seedId edges).tail := by
  induction chain with
  | seed => simp
  | @call callee edges edge caller chain inside target present admitted
      inductionHypothesis =>
    have path : chainPath seedId (edges ++ [edge]) =
        (seedId :: edges.map (·.callerId)) ++ [edge.callerId] := by
      simp [chainPath]
    intro other member
    rw [path, zip_tail_concat]
    rcases List.mem_append.mp member with before | last
    · have known := inductionHypothesis other before
      exact ⟨known.1, List.mem_append_left _ known.2⟩
    · cases List.mem_singleton.mp last
      refine ⟨(mem_liveEdges_iff _ _ _).mpr ⟨inside,
        (NodeTable.mem_ids_iff _ _).mpr ⟨_, present⟩,
        target ▸ chain.present seedPresent⟩, List.mem_append_right _ ?_⟩
      have final : (seedId :: edges.map (·.callerId)).getLast
          (List.cons_ne_nil _ _) = callee := chain.getLast
      rw [final, target]
      exact List.mem_singleton_self _

theorem mem_edgesBetween (adjacent : Adjacent graph) (agree : EdgesAgree graph)
    {callee caller : String} {edge : CallEdge}
    (member : edge ∈ edgesBetween graph callee caller) :
    edge ∈ graph.edges ∧ edgeById graph edge.id = some edge ∧
      edge.callerId = caller ∧ edge.calleeId = callee := by
  rcases List.mem_filterMap.mp member with ⟨eid, indexed, found⟩
  rcases Option.filter_eq_some_iff.mp found with ⟨located, own⟩
  rcases edgeById_sound located with ⟨inside, rfl⟩
  rcases (mem_inEdges_iff adjacent callee _).mp indexed with
    ⟨stored, live, target, same⟩
  have agreed := agree edge inside stored ((mem_liveEdges_iff _ _ _).mp live).1
    same.symm
  exact ⟨inside, located, of_decide_eq_true own, agreed.2.1.trans target⟩

theorem edgesBetween_of_live (adjacent : Adjacent graph)
    (agree : EdgesAgree graph) {edge : CallEdge}
    (live : edge ∈ liveEdges graph.nodes graph.edges) :
    ∃ kept ∈ edgesBetween graph edge.calleeId edge.callerId,
      kept.id = edge.id ∧ kept.callerId = edge.callerId ∧
        kept.calleeId = edge.calleeId := by
  have inside := ((mem_liveEdges_iff _ _ _).mp live).1
  rcases edgeById_complete inside with ⟨kept, located⟩
  rcases edgeById_sound located with ⟨keptInside, same⟩
  rcases agree kept keptInside edge inside same with ⟨caller, callee, _⟩
  refine ⟨kept, List.mem_filterMap.mpr ⟨edge.id, ?_, ?_⟩, same, caller, callee⟩
  · exact (mem_inEdges_iff adjacent _ _).mpr ⟨edge, live, rfl, rfl⟩
  · exact Option.filter_eq_some_iff.mpr ⟨located, decide_eq_true caller⟩

end Chains

/-! ## What the subgraph contains -/

section Contents

variable {graph : CallGraph} {seedIds : List String} {opts : ImpactOptions}

/-- A function which calls a seed, and few functions itself. -/
def Wraps (graph : CallGraph) (seedIds : List String) (opts : WrapperOptions)
    (node : FunctionNode) : Prop :=
  let outCount := (graph.outEdges.getD node.id []).length
  let reach : ReachabilityOptions := { maxDepth := some (opts.maxDepth.getD 2) }
  graph.nodes.get? node.id = some node ∧
    (0 < outCount ∧ (outCount : Int) ≤ opts.maxCallees.getD 5) ∧
    ∃ seed ∈ seedIds, seed ∈ graph.nodes.ids ∧ node.id ≠ seed ∧ ∃ chain,
      CallChain graph reach seed node.id chain ∧
        (chain.length : Int) ≤ reach.depthBound

/-- What the subgraph of some seeds has to contain. -/
structure ImpactExact (graph : CallGraph) (seedIds : List String)
    (opts : ImpactOptions) (impact : ImpactSubgraph) : Prop where
  /-- The seeds, and what calls one of them through few enough calls. -/
  nodes : ∀ node, node ∈ impact.nodes ↔
    graph.nodes.get? node.id = some node ∧
      ∃ seed ∈ seedIds, seed ∈ graph.nodes.ids ∧
        (node.id = seed ∨ ∃ chain,
          CallChain graph opts.reach seed node.id chain ∧
            (chain.length : Int) ≤ opts.reach.depthBound)
  distinct : (impact.nodes.map FunctionNode.id).Nodup
  edges : ∀ edge ∈ impact.edges, edge ∈ graph.edges ∧
    (∃ node ∈ impact.nodes, node.id = edge.callerId) ∧
      ∃ node ∈ impact.nodes, node.id = edge.calleeId
  /-- Every node calls a seed through edges of the subgraph. -/
  connected : ∀ node ∈ impact.nodes, ∃ seed ∈ seedIds, ∃ chain,
    CallChain graph opts.reach seed node.id chain ∧
      ∀ edge ∈ chain, ∃ kept ∈ impact.edges, kept.id = edge.id ∧
        kept.callerId = edge.callerId ∧ kept.calleeId = edge.calleeId
  wrappers : ∀ node, node ∈ impact.wrappers ↔
    Wraps graph seedIds { maxDepth := some (min 2 (opts.maxDepth.getD 3)) } node

theorem mem_seedNodes {seed key : String} {node : FunctionNode} :
    (key, node) ∈ seedNodes graph opts seed ↔
      (key = seed ∧ graph.nodes.get? seed = some node) ∨
        ∃ hit ∈ reverseReachability graph seed opts.reach,
          hit.node.id = key ∧ hit.node = node := by
  simp only [seedNodes, List.mem_append, Option.mem_toList,
    Option.map_eq_some_iff, List.mem_map, Prod.mk.injEq]
  constructor
  · rintro (⟨other, found, rfl, rfl⟩ | hit)
    · exact Or.inl ⟨rfl, found⟩
    · exact Or.inr hit
  · rintro (⟨rfl, found⟩ | hit)
    · exact Or.inl ⟨node, found, rfl, rfl⟩
    · exact Or.inr hit

/-- Every collected node is the one of its key. -/
theorem get?_of_seedNodes (adjacent : Adjacent graph) (agree : EdgesAgree graph)
    {seed key : String} {node : FunctionNode}
    (member : (key, node) ∈ seedNodes graph opts seed) :
    node.id = key ∧ graph.nodes.get? key = some node := by
  rcases mem_seedNodes.mp member with ⟨rfl, found⟩ | ⟨hit, reported, rfl, rfl⟩
  · exact ⟨NodeTable.id_of_get? found, found⟩
  · exact ⟨rfl, (reach_sound adjacent agree reported).2.1⟩

theorem mem_impact_nodes (adjacent : Adjacent graph) (agree : EdgesAgree graph)
    (node : FunctionNode) :
    node ∈ (impactSubgraph graph seedIds opts).nodes ↔
      ∃ seed ∈ seedIds, (node.id, node) ∈ seedNodes graph opts seed := by
  rw [impactSubgraph, mem_values_ofList]
  · constructor
    · rintro ⟨key, member⟩
      rcases List.mem_flatMap.mp member with ⟨seed, isSeed, inside⟩
      rw [(get?_of_seedNodes adjacent agree inside).1]
      exact ⟨seed, isSeed, inside⟩
    · rintro ⟨seed, isSeed, inside⟩
      exact ⟨_, List.mem_flatMap.mpr ⟨seed, isSeed, inside⟩⟩
  · intro entry member other otherMember same
    rcases List.mem_flatMap.mp member with ⟨seed, _, inside⟩
    rcases List.mem_flatMap.mp otherMember with ⟨seed', _, inside'⟩
    have found := (get?_of_seedNodes adjacent agree inside).2
    rw [same, (get?_of_seedNodes adjacent agree inside').2] at found
    exact (Option.some.inj found).symm

/-- A node which leads to a seed is collected for it. -/
theorem mem_seedNodes_iff (adjacent : Adjacent graph) (agree : EdgesAgree graph)
    {seed : String} (node : FunctionNode) :
    (node.id, node) ∈ seedNodes graph opts seed ↔
      graph.nodes.get? node.id = some node ∧ seed ∈ graph.nodes.ids ∧
        (node.id = seed ∨ ∃ chain,
          CallChain graph opts.reach seed node.id chain ∧
            (chain.length : Int) ≤ opts.reach.depthBound) := by
  constructor
  · intro member
    refine ⟨(get?_of_seedNodes adjacent agree member).2, ?_⟩
    rcases mem_seedNodes.mp member with ⟨own, found⟩ | ⟨hit, reported, _, rfl⟩
    · exact ⟨(NodeTable.mem_ids_iff _ _).mpr ⟨node, found⟩, Or.inl own⟩
    · rcases reach_sound adjacent agree reported with
        ⟨present, _, chain, leads, short, _⟩
      exact ⟨present, Or.inr ⟨chain, leads, short⟩⟩
  · rintro ⟨found, present, leads⟩
    rw [mem_seedNodes]
    by_cases own : node.id = seed
    · exact Or.inl ⟨own, own ▸ found⟩
    · rcases leads with same | ⟨chain, leads, short⟩
      · exact absurd same own
      · rcases reach_complete adjacent agree present own leads short with
          ⟨hit, reported, same⟩
        have stored := (reach_sound adjacent agree reported).2.1
        rw [same, found] at stored
        exact Or.inr ⟨hit, reported, same, (Option.some.inj stored).symm⟩

theorem mem_impact_edges (adjacent : Adjacent graph) (agree : EdgesAgree graph)
    (edge : CallEdge) :
    edge ∈ (impactSubgraph graph seedIds opts).edges ↔
      ∃ hit ∈ allUpstream graph seedIds opts,
        edge ∈ pathEdges graph hit.path := by
  have located {hit : ReachabilityHit} {edge : CallEdge}
      (member : edge ∈ pathEdges graph hit.path) :
      edgeById graph edge.id = some edge := by
    rcases List.mem_flatMap.mp member with ⟨pair, _, inside⟩
    exact (mem_edgesBetween adjacent agree inside).2.1
  rw [impactSubgraph, mem_values_ofList]
  · simp only [List.mem_flatMap, List.mem_map, Prod.mk.injEq]
    constructor
    · rintro ⟨key, hit, reported, other, inside, rfl, rfl⟩
      exact ⟨hit, reported, inside⟩
    · rintro ⟨hit, reported, inside⟩
      exact ⟨edge.id, hit, reported, edge, inside, rfl, rfl⟩
  · intro entry member other otherMember same
    simp only [List.mem_flatMap, List.mem_map] at member otherMember
    rcases member with ⟨hit, _, edge, inside, rfl⟩
    rcases otherMember with ⟨hit', _, edge', inside', rfl⟩
    have ids : edge.id = edge'.id := same
    have found := located inside
    rw [ids, located inside'] at found
    exact (Option.some.inj found).symm

theorem mem_findWrappers_iff (adjacent : Adjacent graph)
    (agree : EdgesAgree graph) (opts : WrapperOptions) (node : FunctionNode) :
    node ∈ findWrappers graph seedIds opts ↔ Wraps graph seedIds opts node := by
  rw [findWrappers, mem_values_ofList]
  · constructor
    · rintro ⟨key, member⟩
      rcases List.mem_map.mp member with ⟨hit, wrapping, same⟩
      cases same
      rcases List.mem_filter.mp wrapping with ⟨inside, few⟩
      rcases List.mem_flatMap.mp inside with ⟨seed, isSeed, reported⟩
      rcases reach_sound adjacent agree reported with
        ⟨present, stored, chain, leads, short, _⟩
      exact ⟨stored, of_decide_eq_true few, seed, isSeed, present,
        reach_differs reported, chain, leads, short⟩
    · rintro ⟨stored, few, seed, isSeed, present, differs, chain, leads, short⟩
      rcases reach_complete adjacent agree present differs leads short with
        ⟨hit, reported, same⟩
      have found := (reach_sound adjacent agree reported).2.1
      rw [same, stored] at found
      cases found
      exact ⟨_, List.mem_map.mpr ⟨hit, List.mem_filter.mpr
        ⟨List.mem_flatMap.mpr ⟨seed, isSeed, reported⟩,
          decide_eq_true few⟩, rfl⟩⟩
  · intro entry member other otherMember same
    rw [List.mem_map] at member otherMember
    simp only [List.mem_filter, List.mem_flatMap] at member otherMember
    rcases member with ⟨hit, ⟨⟨seed, _, reported⟩, _⟩, rfl⟩
    rcases otherMember with ⟨hit', ⟨⟨seed', _, reported'⟩, _⟩, rfl⟩
    have ids : hit.node.id = hit'.node.id := same
    have found := (reach_sound adjacent agree reported).2.1
    rw [ids, (reach_sound adjacent agree reported').2.1] at found
    exact (Option.some.inj found).symm

theorem impact_ids_nodup (adjacent : Adjacent graph) (agree : EdgesAgree graph) :
    ((impactSubgraph graph seedIds opts).nodes.map FunctionNode.id).Nodup := by
  have ids : (impactSubgraph graph seedIds opts).nodes.map FunctionNode.id =
      (OrderedMap.ofList (seedIds.flatMap (seedNodes graph opts))).keys := by
    rw [impactSubgraph, OrderedMap.values, OrderedMap.keys, List.map_map]
    refine List.map_congr_left fun entry member => ?_
    have found := (OrderedMap.mem_entries_iff _ entry.1 entry.2).mp member
    rcases List.mem_flatMap.mp (OrderedMap.mem_of_get?_ofList found) with
      ⟨seed, _, inside⟩
    exact (get?_of_seedNodes adjacent agree inside).1
  rw [ids]
  exact OrderedMap.nodup_keys _

/-- Every node on the path of a hit belongs to the subgraph. -/
theorem mem_impact_of_path (adjacent : Adjacent graph) (agree : EdgesAgree graph)
    {seed : String} (isSeed : seed ∈ seedIds) {hit : ReachabilityHit}
    (reported : hit ∈ reverseReachability graph seed opts.reach) {id : String}
    (member : id ∈ hit.path) :
    ∃ node ∈ (impactSubgraph graph seedIds opts).nodes, node.id = id := by
  rcases reach_sound adjacent agree reported with
    ⟨present, _, chain, leads, short, path⟩
  rw [path] at member
  rcases leads.prefix_of_mem member with ⟨part, through, shorter⟩
  rcases (NodeTable.mem_ids_iff _ _).mp (through.present present) with
    ⟨node, found⟩
  cases NodeTable.id_of_get? found
  exact ⟨node, (mem_impact_nodes adjacent agree node).mpr ⟨seed, isSeed,
    (mem_seedNodes_iff adjacent agree node).mpr ⟨found, present,
      Or.inr ⟨part, through, by omega⟩⟩⟩, rfl⟩

/-- Every node of the subgraph calls a seed over edges of it. -/
theorem impact_connected (adjacent : Adjacent graph) (agree : EdgesAgree graph)
    {node : FunctionNode}
    (member : node ∈ (impactSubgraph graph seedIds opts).nodes) :
    ∃ seed ∈ seedIds, ∃ chain,
      CallChain graph opts.reach seed node.id chain ∧
        ∀ edge ∈ chain, ∃ kept ∈ (impactSubgraph graph seedIds opts).edges,
          kept.id = edge.id ∧ kept.callerId = edge.callerId ∧
            kept.calleeId = edge.calleeId := by
  rcases (mem_impact_nodes adjacent agree node).mp member with
    ⟨seed, isSeed, inside⟩
  refine ⟨seed, isSeed, ?_⟩
  rcases mem_seedNodes.mp inside with ⟨own, _⟩ | ⟨hit, reported, _, rfl⟩
  · rw [own]
    exact ⟨[], .seed, by simp⟩
  · rcases reach_sound adjacent agree reported with
      ⟨present, _, chain, leads, _, path⟩
    refine ⟨chain, leads, fun edge isStep => ?_⟩
    rcases leads.steps present edge isStep with ⟨live, step⟩
    rcases edgesBetween_of_live adjacent agree live with ⟨kept, between, same⟩
    refine ⟨kept, (mem_impact_edges adjacent agree kept).mpr ⟨hit,
      List.mem_flatMap.mpr ⟨seed, isSeed, reported⟩, List.mem_flatMap.mpr
        ⟨(edge.calleeId, edge.callerId), ?_, between⟩⟩, same⟩
    rw [path]
    exact step

/-- The subgraph of some seeds is exact, and every node of it is connected to
a seed by its edges. -/
theorem impactSubgraph_exact (adjacent : Adjacent graph)
    (agree : EdgesAgree graph) (seedIds : List String) (opts : ImpactOptions) :
    ImpactExact graph seedIds opts (impactSubgraph graph seedIds opts) := by
  refine ⟨?_, impact_ids_nodup adjacent agree, ?_,
    fun _ => impact_connected adjacent agree,
    mem_findWrappers_iff adjacent agree _⟩
  · intro node
    rw [mem_impact_nodes adjacent agree]
    simp only [mem_seedNodes_iff adjacent agree]
    constructor
    · rintro ⟨seed, isSeed, found, present, leads⟩
      exact ⟨found, seed, isSeed, present, leads⟩
    · rintro ⟨found, seed, isSeed, present, leads⟩
      exact ⟨seed, isSeed, found, present, leads⟩
  · intro edge member
    rcases (mem_impact_edges adjacent agree edge).mp member with
      ⟨hit, upstream, inside⟩
    rcases List.mem_flatMap.mp upstream with ⟨seed, isSeed, reported⟩
    rcases List.mem_flatMap.mp inside with ⟨pair, step, between⟩
    have onPath {id : String} :=
      @mem_impact_of_path graph seedIds opts adjacent agree seed isSeed hit
        reported id
    rcases mem_edgesBetween adjacent agree between with
      ⟨stored, _, caller, callee⟩
    rw [caller, callee]
    exact ⟨stored, onPath (List.mem_of_mem_tail (List.of_mem_zip step).2),
      onPath (List.of_mem_zip step).1⟩

end Contents

/-- The exactness theorem on a cyclic graph of three functions. -/
theorem impactSubgraph_exact_cycle :
    let graph := exampleGraph ["leaf", "mid", "top"]
      [exampleEdge "1" "mid" "leaf", exampleEdge "2" "top" "mid",
        exampleEdge "3" "leaf" "top"]
    let impact := impactSubgraph graph ["leaf.ts::leaf@1"] { maxDepth := some 1 }
    impact.nodes.map FunctionNode.name = ["leaf", "mid"] ∧
      ImpactExact graph ["leaf.ts::leaf@1"] { maxDepth := some 1 } impact := by
  intro graph impact
  have agree : EdgesAgree graph := by
    unfold EdgesAgree
    decide
  have adjacent : Adjacent graph := rfl
  exact ⟨by decide, impactSubgraph_exact adjacent agree _ _⟩

end Mendpoint.Calls
