import Mendpoint.Calls.Impact

/-!
# Forward reachability

The functions which a function calls, up to a depth.  A search forwards is the
search backwards in the graph in which every call goes the other way; so the
two queries answer each other.
-/

namespace Mendpoint.Calls

open Mendpoint.Library

/-! ## The query -/

structure ForwardOptions where
  maxDepth : Option Int := none
  minConfidence : Option CallEdgeConfidence := none

section Forward

variable (graph : CallGraph) (opts : ForwardOptions)

/-- The callee reached through one outgoing edge of a queued node. -/
def calleeThrough (cur : QueueItem) (eid : String) : Option QueueItem :=
  match edgeById graph eid with
  | none => none
  | some edge =>
    if confRank edge.confidence < confRank (opts.minConfidence.getD .low) then
      none
    else
      match graph.nodes.get? edge.calleeId with
      | none => none
      | some callee =>
        some
          { id := callee.id
            depth := cur.depth + 1
            path := cur.path ++ [callee.id]
            conf := minConf cur.conf edge.confidence }

/-- The callees considered when a queued node is expanded. -/
def admittedCallees (cur : QueueItem) : List QueueItem :=
  if opts.maxDepth.getD 2 ≤ cur.depth then []
  else (graph.outEdges.getD cur.id []).filterMap (calleeThrough graph opts cur)

theorem depth_of_admittedCallees {parent child : QueueItem}
    (member : child ∈ admittedCallees graph opts parent) :
    child.depth = parent.depth + 1 := by
  rw [admittedCallees] at member
  split at member
  · cases member
  · rcases List.mem_filterMap.mp member with ⟨eid, _, through⟩
    rw [calleeThrough] at through
    split at through
    · cases through
    · split at through
      · cases through
      · split at through
        · cases through
        · cases through
          rfl

def forwardSearch : Search QueueItem String where
  key := QueueItem.id
  depth := QueueItem.depth
  expand := admittedCallees graph opts
  depth_expand := depth_of_admittedCallees graph opts

def forwardFrontier (seedId : String) : Search.Frontier QueueItem String :=
  (forwardSearch graph opts).loop (graph.nodes.ids.length + 2)
    ((forwardSearch graph opts).start (seedItem seedId))

/-- All functions which the seed calls within the depth bound. -/
def forwardReachability (seedId : String) : List ReachabilityHit :=
  (forwardFrontier graph opts seedId).hits.filterMap (reportHit graph)

/-- Direct callers of a node. -/
def directCallers (nodeId : String) : List FunctionNode :=
  (reverseReachability graph nodeId { maxDepth := some 1 }).map
    ReachabilityHit.node

/-- Direct callees. -/
def directCallees (nodeId : String) : List FunctionNode :=
  (forwardReachability graph { maxDepth := some 1 } nodeId).map
    ReachabilityHit.node

end Forward

/-! ## The graph in which every call goes the other way -/

def CallEdge.mirrored (edge : CallEdge) : CallEdge :=
  { edge with callerId := edge.calleeId, calleeId := edge.callerId }

def CallGraph.mirrored (graph : CallGraph) : CallGraph :=
  { graph with
    edges := graph.edges.map CallEdge.mirrored
    outEdges := graph.inEdges
    inEdges := graph.outEdges }

/-- The options of the search backwards in the mirrored graph. -/
def ForwardOptions.reach (opts : ForwardOptions) : ReachabilityOptions where
  maxDepth := some (opts.maxDepth.getD 2)
  minConfidence := opts.minConfidence

/-- The outgoing index of a graph is the one `rebuildAdjacency` computes. -/
def OutAdjacent (graph : CallGraph) : Prop :=
  graph.outEdges = (rebuildAdjacency graph).outEdges

section Mirror

variable {graph : CallGraph} {opts : ReachabilityOptions}

theorem mirrored_mirrored (graph : CallGraph) :
    graph.mirrored.mirrored = graph := by
  have twice : CallEdge.mirrored ∘ CallEdge.mirrored = id := rfl
  rw [CallGraph.mirrored, CallGraph.mirrored]
  simp only [List.map_map, twice, List.map_id]

theorem edgeById_mirrored (graph : CallGraph) (eid : String) :
    edgeById graph.mirrored eid =
      (edgeById graph eid).map CallEdge.mirrored := by
  rw [edgeById, edgeById, edgeIndexOf, edgeIndexOf, OrderedMap.ofList,
    OrderedMap.ofList, OrderedMap.get?_setAll, OrderedMap.get?_setAll]
  simp only [OrderedMap.get?_empty, Option.or_none, CallGraph.mirrored,
    List.map_map, ← List.map_reverse, List.find?_map, Option.map_map]
  rfl

theorem indexEdges_mirrored (endpoint : CallEdge → String)
    (edges : List CallEdge) :
    indexEdges endpoint (edges.map CallEdge.mirrored) =
      indexEdges (endpoint ∘ CallEdge.mirrored) edges := by
  rw [indexEdges, indexEdges, List.map_map]
  rfl

theorem liveEdges_mirrored (nodes : NodeTable) (edges : List CallEdge) :
    liveEdges nodes (edges.map CallEdge.mirrored) =
      (liveEdges nodes edges).map CallEdge.mirrored := by
  rw [liveEdges, liveEdges, List.filter_map]
  congr 2
  ext edge
  exact Bool.and_comm _ _

theorem OutAdjacent.mirrored (outward : OutAdjacent graph) :
    Adjacent graph.mirrored := by
  show graph.outEdges =
    indexEdges _ (liveEdges graph.nodes (graph.edges.map CallEdge.mirrored))
  rw [liveEdges_mirrored, indexEdges_mirrored]
  exact outward

theorem EdgesAgree.mirrored (agree : EdgesAgree graph) :
    EdgesAgree graph.mirrored := by
  intro left member right otherMember same
  rcases List.mem_map.mp member with ⟨edge, inside, rfl⟩
  rcases List.mem_map.mp otherMember with ⟨other, otherInside, rfl⟩
  rcases agree edge inside other otherInside same with
    ⟨caller, callee, confidence⟩
  exact ⟨callee, caller, confidence⟩

theorem admits_reach (opts : ForwardOptions) (edge : CallEdge)
    (callee : FunctionNode) :
    admits opts.reach edge callee =
      !decide (confRank edge.confidence <
        confRank (opts.minConfidence.getD .low)) := by
  rw [Bool.eq_iff_iff]
  simp only [admits, ReachabilityOptions.minRank, ForwardOptions.reach,
    Bool.false_and, Bool.not_false, Bool.and_true, Bool.not_eq_true',
    decide_eq_false_iff_not, Nat.not_lt]
  exact decide_eq_true_iff

/-- A step forwards is a step backwards in the mirrored graph. -/
theorem calleeThrough_mirrored (graph : CallGraph) (opts : ForwardOptions)
    (cur : QueueItem) (eid : String) :
    calleeThrough graph opts cur eid =
      callerThrough graph.mirrored opts.reach cur eid := by
  rw [calleeThrough, callerThrough, edgeById_mirrored]
  cases edgeById graph eid with
  | none => rfl
  | some edge =>
    have ends : graph.mirrored.nodes.get? edge.mirrored.callerId =
        graph.nodes.get? edge.calleeId := rfl
    simp only [Option.map_some, ends, admits_reach]
    by_cases low : confRank edge.confidence <
        confRank (opts.minConfidence.getD .low)
    · cases graph.nodes.get? edge.calleeId with
      | none => simp
      | some callee => simp [low, CallEdge.mirrored]
    · cases graph.nodes.get? edge.calleeId with
      | none => simp
      | some callee => simp [low, CallEdge.mirrored]

theorem forwardSearch_mirrored (graph : CallGraph) (opts : ForwardOptions) :
    forwardSearch graph opts = reverseSearch graph.mirrored opts.reach := by
  have steps : admittedCallees graph opts =
      admittedCallers graph.mirrored opts.reach := by
    funext cur
    rw [admittedCallees, admittedCallers,
      funext (calleeThrough_mirrored graph opts cur)]
    rfl
  simp only [forwardSearch, reverseSearch, steps]

/-- A query forwards is a query backwards in the mirrored graph. -/
theorem forwardReachability_mirrored (graph : CallGraph)
    (opts : ForwardOptions) (seedId : String) :
    forwardReachability graph opts seedId =
      reverseReachability graph.mirrored seedId opts.reach := by
  rw [forwardReachability, forwardFrontier, forwardSearch_mirrored]
  rfl

/-! ## Chains in both directions -/

/-- A chain is continued, before its seed, by a call of the seed. -/
theorem CallChain.cons {seedId id : String} {edges : List CallEdge}
    (chain : CallChain graph opts seedId id edges) {edge : CallEdge}
    {caller : FunctionNode} (member : edge ∈ graph.edges)
    (source : edge.callerId = seedId)
    (present : graph.nodes.get? edge.callerId = some caller)
    (admitted : admits opts edge caller = true) :
    CallChain graph opts edge.calleeId id (edge :: edges) := by
  induction chain with
  | seed => exact source ▸ .call .seed member rfl present admitted
  | call _ inside target found admits inductionHypothesis =>
    exact .call inductionHypothesis inside target found admits

theorem CallChain.mirrored (tests : opts.excludeTests = false)
    {seedId id : String} (seedPresent : seedId ∈ graph.nodes.ids)
    {edges : List CallEdge}
    (chain : CallChain graph.mirrored opts seedId id edges) :
    ∃ back, CallChain graph opts id seedId back ∧
      back.length = edges.length := by
  induction chain with
  | seed => exact ⟨[], .seed, rfl⟩
  | @call callee edges edge caller chain member target present admitted
      inductionHypothesis =>
    rcases inductionHypothesis with ⟨back, leads, same⟩
    rcases List.mem_map.mp member with ⟨original, inside, rfl⟩
    have inhabited : callee ∈ graph.nodes.ids :=
      @CallChain.present graph.mirrored opts _ _ _ seedPresent chain
    rcases (NodeTable.mem_ids_iff _ _).mp inhabited with ⟨node, found⟩
    have source : original.callerId = callee := target
    have admitted' : admits opts original node = true := by
      simp only [admits, tests, Bool.false_and, Bool.not_false,
        Bool.and_true] at admitted ⊢
      exact admitted
    exact ⟨original :: back, leads.cons inside source (source ▸ found)
      admitted', by simp [same]⟩

end Mirror

/-! ## Both queries find each other -/

section Converse

variable {graph : CallGraph} {opts : ReachabilityOptions}

/-- Some admitted chain of a length leads to the seed, and no shorter one. -/
def Nearest (graph : CallGraph) (opts : ReachabilityOptions)
    (seedId id : String) (length : Nat) : Prop :=
  (∃ edges, CallChain graph opts seedId id edges ∧ edges.length = length) ∧
    ∀ edges, CallChain graph opts seedId id edges → length ≤ edges.length

/-- A found item is as deep as a chain which leads to it. -/
theorem chain_of_found (adjacent : Adjacent graph) (agree : EdgesAgree graph)
    {seedId : String} {item : QueueItem}
    (found : item ∈ (reverseFrontier graph seedId opts).hits) :
    ∃ edges, CallChain graph opts seedId item.id edges ∧
      edges.length = item.depth := by
  have derived := (reverseFrontier_exact graph seedId opts).2.1 item found
  rcases chain_of_derived adjacent agree derived with
    ⟨edges, chain, shape, _⟩
  exact ⟨edges, chain, (congrArg QueueItem.depth shape).symm⟩

/-- No admitted chain to a found item is shorter than the item is deep. -/
theorem least_of_found (adjacent : Adjacent graph) (agree : EdgesAgree graph)
    {seedId : String} (seedPresent : seedId ∈ graph.nodes.ids)
    {item : QueueItem}
    (found : item ∈ (reverseFrontier graph seedId opts).hits)
    {edges : List CallEdge} (chain : CallChain graph opts seedId item.id edges)
    (bounded : (edges.length : Int) ≤ opts.depthBound) :
    item.depth ≤ edges.length := by
  rcases reverseFrontier_exact graph seedId opts with ⟨distinct, _, complete⟩
  rcases complete _ (derived_of_chain adjacent agree seedPresent chain bounded)
    with ⟨first, inside, same, shallower⟩
  have own : first = item := List.inj_on_of_nodup_map distinct inside
    (List.mem_cons_of_mem _ found) same
  exact own ▸ shallower

/-- What is reported is where chains lead, each at the length of a shortest. -/
theorem reported_iff (adjacent : Adjacent graph) (agree : EdgesAgree graph)
    {seedId id : String} {depth : Nat} :
    (∃ hit ∈ reverseReachability graph seedId opts,
        hit.node.id = id ∧ hit.depth = depth) ↔
      id ≠ seedId ∧ seedId ∈ graph.nodes.ids ∧
        (depth : Int) ≤ opts.depthBound ∧
        Nearest graph opts seedId id depth := by
  constructor
  · rintro ⟨hit, reported, rfl, rfl⟩
    rcases (mem_reverseReachability_iff graph seedId opts hit).mp reported with
      ⟨item, found, node, depth, _⟩
    have keyed : hit.node.id = item.id := NodeTable.id_of_get? node
    rcases reach_sound adjacent agree reported with
      ⟨seedPresent, _, chain, leads, bounded, _⟩
    have least {edges : List CallEdge} := @least_of_found graph opts adjacent
      agree seedId seedPresent item found edges
    have differs := keyed ▸ reach_differs reported
    have within : (item.depth : Int) ≤ opts.depthBound := by
      have := least (keyed ▸ leads) bounded
      omega
    rw [keyed, depth]
    refine ⟨differs, seedPresent, within,
      chain_of_found adjacent agree found, fun edges other => ?_⟩
    by_cases short : (edges.length : Int) ≤ opts.depthBound
    · exact least other short
    · omega
  · rintro ⟨differs, seedPresent, bounded, ⟨edges, chain, rfl⟩, least⟩
    have complete := (reverseFrontier_exact graph seedId opts).2.2
    rcases complete _ (derived_of_chain adjacent agree seedPresent chain
      bounded) with ⟨item, inside, same, shallower⟩
    have keyed : item.id = id := same
    rcases (NodeTable.mem_ids_iff _ _).mp (chain.present seedPresent) with
      ⟨node, present⟩
    rcases List.mem_cons.mp inside with rfl | found
    · exact absurd keyed.symm differs
    · refine ⟨⟨node, item.depth, item.path, item.conf⟩, ?_,
        NodeTable.id_of_get? present, ?_⟩
      · rw [mem_reverseReachability_iff]
        exact ⟨item, found, keyed ▸ present, rfl, rfl, rfl⟩
      · rcases chain_of_found adjacent agree found with ⟨other, leads, length⟩
        have longer := least other (keyed ▸ leads)
        exact Nat.le_antisymm shallower (length ▸ longer)

/-- The mirrored graph has the same nearest chains, in the other direction. -/
theorem nearest_mirrored (tests : opts.excludeTests = false)
    {source target : String} (sourcePresent : source ∈ graph.nodes.ids)
    (targetPresent : target ∈ graph.nodes.ids) {length : Nat} :
    Nearest graph.mirrored opts source target length ↔
      Nearest graph opts target source length := by
  have back {edges : List CallEdge}
      (chain : CallChain graph.mirrored opts source target edges) :
      ∃ other, CallChain graph opts target source other ∧
        other.length = edges.length :=
    chain.mirrored tests sourcePresent
  have forth {edges : List CallEdge}
      (chain : CallChain graph opts target source edges) :
      ∃ other, CallChain graph.mirrored opts source target other ∧
        other.length = edges.length := by
    rw [← mirrored_mirrored graph] at chain
    exact @CallChain.mirrored graph.mirrored opts tests _ _ targetPresent _
      chain
  constructor
  · rintro ⟨⟨edges, chain, rfl⟩, least⟩
    refine ⟨back chain, fun edges other => ?_⟩
    rcases forth other with ⟨same, leads, length⟩
    exact length ▸ least same leads
  · rintro ⟨⟨edges, chain, rfl⟩, least⟩
    refine ⟨forth chain, fun edges other => ?_⟩
    rcases back other with ⟨same, leads, length⟩
    exact length ▸ least same leads

theorem forward_iff_reverse (adjacent : Adjacent graph)
    (outward : OutAdjacent graph) (agree : EdgesAgree graph) (maxDepth : Int)
    (minConfidence : Option CallEdgeConfidence) (source target : String)
    (depth : Nat) :
    (∃ hit ∈ forwardReachability graph ⟨some maxDepth, minConfidence⟩ source,
        hit.node.id = target ∧ hit.depth = depth) ↔
      ∃ hit ∈ reverseReachability graph target
          ⟨some maxDepth, minConfidence, false⟩,
        hit.node.id = source ∧ hit.depth = depth := by
  rw [forwardReachability_mirrored, reported_iff outward.mirrored
    agree.mirrored, reported_iff adjacent agree]
  constructor
  · rintro ⟨differs, present, bounded, near⟩
    rcases near.1 with ⟨edges, chain, _⟩
    have sourcePresent : source ∈ graph.nodes.ids := present
    have targetPresent : target ∈ graph.nodes.ids :=
      @CallChain.present graph.mirrored _ _ _ _ present chain
    exact ⟨differs.symm, targetPresent, bounded,
      (nearest_mirrored rfl sourcePresent targetPresent).mp near⟩
  · rintro ⟨differs, targetPresent, bounded, near⟩
    rcases near.1 with ⟨edges, chain, _⟩
    have sourcePresent : source ∈ graph.nodes.ids :=
      chain.present targetPresent
    exact ⟨differs.symm, sourcePresent, bounded,
      (nearest_mirrored rfl sourcePresent targetPresent).mpr near⟩

/-- Forward and reverse reachability are converse, at equal depths. -/
theorem reachability_converse (graph : CallGraph) (adjacent : Adjacent graph)
    (outward : OutAdjacent graph) (agree : EdgesAgree graph) (maxDepth : Int)
    (minConfidence : Option CallEdgeConfidence) (source : String) :
    (forwardFrontier graph ⟨some maxDepth, minConfidence⟩ source).queue = [] ∧
      ((forwardReachability graph ⟨some maxDepth, minConfidence⟩ source).map
        (·.node.id)).Nodup ∧
      (∀ target depth,
        (∃ hit ∈ forwardReachability graph ⟨some maxDepth, minConfidence⟩
              source,
            hit.node.id = target ∧ hit.depth = depth) ↔
          ∃ hit ∈ reverseReachability graph target
              ⟨some maxDepth, minConfidence, false⟩,
            hit.node.id = source ∧ hit.depth = depth) ∧
      ∀ target, (∃ node ∈ directCallees graph source, node.id = target) ↔
        ∃ node ∈ directCallers graph target, node.id = source := by
  refine ⟨?_, ?_, forward_iff_reverse adjacent outward agree maxDepth
    minConfidence source, ?_⟩
  · rw [forwardFrontier, forwardSearch_mirrored]
    exact reverseFrontier_exhausted graph.mirrored source _
  · rw [forwardReachability_mirrored]
    have distinct := (reverseFrontier_exact graph.mirrored source
      (ForwardOptions.reach ⟨some maxDepth, minConfidence⟩)).1
    exact (List.nodup_cons.mp distinct).2.sublist
      (reported_ids_sublist graph.mirrored _)
  · intro target
    have single (depth : Nat) :=
      forward_iff_reverse adjacent outward agree 1 none source target depth
    simp only [directCallees, directCallers, List.mem_map,
      exists_exists_and_eq_and]
    constructor
    · rintro ⟨hit, reported, same⟩
      rcases (single hit.depth).mp ⟨hit, reported, same, rfl⟩ with
        ⟨other, found, back, _⟩
      exact ⟨other, found, back⟩
    · rintro ⟨hit, reported, same⟩
      rcases (single hit.depth).mpr ⟨hit, reported, same, rfl⟩ with
        ⟨other, found, back, _⟩
      exact ⟨other, found, back⟩

end Converse

/-- Two functions which call each other over a third. -/
theorem reachability_converse_cycle :
    let graph := exampleGraph ["leaf", "mid", "top"]
      [exampleEdge "1" "mid" "leaf", exampleEdge "2" "top" "mid",
        exampleEdge "3" "leaf" "top"]
    (∃ hit ∈ forwardReachability graph ⟨some 2, none⟩ "top.ts::top@1",
        hit.node.id = "leaf.ts::leaf@1" ∧ hit.depth = 2) ↔
      ∃ hit ∈ reverseReachability graph "leaf.ts::leaf@1"
          ⟨some 2, none, false⟩,
        hit.node.id = "top.ts::top@1" ∧ hit.depth = 2 := by
  intro graph
  have agree : EdgesAgree graph := by
    unfold EdgesAgree
    decide
  exact (reachability_converse graph rfl rfl agree 2 none
    "top.ts::top@1").2.2.1 _ _

end Mendpoint.Calls
