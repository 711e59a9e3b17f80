import Mendpoint.Calls.VersionIndex
import Mendpoint.Library.Delimited

/-!
# Materialising a committed graph

A version refers to the payloads interned under its hashes.  The hash of a
node payload leaves line numbers out and the first payload of a hash stays, so
a graph is reproduced exactly when each of its nodes finds, under its hash,
its own payload.  The hash of an edge payload covers the whole payload; edges
are reproduced whenever the nodes are, up to missing endpoints, repeated
calls and backslashes in paths.
-/

namespace Mendpoint.Calls

open Mendpoint.Library

/-! ## Paths and payloads -/

theorem not_mem_slashed (path : String) : '\\' ∉ (slashed path).toList := by
  simp only [slashed, Text.replaceChar, String.toList_ofList, List.mem_map,
    not_exists, not_and]
  intro char _ equal
  split at equal
  · cases equal
  · rename_i different
    exact different equal

theorem slashed_eq_self {path : String} (plain : '\\' ∉ path.toList) :
    slashed path = path := by
  have same : (path.toList.map fun char =>
      if char = '\\' then '/' else char) = path.toList := by
    conv_rhs => rw [← List.map_id path.toList]
    apply List.map_congr_left
    intro char member
    have different : char ≠ '\\' := by
      rintro rfl
      exact plain member
    simp [different]
  rw [slashed, Text.replaceChar, same, String.ofList_toList]

/-- A node whose identifier is the one its location determines. -/
def CanonicalNode (node : FunctionNode) : Prop :=
  node.id = nodeId node.filePath node.name node.lineStart ∧
    '\\' ∉ node.filePath.toList

theorem payloadToNode_functionNodeToPayload {node : FunctionNode}
    (canonical : CanonicalNode node) :
    payloadToNode (functionNodeToPayload node) = node := by
  have path := slashed_eq_self canonical.2
  cases node
  simp_all [payloadToNode, functionNodeToPayload, CanonicalNode]

theorem canonicalNode_payloadToNode (node : FunctionNode) :
    CanonicalNode (payloadToNode (functionNodeToPayload node)) :=
  ⟨rfl, not_mem_slashed _⟩

theorem functionNodeToPayload_payloadToNode (node : FunctionNode) :
    functionNodeToPayload (payloadToNode (functionNodeToPayload node)) =
      functionNodeToPayload node := by
  have path : slashed (slashed node.filePath) = slashed node.filePath :=
    slashed_eq_self (not_mem_slashed _)
  simp [functionNodeToPayload, payloadToNode, nodeStableKey, path]

/-! ## Hash inputs -/

theorem not_mem_structuralHash (input : String) :
    '|' ∉ (structuralHash input).toList := by
  have noDigit : ∀ digit, Text.radixDigit digit ≠ '|' := by
    intro digit
    rw [Text.radixDigit, List.getD_eq_getElem?_getD]
    cases found :
        "0123456789abcdefghijklmnopqrstuvwxyz".toList[digit]? with
    | none => decide
    | some char =>
      have listed := List.mem_of_getElem? found
      rintro rfl
      revert listed
      decide
  simp only [structuralHash, Text.padStart, String.toList_ofList,
    List.mem_append, List.mem_replicate, not_or]
  refine ⟨fun padded => absurd padded.2 (by decide), ?_⟩
  intro member
  rw [Text.toRadix, String.toList_ofList] at member
  rcases Delimited.mem_radixDigits member with ⟨digit, equal⟩ | empty
  · exact noDigit digit equal.symm
  · cases empty

theorem text_plain_resolution (resolution : CallResolution) :
    '|' ∉ resolution.text.toList := by
  cases resolution <;> decide

theorem text_plain_confidence (confidence : CallEdgeConfidence) :
    '|' ∉ confidence.text.toList := by
  cases confidence <;> decide

theorem flagText_plain (flag : Bool) : '|' ∉ (flagText flag).toList := by
  cases flag <;> decide

theorem CallResolution.text_injective :
    Function.Injective CallResolution.text := by
  intro left right equal
  cases left <;> cases right <;> first | rfl | exact absurd equal (by decide)

theorem CallEdgeConfidence.text_injective :
    Function.Injective CallEdgeConfidence.text := by
  intro left right equal
  cases left <;> cases right <;> first | rfl | exact absurd equal (by decide)

theorem flagText_injective : Function.Injective flagText := by
  intro left right equal
  cases left <;> cases right <;> first | rfl | exact absurd equal (by decide)

/-- The fields of an edge hash input before the call-site path. -/
def leadingFields (payload : StoredEdgePayload) : List String :=
  [payload.callerHash, payload.calleeHash]

/-- The fields of an edge hash input after the call-site path. -/
def trailingFields (payload : StoredEdgePayload) : List String :=
  [toString payload.callSiteLine, payload.resolution.text,
    payload.confidence.text, flagText payload.virtual]

theorem edgeHashInput_eq (payload : StoredEdgePayload) :
    edgeHashInput payload =
      Text.join (String.ofList ['|'])
        (leadingFields payload ++
          payload.callSiteFile :: trailingFields payload) := by
  have pipe : String.ofList ['|'] = "|" := by decide
  rw [pipe]
  rfl

variable {payload : StoredEdgePayload} {graph : CallGraph}

theorem edgeFields_plain
    (hashes : '|' ∉ payload.callerHash.toList ∧ '|' ∉
      payload.calleeHash.toList) :
    ∀ field ∈ leadingFields payload ++ trailingFields payload,
      '|' ∉ field.toList := by
  intro field member
  simp only [leadingFields, trailingFields, List.cons_append,
    List.nil_append, List.mem_cons, List.not_mem_nil, or_false] at member
  rcases member with rfl | rfl | rfl | rfl | rfl | rfl
  · exact hashes.1
  · exact hashes.2
  · exact Delimited.not_mem_toString (by decide) _
  · exact text_plain_resolution _
  · exact text_plain_confidence _
  · exact flagText_plain _

theorem edgeHashInput_inj {left right : StoredEdgePayload}
    (leftHashes :
      '|' ∉ left.callerHash.toList ∧ '|' ∉ left.calleeHash.toList)
    (rightHashes :
      '|' ∉ right.callerHash.toList ∧ '|' ∉ right.calleeHash.toList)
    (equal : edgeHashInput left = edgeHashInput right) :
    left = right := by
  rw [edgeHashInput_eq, edgeHashInput_eq] at equal
  have frontLength :
      (leadingFields left).length = (leadingFields right).length := rfl
  have backLength :
      (trailingFields left).length = (trailingFields right).length := rfl
  obtain ⟨fronts, file, backs⟩ :=
    Delimited.join_inj frontLength backLength (edgeFields_plain leftHashes)
      (edgeFields_plain rightHashes) equal
  simp only [leadingFields, trailingFields, List.cons.injEq, and_true]
    at fronts backs
  obtain ⟨caller, callee⟩ := fronts
  obtain ⟨lineText, resolutionText, confidenceText, flag⟩ := backs
  have line := Delimited.toString_inj lineText
  have resolution := CallResolution.text_injective resolutionText
  have confidence := CallEdgeConfidence.text_injective confidenceText
  have isVirtual := flagText_injective flag
  cases left
  cases right
  simp only at caller callee file line resolution confidence isVirtual
  rw [caller, callee, file, line, resolution, confidence, isVirtual]

/-! ## Where stored payloads come from -/

theorem get?_idToHash {id hash : String} :
    (idToHash graph).get? id = some hash ↔
      ∃ node ∈ graph.nodes.values, node.id = id ∧ nodeHash node = hash := by
  rw [idToHash, OrderedMap.get?_ofList_of_nodup]
  · simp only [List.mem_map, Prod.mk.injEq]
  · rw [List.map_map]
    exact graph.nodes.nodup_values_ids

theorem edgePayload_eq_some_iff {edge : CallEdge} :
    edgePayload (idToHash graph) edge = some payload ↔
      ∃ caller ∈ graph.nodes.values, ∃ callee ∈ graph.nodes.values,
        caller.id = edge.callerId ∧ callee.id = edge.calleeId ∧
        payload =
          { callerHash := nodeHash caller
            calleeHash := nodeHash callee
            callSiteFile := slashed edge.callSiteFile
            callSiteLine := edge.callSiteLine
            resolution := edge.resolution
            confidence := edge.confidence
            virtual := edge.virtual } := by
  unfold edgePayload
  constructor
  · intro found
    split at found
    · rename_i callerHash calleeHash callerFound calleeFound
      obtain ⟨caller, callerMember, callerId, rfl⟩ :=
        get?_idToHash.mp callerFound
      obtain ⟨callee, calleeMember, calleeId, rfl⟩ :=
        get?_idToHash.mp calleeFound
      exact ⟨caller, callerMember, callee, calleeMember, callerId, calleeId,
        (Option.some.inj found).symm⟩
    · cases found
  · rintro ⟨caller, callerMember, callee, calleeMember, callerId, calleeId,
      rfl⟩
    have callerFound :=
      get?_idToHash.mpr ⟨caller, callerMember, callerId, rfl⟩
    have calleeFound :=
      get?_idToHash.mpr ⟨callee, calleeMember, calleeId, rfl⟩
    simp only [callerFound, calleeFound]

theorem mem_edgePayloads_iff :
    payload ∈ edgePayloads graph ↔
      ∃ edge ∈ graph.edges,
        edgePayload (idToHash graph) edge = some payload :=
  List.mem_filterMap

theorem edgePayload_plain (member : payload ∈ edgePayloads graph) :
    ('|' ∉ payload.callerHash.toList ∧ '|' ∉ payload.calleeHash.toList) ∧
      '\\' ∉ payload.callSiteFile.toList := by
  obtain ⟨edge, _, found⟩ := mem_edgePayloads_iff.mp member
  obtain ⟨caller, _, callee, _, _, _, rfl⟩ :=
    edgePayload_eq_some_iff.mp found
  exact ⟨⟨not_mem_structuralHash _, not_mem_structuralHash _⟩,
    not_mem_slashed _⟩

/-- Everything which committing a graph hashes. -/
def hashInputs (graph : CallGraph) : List String :=
  (nodePayloads graph).map nodeHashInput ++
    (edgePayloads graph).map edgeHashInput ++
    [hierarchyHashInput graph.hierarchy]

/-- Distinct members of a list of inputs have distinct hashes. -/
def CollisionFree (inputs : List String) : Prop :=
  ∀ left ∈ inputs, ∀ right ∈ inputs,
    structuralHash left = structuralHash right → left = right

instance (inputs : List String) : Decidable (CollisionFree inputs) :=
  inferInstanceAs (Decidable (∀ left ∈ inputs, ∀ right ∈ inputs,
    structuralHash left = structuralHash right → left = right))

/--
Every stored payload lies under its own hash and was interned for a node or an
edge of one of the committed graphs.
-/
structure Provenance (graphs : List CallGraph)
    (store : PersistentGraphStore) : Prop where
  nodes :
    ∀ hash payload, store.nodes.get? hash = some payload →
      hashNodePayload payload = hash ∧
        ∃ graph ∈ graphs, payload ∈ nodePayloads graph
  edges :
    ∀ hash payload, store.edges.get? hash = some payload →
      hashEdgePayload payload = hash ∧
        ∃ graph ∈ graphs, payload ∈ edgePayloads graph

theorem get?_interned {β : Type} (hashOf : β → String)
    (map : OrderedMap String β) (payloads : List β) (hash : String) :
    (map.setAllNew
        (payloads.map fun payload => (hashOf payload, payload))).get? hash =
      (map.get? hash).or
        (payloads.find? fun payload => decide (hashOf payload = hash)) := by
  rw [OrderedMap.get?_setAllNew, List.find?_map]
  congr 1
  rw [Option.map_map]
  exact Option.map_id'

theorem mem_of_get?_interned {β : Type} {hashOf : β → String}
    {map : OrderedMap String β} {payloads : List β} {hash : String}
    {payload : β}
    (found :
      (map.setAllNew
        (payloads.map fun payload => (hashOf payload, payload))).get? hash =
        some payload) :
    map.get? hash = some payload ∨
      payload ∈ payloads ∧ hashOf payload = hash := by
  rw [get?_interned] at found
  cases stored : map.get? hash with
  | some old =>
    rw [stored, Option.some_or] at found
    exact Or.inl found
  | none =>
    rw [stored, Option.none_or] at found
    exact Or.inr
      ⟨List.mem_of_find?_eq_some found, by simpa using List.find?_some found⟩

section Commit

variable (sha256 : String → String)

variable {store : PersistentGraphStore} {hash : String}

theorem commit_nodes_sub {request : CommitRequest}
    {payload : StoredNodePayload}
    (found : (commit sha256 store request).nodes.get? hash = some payload) :
    (internGraph store request.graph).nodes.get? hash = some payload := by
  change ((internGraph store request.graph).nodes.filterKeys _).get? hash =
    some payload at found
  rw [OrderedMap.get?_filterKeys] at found
  split at found
  · exact found
  · cases found

theorem commit_edges_sub {request : CommitRequest}
    {payload : StoredEdgePayload}
    (found : (commit sha256 store request).edges.get? hash = some payload) :
    (internGraph store request.graph).edges.get? hash = some payload := by
  change ((internGraph store request.graph).edges.filterKeys _).get? hash =
    some payload at found
  rw [OrderedMap.get?_filterKeys] at found
  split at found
  · exact found
  · cases found

theorem Provenance.commit {graphs : List CallGraph}
    (provenance : Provenance graphs store) (request : CommitRequest) :
    Provenance (graphs ++ [request.graph])
      (Calls.commit sha256 store request) where
  nodes := by
    intro hash payload found
    rcases mem_of_get?_interned (commit_nodes_sub sha256 found) with
      stored | ⟨member, hashed⟩
    · obtain ⟨hashed, graph, graphMember, member⟩ :=
        provenance.nodes hash payload stored
      exact ⟨hashed, graph, List.mem_append_left _ graphMember, member⟩
    · exact ⟨hashed, request.graph, by simp, member⟩
  edges := by
    intro hash payload found
    rcases mem_of_get?_interned (commit_edges_sub sha256 found) with
      stored | ⟨member, hashed⟩
    · obtain ⟨hashed, graph, graphMember, member⟩ :=
        provenance.edges hash payload stored
      exact ⟨hashed, graph, List.mem_append_left _ graphMember, member⟩
    · exact ⟨hashed, request.graph, by simp, member⟩

theorem run_provenance {graphs : List CallGraph}
    (provenance : Provenance graphs store) (requests : List CommitRequest) :
    Provenance (graphs ++ requests.map (·.graph))
      (Run.run (Calls.commit sha256) store requests) := by
  induction requests generalizing graphs store with
  | nil => simpa using provenance
  | cons request rest inductionHypothesis =>
    have step := inductionHypothesis (provenance.commit sha256 request)
    simpa using step

theorem createPersistentStore_provenance (maxVersions : Option Nat) :
    Provenance [] (createPersistentStore maxVersions) where
  nodes := by
    intro hash payload found
    cases found
  edges := by
    intro hash payload found
    cases found

theorem get?_dropOldVersions_current (maxVersions : Nat) (id : String)
    (order : List String) (versions : OrderedMap String GraphVersionMeta) :
    (dropOldVersions maxVersions (some id) order versions).2.get? id =
      versions.get? id := by
  induction order generalizing versions with
  | nil => rfl
  | cons old rest inductionHypothesis =>
    rw [dropOldVersions]
    split
    · rw [inductionHypothesis]
      split
      · rename_i other
        have different : old ≠ id := fun same => other.2 (by rw [same])
        simp [different]
      · rfl
    · rfl

theorem commit_get?_new (store : PersistentGraphStore)
    (request : CommitRequest) :
    (commit sha256 store request).versions.get?
        (versionIdOf sha256 request) =
      some (versionMeta sha256 store request) := by
  have kept := get?_dropOldVersions_current store.maxVersions
    (versionIdOf sha256 request)
    (store.versionOrder ++ [versionIdOf sha256 request])
    (store.versions.set (versionIdOf sha256 request)
      (versionMeta sha256 store request))
  rw [OrderedMap.get?_set_self] at kept
  exact kept

theorem materializeVersion_commit (store : PersistentGraphStore)
    (request : CommitRequest) :
    materializeVersion (commit sha256 store request)
        (some (versionIdOf sha256 request)) =
      .ok (materializeMeta (commit sha256 store request)
        (versionMeta sha256 store request)) := by
  simp [materializeVersion, versionIdOf_ne_empty,
    commit_get?_new sha256 store request]

theorem commit_get?_node (store : PersistentGraphStore)
    (request : CommitRequest) (live : hash ∈ uniqueNodes request.graph) :
    (commit sha256 store request).nodes.get? hash =
      (internGraph store request.graph).nodes.get? hash := by
  have retained :
      versionMeta sha256 store request ∈
        (commit sha256 store request).versions.values :=
    (OrderedMap.mem_values_iff _ _).mpr
      ⟨_, commit_get?_new sha256 store request⟩
  refine (OrderedMap.get?_filterKeys _ _ _).trans (if_pos ?_)
  exact decide_eq_true
    (List.mem_flatMap.mpr ⟨_, retained, live⟩)

theorem commit_get?_edge (store : PersistentGraphStore)
    (request : CommitRequest) (live : hash ∈ uniqueEdges request.graph) :
    (commit sha256 store request).edges.get? hash =
      (internGraph store request.graph).edges.get? hash := by
  have retained :
      versionMeta sha256 store request ∈
        (commit sha256 store request).versions.values :=
    (OrderedMap.mem_values_iff _ _).mpr
      ⟨_, commit_get?_new sha256 store request⟩
  refine (OrderedMap.get?_filterKeys _ _ _).trans (if_pos ?_)
  exact decide_eq_true
    (List.mem_flatMap.mpr ⟨_, retained, live⟩)

end Commit

/-! ## Reproduction -/

/-- What an edge says about a call, without its identifier. -/
structure EdgeContent where
  callerId : String
  calleeId : String
  callSiteFile : String
  callSiteLine : Nat
  resolution : CallResolution
  confidence : CallEdgeConfidence
  virtual : Bool

/-- The content of an edge. -/
def edgeContent (edge : CallEdge) : EdgeContent where
  callerId := edge.callerId
  calleeId := edge.calleeId
  callSiteFile := edge.callSiteFile
  callSiteLine := edge.callSiteLine
  resolution := edge.resolution
  confidence := edge.confidence
  virtual := edge.virtual

/-- The call site of an edge lies inside its caller. -/
def CallSiteInside (graph : CallGraph) (edge : CallEdge) : Prop :=
  ∃ caller, graph.nodes.get? edge.callerId = some caller ∧
    caller.lineStart ≤ edge.callSiteLine ∧
      edge.callSiteLine ≤ caller.lineEnd

/-- A materialised graph has exactly the content of a graph. -/
structure Reproduces (graph materialised : CallGraph) : Prop where
  nodes : ∀ id, materialised.nodes.get? id = graph.nodes.get? id
  edges :
    materialised.edges.map edgeContent = graph.edges.map edgeContent
  callSites :
    ∀ edge ∈ graph.edges, CallSiteInside graph edge →
      ∀ other ∈ materialised.edges, edgeContent other = edgeContent edge →
        CallSiteInside materialised other

/-- Each node of a graph finds its own payload under its hash. -/
structure NodesFaithful (store : PersistentGraphStore)
    (graph : CallGraph) : Prop where
  canonical : ∀ node ∈ graph.nodes.values, CanonicalNode node
  unshifted :
    ∀ node ∈ graph.nodes.values, ∀ payload,
      store.nodes.get? (nodeHash node) = some payload →
        payload = functionNodeToPayload node
  separate :
    ∀ left ∈ graph.nodes.values, ∀ right ∈ graph.nodes.values,
      nodeHash left = nodeHash right → left = right

/-- Each edge of a graph joins nodes, once, at a slashed path. -/
structure EdgesFaithful (graph : CallGraph) : Prop where
  attached :
    ∀ edge ∈ graph.edges, edge.callerId ∈ graph.nodes.ids ∧
      edge.calleeId ∈ graph.nodes.ids ∧ '\\' ∉ edge.callSiteFile.toList
  distinct : (graph.edges.map edgeContent).Nodup

section Reproduction

variable (sha256 : String → String)

/-- The graph materialised from the version just committed. -/
def materialisedCommit (store : PersistentGraphStore)
    (request : CommitRequest) : CallGraph :=
  materializeMeta (commit sha256 store request)
    (versionMeta sha256 store request)

variable {hash : String} {store : PersistentGraphStore}
  {request : CommitRequest} {node : FunctionNode} {graphs : List CallGraph}
  {edge : CallEdge}

theorem mem_uniqueNodes_iff :
    hash ∈ uniqueNodes graph ↔
      ∃ node ∈ graph.nodes.values, nodeHash node = hash := by
  simp only [uniqueNodes, mem_uniq, nodePayloads, List.map_map,
    List.mem_map, Function.comp_apply, nodeHash]

theorem NodesFaithful.get?_node
    (faithful : NodesFaithful store request.graph)
    (member : node ∈ request.graph.nodes.values) :
    (commit sha256 store request).nodes.get? (nodeHash node) =
      some (functionNodeToPayload node) := by
  have live := mem_uniqueNodes_iff.mpr ⟨node, member, rfl⟩
  rw [commit_get?_node sha256 store request live]
  have present : ∃ payload,
      (internGraph store request.graph).nodes.get? (nodeHash node) =
        some payload :=
    (OrderedMap.mem_keys_iff _ _).mp
      ((OrderedMap.mem_keys_setAllNew _ _ _).mpr (Or.inr (by
        rw [List.map_map, List.mem_map]
        exact ⟨_, List.mem_map.mpr ⟨node, member, rfl⟩, rfl⟩)))
  obtain ⟨payload, found⟩ := present
  rw [found]
  rcases mem_of_get?_interned found with stored | ⟨listed, hashed⟩
  · rw [faithful.unshifted node member payload stored]
  · obtain ⟨other, otherMember, rfl⟩ := List.mem_map.mp listed
    rw [faithful.separate other otherMember node member hashed]

theorem NodesFaithful.storedNodes_eq
    (faithful : NodesFaithful store request.graph) :
    storedNodes (commit sha256 store request)
        (versionMeta sha256 store request) =
      request.graph.nodes.values.map fun node => (nodeHash node, node) := by
  have distinct :
      (request.graph.nodes.values.map nodeHash).Nodup :=
    request.graph.nodes.nodup_values.map_on
      fun left leftMember right rightMember same =>
        faithful.separate left leftMember right rightMember same
  have hashes :
      uniqueNodes request.graph =
        request.graph.nodes.values.map nodeHash := by
    rw [uniqueNodes, nodePayloads, List.map_map]
    exact uniq_eq_self distinct
  change (uniqueNodes request.graph).filterMap _ = _
  rw [hashes, List.filterMap_map, ← List.filterMap_eq_map]
  apply List.filterMap_congr
  intro node member
  simp only [Function.comp_apply, faithful.get?_node sha256 member,
    Option.map_some,
    payloadToNode_functionNodeToPayload (faithful.canonical node member)]

theorem mem_storedNodes {version : GraphVersionMeta}
    (member : (hash, node) ∈ storedNodes store version) :
    hash ∈ version.nodeHashes ∧ ∃ payload,
      store.nodes.get? hash = some payload ∧
        payloadToNode payload = node := by
  obtain ⟨other, listed, found⟩ := List.mem_filterMap.mp member
  obtain ⟨payload, stored, pair⟩ := Option.map_eq_some_iff.mp found
  cases pair
  exact ⟨listed, payload, stored, rfl⟩

theorem get?_node_of_reproduced (provenance : Provenance graphs store)
    (reproduced : (materialisedCommit sha256 store request).nodes.get?
      node.id = some node) :
    CanonicalNode node ∧
      (commit sha256 store request).nodes.get? (nodeHash node) =
        some (functionNodeToPayload node) := by
  have read := (NodeTable.mem_of_get?_insertAll reproduced).1
  obtain ⟨entry, entryMember, rfl⟩ := List.mem_map.mp read
  obtain ⟨_, payload, stored, same⟩ := mem_storedNodes entryMember
  obtain ⟨hashed, graph, _, listed⟩ :=
    (provenance.commit sha256 request).nodes _ _ stored
  obtain ⟨origin, _, rfl⟩ := List.mem_map.mp listed
  rw [← same]
  refine ⟨canonicalNode_payloadToNode origin, ?_⟩
  rw [nodeHash, functionNodeToPayload_payloadToNode, hashed]
  exact stored

theorem nodes_reproduced_iff (request : CommitRequest)
    (provenance : Provenance graphs store) :
    (∀ id, (materialisedCommit sha256 store request).nodes.get? id =
        request.graph.nodes.get? id) ↔
      NodesFaithful store request.graph := by
  constructor
  · intro reproduced
    have found : ∀ node ∈ request.graph.nodes.values,
        CanonicalNode node ∧
          (commit sha256 store request).nodes.get? (nodeHash node) =
            some (functionNodeToPayload node) := by
      intro node member
      refine get?_node_of_reproduced sha256 provenance ?_
      rw [reproduced]
      exact (NodeTable.mem_values_iff _ _).mp member
    refine ⟨fun node member => (found node member).1, ?_, ?_⟩
    · intro node member payload stored
      have kept := commit_nodes_sub sha256 (found node member).2
      change (store.nodes.setAllNew _).get? _ = _ at kept
      rw [OrderedMap.get?_setAllNew, stored, Option.some_or] at kept
      exact Option.some.inj kept
    · intro left leftMember right rightMember same
      obtain ⟨leftCanonical, leftFound⟩ := found left leftMember
      obtain ⟨rightCanonical, rightFound⟩ := found right rightMember
      rw [same, rightFound] at leftFound
      rw [← payloadToNode_functionNodeToPayload leftCanonical,
        ← payloadToNode_functionNodeToPayload rightCanonical,
        Option.some.inj leftFound]
  · intro faithful id
    have read :
        (materialisedCommit sha256 store request).nodes =
          (∅ : NodeTable).insertAll request.graph.nodes.values := by
      change (∅ : NodeTable).insertAll (List.map Prod.snd _) = _
      rw [faithful.storedNodes_eq sha256, List.map_map]
      exact congrArg _ (List.map_id' _)
    apply Option.ext
    intro node
    rw [read,
      NodeTable.get?_insertAll_iff request.graph.nodes.nodup_values_ids,
      NodeTable.mem_values_iff]
    constructor
    · rintro ⟨found, rfl⟩
      exact found
    · intro found
      have keyed := NodeTable.id_of_get? found
      exact ⟨keyed.symm ▸ found, keyed⟩

/-- Identifiers of a graph's nodes under their hashes. -/
def runtimeIds (graph : CallGraph) : OrderedMap String String :=
  OrderedMap.ofList
    (graph.nodes.values.map fun node => (nodeHash node, node.id))

theorem NodesFaithful.get?_runtimeIds (faithful : NodesFaithful store graph)
    {id : String} :
    (runtimeIds graph).get? hash = some id ↔
      ∃ node ∈ graph.nodes.values, nodeHash node = hash ∧ node.id = id := by
  rw [runtimeIds, OrderedMap.get?_ofList_of_nodup]
  · simp only [List.mem_map, Prod.mk.injEq]
  · rw [List.map_map]
    exact graph.nodes.nodup_values.map_on
      fun left leftMember right rightMember same =>
        faithful.separate left leftMember right rightMember same

theorem NodesFaithful.runtimeIds_inj (faithful : NodesFaithful store graph)
    {left right id : String}
    (leftFound : (runtimeIds graph).get? left = some id)
    (rightFound : (runtimeIds graph).get? right = some id) : left = right := by
  obtain ⟨node, nodeMember, rfl, rfl⟩ :=
    faithful.get?_runtimeIds.mp leftFound
  obtain ⟨other, otherMember, rfl, same⟩ :=
    faithful.get?_runtimeIds.mp rightFound
  rw [List.inj_on_of_nodup_map graph.nodes.nodup_values_ids otherMember
    nodeMember same]

theorem payloadToEdge_eq_some {ids : OrderedMap String String}
    (found : payloadToEdge ids payload = some edge) :
    ids.get? payload.callerHash = some edge.callerId ∧
      ids.get? payload.calleeHash = some edge.calleeId ∧
      edgeContent edge =
        { callerId := edge.callerId
          calleeId := edge.calleeId
          callSiteFile := payload.callSiteFile
          callSiteLine := payload.callSiteLine
          resolution := payload.resolution
          confidence := payload.confidence
          virtual := payload.virtual } := by
  unfold payloadToEdge at found
  split at found
  · rename_i callerId calleeId callerFound calleeFound
    cases found
    exact ⟨callerFound, calleeFound, rfl⟩
  · cases found

theorem NodesFaithful.materialised_edges
    (faithful : NodesFaithful store request.graph) :
    (materialisedCommit sha256 store request).edges =
      (uniqueEdges request.graph).filterMap fun hash =>
        ((commit sha256 store request).edges.get? hash).bind
          (payloadToEdge (runtimeIds request.graph)) := by
  have ids : OrderedMap.ofList
      ((storedNodes (commit sha256 store request)
        (versionMeta sha256 store request)).map fun entry =>
          (entry.1, entry.2.id)) = runtimeIds request.graph := by
    rw [faithful.storedNodes_eq sha256, List.map_map, runtimeIds]
    rfl
  rw [← ids]
  rfl

theorem NodesFaithful.edge_roundTrip (faithful : NodesFaithful store graph)
    (caller : edge.callerId ∈ graph.nodes.ids)
    (callee : edge.calleeId ∈ graph.nodes.ids)
    (plain : '\\' ∉ edge.callSiteFile.toList) :
    ∃ payload, edgePayload (idToHash graph) edge = some payload ∧
      ∃ read, payloadToEdge (runtimeIds graph) payload = some read ∧
        edgeContent read = edgeContent edge := by
  obtain ⟨callerNode, callerMember, callerId⟩ :=
    (NodeTable.mem_ids_iff_values _ _).mp caller
  obtain ⟨calleeNode, calleeMember, calleeId⟩ :=
    (NodeTable.mem_ids_iff_values _ _).mp callee
  refine ⟨_, edgePayload_eq_some_iff.mpr
    ⟨callerNode, callerMember, calleeNode, calleeMember, callerId,
      calleeId, rfl⟩, ?_⟩
  have callerFound : (runtimeIds graph).get? (nodeHash callerNode) =
      some edge.callerId :=
    faithful.get?_runtimeIds.mpr ⟨callerNode, callerMember, rfl, callerId⟩
  have calleeFound : (runtimeIds graph).get? (nodeHash calleeNode) =
      some edge.calleeId :=
    faithful.get?_runtimeIds.mpr ⟨calleeNode, calleeMember, rfl, calleeId⟩
  simp only [payloadToEdge, callerFound, calleeFound, Option.some.injEq,
    exists_eq_left', edgeContent, slashed_eq_self plain]

theorem edgePayload_of_hash
    (collisionFree : CollisionFree (graphs.flatMap hashInputs))
    {leftGraph rightGraph : CallGraph} {left right : StoredEdgePayload}
    (leftGraphMember : leftGraph ∈ graphs)
    (rightGraphMember : rightGraph ∈ graphs)
    (leftMember : left ∈ edgePayloads leftGraph)
    (rightMember : right ∈ edgePayloads rightGraph)
    (same : hashEdgePayload left = hashEdgePayload right) : left = right := by
  have input : ∀ {graph : CallGraph} {payload : StoredEdgePayload},
      graph ∈ graphs → payload ∈ edgePayloads graph →
        edgeHashInput payload ∈ graphs.flatMap hashInputs := by
    intro graph payload graphMember member
    refine List.mem_flatMap.mpr ⟨graph, graphMember, ?_⟩
    refine List.mem_append_left _ (List.mem_append_right _ ?_)
    exact List.mem_map.mpr ⟨payload, member, rfl⟩
  exact edgeHashInput_inj (edgePayload_plain leftMember).1
    (edgePayload_plain rightMember).1
    (collisionFree _ (input leftGraphMember leftMember) _
      (input rightGraphMember rightMember) same)

theorem commit_get?_edgePayload (provenance : Provenance graphs store)
    (collisionFree : CollisionFree ((graphs ++ [request.graph]).flatMap
      hashInputs)) (member : payload ∈ edgePayloads request.graph) :
    (commit sha256 store request).edges.get? (hashEdgePayload payload) =
      some payload := by
  have live : hashEdgePayload payload ∈ uniqueEdges request.graph := by
    rw [uniqueEdges, mem_uniq]
    exact List.mem_map.mpr ⟨payload, member, rfl⟩
  obtain ⟨stored, found⟩ : ∃ stored,
      (internGraph store request.graph).edges.get?
        (hashEdgePayload payload) = some stored :=
    (OrderedMap.mem_keys_iff _ _).mp
      ((OrderedMap.mem_keys_setAllNew _ _ _).mpr (Or.inr (by
        rw [List.map_map, List.mem_map]
        exact ⟨payload, member, rfl⟩)))
  have kept := commit_get?_edge sha256 store request live
  rw [found] at kept
  obtain ⟨hashed, graph, graphMember, listed⟩ :=
    (provenance.commit sha256 request).edges _ _ kept
  rw [kept, edgePayload_of_hash collisionFree graphMember
    (by simp) listed member hashed]

theorem map_filterMap_eq {α β γ : Type} {select : α → Option β}
    {after : β → γ} {direct : α → γ} {items : List α}
    (total :
      ∀ item ∈ items, ∃ result, select item = some result ∧
        after result = direct item) :
    (items.filterMap select).map after = items.map direct := by
  induction items with
  | nil => rfl
  | cons item rest inductionHypothesis =>
    obtain ⟨result, selected, same⟩ := total item (by simp)
    rw [List.filterMap_cons_some selected, List.map_cons, List.map_cons,
      same, inductionHypothesis fun other member =>
        total other (by simp [member])]

theorem edges_reproduced (provenance : Provenance graphs store)
    (collisionFree : CollisionFree ((graphs ++ [request.graph]).flatMap
      hashInputs)) (faithful : NodesFaithful store request.graph)
    (edgesFaithful : EdgesFaithful request.graph) :
    (materialisedCommit sha256 store request).edges.map edgeContent =
      request.graph.edges.map edgeContent := by
  have roundTrip : ∀ edge ∈ request.graph.edges, ∃ payload,
      edgePayload (idToHash request.graph) edge = some payload ∧
        ∃ read, payloadToEdge (runtimeIds request.graph) payload =
            some read ∧ edgeContent read = edgeContent edge := by
    intro edge member
    obtain ⟨caller, callee, plain⟩ := edgesFaithful.attached edge member
    exact faithful.edge_roundTrip caller callee plain
  have payloadContents :
      (edgePayloads request.graph).map (fun payload =>
          (payloadToEdge (runtimeIds request.graph) payload).map
            edgeContent) =
        request.graph.edges.map fun edge => some (edgeContent edge) := by
    refine map_filterMap_eq fun edge member => ?_
    obtain ⟨payload, stored, read, found, same⟩ := roundTrip edge member
    exact ⟨payload, stored, by rw [found, Option.map_some, same]⟩
  have payloadsDistinct : (edgePayloads request.graph).Nodup := by
    have wrapped := edgesFaithful.distinct.map (Option.some_injective _)
    rw [List.map_map] at wrapped
    exact List.Nodup.of_map _ (payloadContents.symm ▸ wrapped)
  have hashes :
      uniqueEdges request.graph =
        (edgePayloads request.graph).map hashEdgePayload :=
    uniq_eq_self (payloadsDistinct.map_on
      fun left leftMember right rightMember same =>
        edgePayload_of_hash collisionFree (by simp) (by simp) leftMember
          rightMember same)
  have read :
      (materialisedCommit sha256 store request).edges =
        (edgePayloads request.graph).filterMap
          (payloadToEdge (runtimeIds request.graph)) := by
    rw [faithful.materialised_edges sha256, hashes, List.filterMap_map]
    apply List.filterMap_congr
    intro payload member
    simp only [Function.comp_apply,
      commit_get?_edgePayload sha256 provenance collisionFree member,
      Option.bind_some]
  rw [read, edgePayloads, List.filterMap_filterMap]
  refine map_filterMap_eq fun edge member => ?_
  obtain ⟨payload, stored, result, found, same⟩ := roundTrip edge member
  exact ⟨result, by rw [stored, Option.bind_some, found], same⟩

theorem NodesFaithful.mem_materialised_edges
    (provenance : Provenance graphs store)
    (faithful : NodesFaithful store request.graph)
    (member : edge ∈ (materialisedCommit sha256 store request).edges) :
    ∃ payload, payloadToEdge (runtimeIds request.graph) payload =
        some edge ∧ '\\' ∉ payload.callSiteFile.toList := by
  rw [faithful.materialised_edges sha256, List.mem_filterMap] at member
  obtain ⟨hash, _, found⟩ := member
  obtain ⟨payload, stored, read⟩ := Option.bind_eq_some_iff.mp found
  obtain ⟨_, graph, _, listed⟩ :=
    (provenance.commit sha256 request).edges _ _ stored
  exact ⟨payload, read, (edgePayload_plain listed).2⟩

theorem NodesFaithful.materialised_distinct
    (provenance : Provenance graphs store)
    (faithful : NodesFaithful store request.graph) :
    ((materialisedCommit sha256 store request).edges.map
      edgeContent).Nodup := by
  rw [faithful.materialised_edges sha256, List.map_filterMap]
  refine List.Nodup.filterMap ?_ (nodup_uniq _)
  intro left right content leftContent rightContent
  have stored : ∀ {hash : String},
      content ∈ Option.map edgeContent
        (((commit sha256 store request).edges.get? hash).bind
          (payloadToEdge (runtimeIds request.graph))) →
      ∃ payload, hashEdgePayload payload = hash ∧
        (runtimeIds request.graph).get? payload.callerHash =
          some content.callerId ∧
        (runtimeIds request.graph).get? payload.calleeHash =
          some content.calleeId ∧
        content =
          { callerId := content.callerId
            calleeId := content.calleeId
            callSiteFile := payload.callSiteFile
            callSiteLine := payload.callSiteLine
            resolution := payload.resolution
            confidence := payload.confidence
            virtual := payload.virtual } := by
    intro hash contained
    obtain ⟨edge, read, rfl⟩ := Option.map_eq_some_iff.mp contained
    obtain ⟨payload, found, edgeRead⟩ := Option.bind_eq_some_iff.mp read
    obtain ⟨caller, callee, shape⟩ := payloadToEdge_eq_some edgeRead
    exact ⟨payload,
      ((provenance.commit sha256 request).edges _ _ found).1,
      caller, callee, shape⟩
  obtain ⟨leftPayload, leftHash, leftCaller, leftCallee, leftShape⟩ :=
    stored leftContent
  obtain ⟨rightPayload, rightHash, rightCaller, rightCallee, rightShape⟩ :=
    stored rightContent
  have caller := faithful.runtimeIds_inj leftCaller rightCaller
  have callee := faithful.runtimeIds_inj leftCallee rightCallee
  have contents := leftShape.symm.trans rightShape
  simp only [EdgeContent.mk.injEq, true_and] at contents
  obtain ⟨file, line, resolution, confidence, flag⟩ := contents
  have same : leftPayload = rightPayload := by
    cases leftPayload
    cases rightPayload
    simp only at caller callee file line resolution confidence flag
    rw [caller, callee, file, line, resolution, confidence, flag]
  rw [← leftHash, ← rightHash, same]

theorem edges_reproduced_iff (request : CommitRequest)
    (provenance : Provenance graphs store)
    (collisionFree : CollisionFree ((graphs ++ [request.graph]).flatMap
      hashInputs)) (faithful : NodesFaithful store request.graph) :
    (materialisedCommit sha256 store request).edges.map edgeContent =
        request.graph.edges.map edgeContent ↔
      EdgesFaithful request.graph := by
  constructor
  · intro reproduced
    refine ⟨?_, ?_⟩
    · intro edge member
      have content :
          edgeContent edge ∈
            (materialisedCommit sha256 store request).edges.map
              edgeContent := by
        rw [reproduced]
        exact List.mem_map.mpr ⟨edge, member, rfl⟩
      obtain ⟨read, readMember, same⟩ := List.mem_map.mp content
      obtain ⟨payload, found, plain⟩ :=
        faithful.mem_materialised_edges sha256 provenance readMember
      obtain ⟨caller, callee, shape⟩ := payloadToEdge_eq_some found
      rw [shape] at same
      simp only [edgeContent, EdgeContent.mk.injEq] at same
      obtain ⟨callerId, calleeId, file, _⟩ := same
      obtain ⟨callerNode, callerMember, _, callerNodeId⟩ :=
        faithful.get?_runtimeIds.mp caller
      obtain ⟨calleeNode, calleeMember, _, calleeNodeId⟩ :=
        faithful.get?_runtimeIds.mp callee
      refine ⟨(NodeTable.mem_ids_iff_values _ _).mpr
          ⟨callerNode, callerMember, callerNodeId.trans callerId⟩,
        (NodeTable.mem_ids_iff_values _ _).mpr
          ⟨calleeNode, calleeMember, calleeNodeId.trans calleeId⟩, ?_⟩
      rw [← file]
      exact plain
    · rw [← reproduced]
      exact faithful.materialised_distinct sha256 provenance
  · exact edges_reproduced sha256 provenance collisionFree faithful

theorem reproduces_of_content {materialised : CallGraph}
    (nodes : ∀ id, materialised.nodes.get? id = graph.nodes.get? id)
    (edges : materialised.edges.map edgeContent = graph.edges.map
      edgeContent) :
    Reproduces graph materialised where
  nodes := nodes
  edges := edges
  callSites := by
    rintro edge _ ⟨caller, found, first, last⟩ other _ same
    simp only [edgeContent, EdgeContent.mk.injEq] at same
    refine ⟨caller, ?_, ?_, ?_⟩
    · rw [nodes, same.1]
      exact found
    · rw [same.2.2.2.1]
      exact first
    · rw [same.2.2.2.1]
      exact last

/--
After any run of commits, a further commit is materialised with exactly the
content of its graph if and only if its nodes are faithful to the store and
its edges are faithful to its nodes, provided that no two distinct texts
hashed by the commits collide.
-/
theorem materializeVersion_commit_iff
    (maxVersions : Option Nat) (requests : List CommitRequest)
    (request : CommitRequest)
    (collisionFree :
      CollisionFree
        (((requests ++ [request]).map (·.graph)).flatMap hashInputs)) :
    let store :=
      Run.run (commit sha256) (createPersistentStore maxVersions) requests
    (∃ materialised,
      materializeVersion (commit sha256 store request)
          (some (versionIdOf sha256 request)) = .ok materialised ∧
        Reproduces request.graph materialised) ↔
      NodesFaithful store request.graph ∧ EdgesFaithful request.graph := by
  intro store
  have provenance : Provenance (requests.map (·.graph)) store := by
    simpa using run_provenance sha256
      (createPersistentStore_provenance maxVersions) requests
  rw [List.map_append] at collisionFree
  rw [materializeVersion_commit]
  constructor
  · rintro ⟨materialised, result, reproduces⟩
    cases result
    have faithful :=
      (nodes_reproduced_iff sha256 request provenance).mp reproduces.nodes
    exact ⟨faithful,
      (edges_reproduced_iff sha256 request provenance collisionFree
        faithful).mp reproduces.edges⟩
  · rintro ⟨faithful, edgesFaithful⟩
    refine ⟨_, rfl, reproduces_of_content ?_ ?_⟩
    · exact (nodes_reproduced_iff sha256 request provenance).mpr faithful
    · exact (edges_reproduced_iff sha256 request provenance collisionFree
        faithful).mpr edgesFaithful

end Reproduction

/-! ## A shifted function -/

/-- A function of three lines without changes to its body. -/
def shiftedNode (name : String) (line : Nat) : FunctionNode where
  id := nodeId "a.ts" name line
  qualifiedName := "a.ts:" ++ name
  name := name
  filePath := "a.ts"
  lineStart := line
  lineEnd := line + 2
  language := .typescript
  enclosingType := none
  isExternalApi := false
  isTest := false
  signature := none
  bodyHash := some "0f"

/-- A function which starts at a line and calls another from its body. -/
def shiftedGraph (line : Nat) : CallGraph where
  repoRoot := "/repo"
  algorithm := .hybrid
  nodes :=
    (∅ : NodeTable).insertAll [shiftedNode "f" line, shiftedNode "g" 20]
  edges :=
    [{ id := "1"
       callerId := nodeId "a.ts" "f" line
       calleeId := nodeId "a.ts" "g" 20
       callSiteFile := "a.ts"
       callSiteLine := line + 1
       resolution := .direct
       confidence := .high
       virtual := false }]
  outEdges := ∅
  inEdges := ∅
  byName := ∅
  hierarchy := emptyHierarchy
  stats := ⟨2, 1, 1, 0⟩

/-- A commit of the graph whose caller starts at a line. -/
def shiftedCommit (line now : Nat) : CommitRequest where
  graph := shiftedGraph line
  now := now
  createdAt := "1970-01-01T00:00:00.000Z"

/-- The characterisation on the first commit of a graph. -/
theorem materializeVersion_commit_iff_first :
    (∃ materialised,
      materializeVersion
          (commit fixedDigest (createPersistentStore none)
            (shiftedCommit 1 0))
          (some (versionIdOf fixedDigest (shiftedCommit 1 0))) =
        .ok materialised ∧
        Reproduces (shiftedGraph 1) materialised) ↔
      NodesFaithful (createPersistentStore none) (shiftedGraph 1) ∧
        EdgesFaithful (shiftedGraph 1) :=
  materializeVersion_commit_iff fixedDigest none [] (shiftedCommit 1 0)
    (by decide +kernel)

/--
A graph whose caller moved from line 1 to line 5 is materialised with the
caller's old lines, so that the call site of its edge, on line 6, lies outside
the caller.
-/
theorem shifted_commit_not_reproduced :
    let store :=
      Run.run (commit fixedDigest) (createPersistentStore none)
        [shiftedCommit 1 0]
    CollisionFree
        (hashInputs (shiftedGraph 1) ++ hashInputs (shiftedGraph 5)) ∧
      ∃ materialised,
        materializeVersion (commit fixedDigest store (shiftedCommit 5 1))
            (some (versionIdOf fixedDigest (shiftedCommit 5 1))) =
          .ok materialised ∧
        ¬ Reproduces (shiftedGraph 5) materialised ∧
        materialised.edges.map
            (fun edge => (edge.callerId, edge.callSiteLine)) =
          [("a.ts::f@1", 6)] ∧
        (materialised.nodes.get? "a.ts::f@1").map
            (fun node => (node.lineStart, node.lineEnd)) = some (1, 3) := by
  intro store
  refine ⟨by decide +kernel,
    materialisedCommit fixedDigest store (shiftedCommit 5 1),
    materializeVersion_commit fixedDigest store (shiftedCommit 5 1),
    ?_, by decide +kernel, by decide +kernel⟩
  intro reproduces
  have found := reproduces.nodes "a.ts::f@5"
  revert found
  decide +kernel

end Mendpoint.Calls
