import Mathlib.Data.List.Perm.Lattice
import Mendpoint.StructuralGraph.Extraction

/-!
# What falls between the lists of a diff

Checked extractions have distinct keys and identifiers, and the signature of
an edge says all of it but what is bound to the snapshot.  The diff of two
checked extractions is the mirror image of the diff the other way, every key
outside its lists is met by the same node with the same edges, and the
unlisted part of the one graph with the listed part of the other is the other
graph.
-/

namespace Mendpoint.StructuralGraph

open Mendpoint.Library
open Mendpoint.Library.Fallible
open Mendpoint.SoftwareGraph (eachAfter_eq_ok check_bind_eq_ok)

variable {host : Host} {extraction other before after : StructuralExtraction}
  {files : List String}

/-! ## Checked extractions -/

theorem ne_of_notMem_map {α β : Type} {read : α → β} {value : β}
    {items : List α} {item : α} (outside : value ∉ items.map read)
    (inside : item ∈ items) : value ≠ read item := by
  rintro rfl
  exact outside (List.mem_map_of_mem inside)

theorem notMem_map_of_ne {α β : Type} {read : α → β} {value : β}
    {items : List α} (apart : ∀ item ∈ items, value ≠ read item) :
    value ∉ items.map read := by
  intro member
  obtain ⟨item, inside, same⟩ := List.mem_map.mp member
  exact apart item inside same.symm

theorem checkNode_iff (seen : List StructuralNode) (node : StructuralNode) :
    checkNode host extraction files seen node = .ok () ↔
      checkNode host extraction files [] node = .ok () ∧
        ∀ earlier ∈ seen, node.id ≠ earlier.id ∧
          node.canonicalKey ≠ earlier.canonicalKey ∧
          node.provenance.upstream ≠ earlier.provenance.upstream := by
  simp only [checkNode, bind_eq_ok, throwIf_eq_ok, List.map_nil,
    List.not_mem_nil, false_or, not_or, not_not]
  constructor
  · rintro ⟨path, normal, _, label, _, name, lines, located, _, upstream,
      newId, newUpstream, newKey, valid⟩
    refine ⟨⟨path, normal, (), label, (), name, lines, located, (), upstream,
      valid⟩, ?_⟩
    intro earlier inside
    exact ⟨ne_of_notMem_map newId inside, ne_of_notMem_map newKey inside,
      fun same =>
        newUpstream (List.mem_map.mpr ⟨earlier, inside, same.symm⟩)⟩
  · rintro ⟨⟨path, normal, _, label, _, name, lines, located, _, upstream,
      valid⟩, apart⟩
    exact ⟨path, normal, (), label, (), name, lines, located, (), upstream,
      notMem_map_of_ne fun earlier inside => (apart earlier inside).1,
      notMem_map_of_ne fun earlier inside => (apart earlier inside).2.2,
      notMem_map_of_ne fun earlier inside => (apart earlier inside).2.1,
      valid⟩

theorem checkEdge_iff (seen : List StructuralEdge) (edge : StructuralEdge) :
    checkEdge host extraction files seen edge = .ok () ↔
      checkEdge host extraction files [] edge = .ok () ∧
        ∀ earlier ∈ seen, edge.id ≠ earlier.id := by
  simp only [checkEdge, bind_eq_ok, throwIf_eq_ok, List.map_nil,
    List.not_mem_nil, false_or, not_or, not_not]
  constructor
  · rintro ⟨path, normal, lines, located, _, relation, _, ⟨newId, joined⟩,
      valid⟩
    exact ⟨⟨path, normal, lines, located, (), relation, (), joined, valid⟩,
      fun earlier inside => ne_of_notMem_map newId inside⟩
  · rintro ⟨⟨path, normal, lines, located, _, relation, _, joined, valid⟩,
      apart⟩
    exact ⟨path, normal, lines, located, (), relation, (),
      ⟨notMem_map_of_ne apart, joined⟩, valid⟩

/-- What the checks of an extraction say of its nodes and edges. -/
structure Checked (host : Host) (extraction : StructuralExtraction) :
    Prop where
  ids : (extraction.nodes.map (·.id)).Nodup
  keys : (extraction.nodes.map (·.canonicalKey)).Nodup
  edgeIds : (extraction.edges.map (·.id)).Nodup
  node : ∀ node ∈ extraction.nodes, ∃ path,
    normalizePath node.filePath = .ok path ∧
      node.canonicalKey = expectedKey path node ∧
      isBound extraction path node.provenance
  edge : ∀ edge ∈ extraction.edges, ∃ path,
    normalizePath edge.sourceFile = .ok path ∧
      edge.sourceId ∈ extraction.nodes.map (·.id) ∧
      edge.targetId ∈ extraction.nodes.map (·.id) ∧
      edge.id = expectedEdgeId host extraction edge path edge.lineStart ∧
      isBound extraction path edge.provenance

theorem checked_of_integrity
    (integrity : assertStructuralExtractionIntegrity host extraction =
      .ok ()) : Checked host extraction := by
  rw [assertStructuralExtractionIntegrity, check_bind_eq_ok, bind_eq_ok]
    at integrity
  obtain ⟨_, files, _, others⟩ := integrity
  rw [check_bind_eq_ok, check_bind_eq_ok, eachAfter_eq_ok checkNode_iff,
    eachAfter_eq_ok checkEdge_iff] at others
  obtain ⟨⟨nodes, _, nodesApart⟩, ⟨edges, _, edgesApart⟩, _⟩ := others
  refine ⟨?_, ?_, ?_, ?_, ?_⟩
  · exact List.pairwise_map.mpr
      (nodesApart.imp fun apart same => apart.1 same.symm)
  · exact List.pairwise_map.mpr
      (nodesApart.imp fun apart same => apart.2.1 same.symm)
  · exact List.pairwise_map.mpr
      (edgesApart.imp fun apart same => apart same.symm)
  · intro node inside
    have checked := nodes node inside
    simp only [checkNode, bind_eq_ok, throwIf_eq_ok, List.map_nil,
      List.not_mem_nil, false_or, not_not] at checked
    obtain ⟨path, normal, _, _, _, _, _, _, _, _, keyed, _, _, bound, _⟩ :=
      checked
    exact ⟨path, normal, keyed, bound⟩
  · intro edge inside
    have checked := edges edge inside
    simp only [checkEdge, bind_eq_ok, throwIf_eq_ok, List.map_nil,
      List.not_mem_nil, false_or, not_not] at checked
    obtain ⟨path, normal, lines, _, _, _, _, ⟨source, target, identified⟩, _,
      _, _, _, bound, _, first, _⟩ := checked
    rw [← first] at identified
    exact ⟨path, normal, source, target, identified, bound⟩

/-! ## Tables of keys -/

theorem expectedKey_ne_empty (path : String) (node : StructuralNode) :
    expectedKey path node ≠ "" := by
  intro empty
  have lengths := congrArg String.length empty
  simp [expectedKey] at lengths

namespace Checked

theorem keyById_eq (checked : Checked host extraction) {id key : String} :
    (keyById extraction).get? id = some key ↔
      ∃ node ∈ extraction.nodes, node.id = id ∧ node.canonicalKey = key := by
  rw [keyById, OrderedMap.get?_ofList_of_nodup]
  · simp
  · rw [List.map_map]
    exact checked.ids

theorem byKey_eq (checked : Checked host extraction) {key : String}
    {node : StructuralNode} :
    (byKey extraction).get? key = some node ↔
      node ∈ extraction.nodes ∧ node.canonicalKey = key := by
  rw [byKey, OrderedMap.get?_ofList_of_nodup]
  · constructor
    · intro member
      obtain ⟨_, inside, same⟩ := List.mem_map.mp member
      cases same
      exact ⟨inside, rfl⟩
    · rintro ⟨inside, rfl⟩
      exact List.mem_map.mpr ⟨node, inside, rfl⟩
  · rw [List.map_map]
    exact checked.keys

end Checked

theorem mem_keys_byKey {key : String} :
    key ∈ (byKey extraction).keys ↔
      key ∈ extraction.nodes.map (·.canonicalKey) := by
  rw [byKey, OrderedMap.mem_keys_ofList, List.map_map]
  rfl

theorem mem_missingKeys {key : String} :
    key ∈ missingKeys extraction other ↔
      key ∈ extraction.nodes.map (·.canonicalKey) ∧
        key ∉ other.nodes.map (·.canonicalKey) := by
  rw [missingKeys, (Text.sortTexts_perm _).mem_iff, List.mem_filter,
    mem_keys_byKey, Bool.not_eq_true', ← Bool.not_eq_true, OrderedMap.has_iff,
    mem_keys_byKey]

theorem mem_changedKeys (first : Checked host before)
    (second : Checked host after) {key : String} :
    key ∈ changedKeys host before after ↔
      ∃ prior ∈ before.nodes, ∃ next ∈ after.nodes,
        prior.canonicalKey = key ∧ next.canonicalKey = key ∧
          nodeShape host prior ≠ nodeShape host next := by
  rw [changedKeys, (Text.sortTexts_perm _).mem_iff, List.mem_filter,
    mem_keys_byKey, isChanged]
  constructor
  · rintro ⟨_, changed⟩
    split at changed
    case h_1 prior next found foundNext =>
      obtain ⟨inside, keyed⟩ := first.byKey_eq.mp found
      obtain ⟨within, keyedNext⟩ := second.byKey_eq.mp foundNext
      exact ⟨prior, inside, next, within, keyed, keyedNext,
        of_decide_eq_true changed⟩
    case h_2 => exact absurd changed Bool.false_ne_true
  · rintro ⟨prior, inside, next, within, keyed, keyedNext, changed⟩
    rw [first.byKey_eq.mpr ⟨inside, keyed⟩,
      second.byKey_eq.mpr ⟨within, keyedNext⟩]
    exact ⟨keyed ▸ List.mem_map_of_mem inside, decide_eq_true changed⟩

theorem changedKeys_comm (first : Checked host before)
    (second : Checked host after) :
    changedKeys host before after = changedKeys host after before := by
  refine Text.sortTexts_eq_of_perm ((List.perm_ext_iff_of_nodup
    ((byKey before).nodup_keys.filter _)
    ((byKey after).nodup_keys.filter _)).mpr ?_)
  intro key
  have one : key ∈ changedKeys host before after ↔ _ :=
    mem_changedKeys first second
  have two : key ∈ changedKeys host after before ↔ _ :=
    mem_changedKeys second first
  rw [changedKeys, (Text.sortTexts_perm _).mem_iff] at one two
  rw [one, two]
  constructor
  · rintro ⟨prior, inside, next, within, keyed, keyedNext, changed⟩
    exact ⟨next, within, prior, inside, keyedNext, keyed, changed.symm⟩
  · rintro ⟨prior, inside, next, within, keyed, keyedNext, changed⟩
    exact ⟨next, within, prior, inside, keyedNext, keyed, changed.symm⟩

/-! ## Nodes and edges without what is bound to the snapshot -/

/-- A node without its identifiers and the time of the extraction. -/
def unboundNode (node : StructuralNode) : StructuralNode :=
  { node with
    id := ""
    provenance := { node.provenance with
      upstream := ""
      repositorySnapshotId := ""
      observedAt := "" } }

/-- An edge with canonical keys for the identifiers of its ends, without its
own identifier and the time of the extraction. -/
def unboundEdge (extraction : StructuralExtraction) (edge : StructuralEdge) :
    StructuralEdge :=
  { edge with
    id := ""
    sourceId := ((keyById extraction).get? edge.sourceId).getD ""
    targetId := ((keyById extraction).get? edge.targetId).getD ""
    provenance := { edge.provenance with
      repositorySnapshotId := ""
      observedAt := "" } }

theorem StructuralNodeKind.text_injective :
    Function.Injective StructuralNodeKind.text := by
  intro left right equal
  cases left <;> cases right <;>
    first | rfl | exact absurd equal (by decide)

theorem StructuralEdgeKind.text_injective :
    Function.Injective StructuralEdgeKind.text := by
  intro left right equal
  cases left <;> cases right <;>
    first | rfl | exact absurd equal (by decide)

theorem StructuralEpistemicState.text_injective :
    Function.Injective StructuralEpistemicState.text := by
  intro left right equal
  cases left <;> cases right <;>
    first | rfl | exact absurd equal (by decide)

theorem UpstreamConfidence.text_injective :
    Function.Injective UpstreamConfidence.text := by
  intro left right equal
  cases left <;> cases right <;>
    first | rfl | exact absurd equal (by decide)

theorem confidence_inj {left right : Option ℚ}
    (same : ((left.map Json.num).getD .null).sorted =
      ((right.map Json.num).getD .null).sorted) : left = right := by
  cases left with
  | none =>
    cases right with
    | none => rfl
    | some number => exact absurd same (by simp [Json.sorted])
  | some number =>
    cases right with
    | none => exact absurd same (by simp [Json.sorted])
    | some value => exact congrArg some (Json.num.inj same)

/-- Checked nodes are alike exactly when their shapes are. -/
theorem nodeShape_eq_iff (first : Checked host before)
    (second : Checked host after) {prior next : StructuralNode}
    (inside : prior ∈ before.nodes) (within : next ∈ after.nodes) :
    nodeShape host prior = nodeShape host next ↔
      unboundNode prior = unboundNode next := by
  obtain ⟨path, normal, keyed, _, _, located⟩ := first.node prior inside
  obtain ⟨pathNext, normalNext, keyedNext, _, _, locatedNext⟩ :=
    second.node next within
  constructor
  · intro same
    have values := Json.record_sorted_inj (by decide) rfl rfl
      (Json.canonical_eq_iff.mp same)
    simp only [List.map_cons, Option.map_some, Json.sorted, List.cons.injEq,
      Option.some.injEq, Json.str.injEq, Json.num.injEq, Json.bool.injEq,
      Nat.cast_inj] at values
    obtain ⟨kind, label, name, file, language, start, finish, test, state,
      confidence, location, _⟩ := values
    have paths : path = pathNext := by
      rw [file, normalNext] at normal
      exact (Except.ok.inj normal).symm
    have kinds := StructuralNodeKind.text_injective kind
    have keys : prior.canonicalKey = next.canonicalKey := by
      rw [keyed, keyedNext, expectedKey, expectedKey, paths, kinds, name]
    simp only [unboundNode, StructuralNode.mk.injEq,
      StructuralProvenance.mk.injEq, true_and, and_true]
    exact ⟨keys, kinds, label, name, file, language, start, finish, test,
      StructuralEpistemicState.text_injective state,
      UpstreamConfidence.text_injective confidence,
      by rw [located, locatedNext, paths], location⟩
  · intro same
    simp only [unboundNode, StructuralNode.mk.injEq,
      StructuralProvenance.mk.injEq, true_and, and_true] at same
    obtain ⟨_, kind, label, name, file, language, start, finish, test, state,
      confidence, _, location⟩ := same
    rw [nodeShape, nodeShape, kind, label, name, file, language, start,
      finish, test, state, confidence, location]

/-- The keys of the ends of a checked edge. -/
theorem Checked.ends (checked : Checked host extraction)
    {edge : StructuralEdge} (inside : edge ∈ extraction.edges) :
    ∃ source ∈ extraction.nodes, ∃ target ∈ extraction.nodes,
      source.id = edge.sourceId ∧ target.id = edge.targetId ∧
        (keyById extraction).get? edge.sourceId = some source.canonicalKey ∧
        (keyById extraction).get? edge.targetId =
          some target.canonicalKey := by
  obtain ⟨_, _, sourced, targeted, _⟩ := checked.edge edge inside
  obtain ⟨source, first, sourceId⟩ := List.mem_map.mp sourced
  obtain ⟨target, second, targetId⟩ := List.mem_map.mp targeted
  exact ⟨source, first, target, second, sourceId, targetId,
    checked.keyById_eq.mpr ⟨source, first, sourceId, rfl⟩,
    checked.keyById_eq.mpr ⟨target, second, targetId, rfl⟩⟩

/-- Checked edges are alike exactly when their signatures are. -/
theorem edgeSignature_eq_iff (first : Checked host before)
    (second : Checked host after) {prior next : StructuralEdge}
    (inside : prior ∈ before.edges) (within : next ∈ after.edges) :
    edgeSignature host (keyById before) prior =
        edgeSignature host (keyById after) next ↔
      unboundEdge before prior = unboundEdge after next := by
  obtain ⟨path, normal, _, _, _, _, _, located⟩ := first.edge prior inside
  obtain ⟨pathNext, normalNext, _, _, _, _, _, locatedNext⟩ :=
    second.edge next within
  obtain ⟨_, _, _, _, _, _, source, target⟩ := first.ends inside
  obtain ⟨_, _, _, _, _, _, sourceNext, targetNext⟩ := second.ends within
  constructor
  · intro same
    have values := Json.record_sorted_inj (by decide) rfl rfl
      (Json.canonical_eq_iff.mp same)
    simp only [source, target, sourceNext, targetNext, List.map_cons,
      Option.map_some, Json.sorted, List.cons.injEq, Option.some.injEq,
      Json.str.injEq, Json.num.injEq, Nat.cast_inj] at values
    obtain ⟨kind, sources, targets, file, start, finish, state, number,
      relation, confidence, location, _⟩ := values
    have paths : path = pathNext := by
      rw [file, normalNext] at normal
      exact (Except.ok.inj normal).symm
    simp only [unboundEdge, source, target, sourceNext, targetNext,
      Option.getD_some, StructuralEdge.mk.injEq,
      StructuralProvenance.mk.injEq, true_and, and_true]
    exact ⟨StructuralEdgeKind.text_injective kind, sources, targets, file,
      start, finish, StructuralEpistemicState.text_injective state,
      confidence_inj number, relation,
      UpstreamConfidence.text_injective confidence,
      by rw [located, locatedNext, paths], location⟩
  · intro same
    simp only [unboundEdge, source, target, sourceNext, targetNext,
      Option.getD_some, StructuralEdge.mk.injEq,
      StructuralProvenance.mk.injEq, true_and, and_true] at same
    obtain ⟨kind, sources, targets, file, start, finish, state, number,
      relation, confidence, _, location⟩ := same
    rw [edgeSignature, edgeSignature, source, target, sourceNext, targetNext,
      kind, sources, targets, file, start, finish, state, number, relation,
      confidence, location]

theorem Checked.unboundEdge_injOn (checked : Checked host extraction)
    {left right : StructuralEdge} (inside : left ∈ extraction.edges)
    (within : right ∈ extraction.edges)
    (alike : unboundEdge extraction left = unboundEdge extraction right) :
    left = right := by
  obtain ⟨path, normal, _, _, identified, _⟩ := checked.edge left inside
  obtain ⟨pathRight, normalRight, _, _, identifiedRight, _⟩ :=
    checked.edge right within
  obtain ⟨source, sourced, target, targeted, sourceId, targetId, sourceKey,
    targetKey⟩ := checked.ends inside
  obtain ⟨sourceRight, sourcedRight, targetRight, targetedRight,
    sourceIdRight, targetIdRight, sourceKeyRight, targetKeyRight⟩ :=
    checked.ends within
  simp only [unboundEdge, sourceKey, targetKey, sourceKeyRight,
    targetKeyRight, Option.getD_some, StructuralEdge.mk.injEq, true_and]
    at alike
  obtain ⟨kind, sources, targets, file, start, _⟩ := alike
  have paths : path = pathRight := by
    rw [file, normalRight] at normal
    exact (Except.ok.inj normal).symm
  have sameSource : left.sourceId = right.sourceId := by
    rw [← sourceId, ← sourceIdRight, List.inj_on_of_nodup_map checked.keys
      sourced sourcedRight sources]
  have sameTarget : left.targetId = right.targetId := by
    rw [← targetId, ← targetIdRight, List.inj_on_of_nodup_map checked.keys
      targeted targetedRight targets]
  refine List.inj_on_of_nodup_map checked.edgeIds inside within ?_
  rw [identified, identifiedRight, expectedEdgeId, expectedEdgeId, kind,
    sameSource, sameTarget, paths, start]

/-! ## The ends of edges -/

/-- An end of the edge has the key. -/
def hasEnd (extraction : StructuralExtraction) (edge : StructuralEdge)
    (key : String) : Prop :=
  (keyById extraction).get? edge.sourceId = some key ∨
    (keyById extraction).get? edge.targetId = some key

instance {edge : StructuralEdge} {key : String} :
    Decidable (hasEnd extraction edge key) :=
  inferInstanceAs (Decidable (_ ∨ _))

/-- The signatures of the edges at a key. -/
def incidentSignatures (host : Host) (extraction : StructuralExtraction)
    (key : String) : Set String :=
  {signature | ∃ edge ∈ extraction.edges, hasEnd extraction edge key ∧
    edgeSignature host (keyById extraction) edge = signature}

theorem Checked.ne_empty_of_keyById (checked : Checked host extraction)
    {id key : String} (found : (keyById extraction).get? id = some key) :
    key ≠ "" := by
  obtain ⟨node, inside, _, rfl⟩ := checked.keyById_eq.mp found
  obtain ⟨path, _, keyed, _⟩ := checked.node node inside
  rw [keyed]
  exact expectedKey_ne_empty path node

theorem Checked.mem_endKeys (checked : Checked host extraction)
    {edge : StructuralEdge} {key : String} :
    key ∈ endKeys extraction edge ↔ hasEnd extraction edge key := by
  simp only [endKeys, hasEnd, List.mem_filterMap, List.mem_cons,
    List.not_mem_nil, or_false, Option.filter_eq_some_iff,
    decide_eq_true_eq]
  constructor
  · rintro ⟨_, rfl | rfl, found, _⟩
    · exact .inl found
    · exact .inr found
  · rintro (found | found)
    · exact ⟨_, .inl rfl, found, checked.ne_empty_of_keyById found⟩
    · exact ⟨_, .inr rfl, found, checked.ne_empty_of_keyById found⟩

theorem Checked.mem_touchedKeys (checked : Checked host extraction)
    {key : String} :
    key ∈ touchedKeys host extraction other ↔
      ∃ edge ∈ extraction.edges,
        edgeSignature host (keyById extraction) edge ∉
          signatures host other ∧ hasEnd extraction edge key := by
  simp only [touchedKeys, List.mem_flatMap, List.mem_filter,
    decide_eq_true_eq, checked.mem_endKeys, and_assoc]

/-- The ends of edges which are alike have the same keys. -/
theorem hasEnd_of_unbound {prior next : StructuralEdge} {key : String}
    (first : Checked host before) (second : Checked host after)
    (inside : prior ∈ before.edges) (within : next ∈ after.edges)
    (alike : unboundEdge before prior = unboundEdge after next)
    (met : hasEnd before prior key) : hasEnd after next key := by
  obtain ⟨_, _, _, _, _, _, source, target⟩ := first.ends inside
  obtain ⟨_, _, _, _, _, _, sourceNext, targetNext⟩ := second.ends within
  have sources := congrArg StructuralEdge.sourceId alike
  have targets := congrArg StructuralEdge.targetId alike
  simp only [unboundEdge, source, target, sourceNext, targetNext,
    Option.getD_some] at sources targets
  rw [hasEnd, source, target, sources, targets] at met
  rw [hasEnd, sourceNext, targetNext]
  exact met

/-! ## Keys outside the lists -/

/-- Every key which the diff lists. -/
def listedKeys (diff : StructuralExtractionDiff) : List String :=
  diff.addedCanonicalKeys ++ diff.removedCanonicalKeys ++
    diff.changedCanonicalKeys ++ diff.invalidatedCanonicalKeys

theorem mem_invalidatedKeys {key : String} :
    key ∈ invalidatedKeys host before after ↔
      ((key ∈ missingKeys before after ∨ key ∈ changedKeys host before after) ∨
        key ∈ touchedKeys host before after) ∨
        key ∈ touchedKeys host after before := by
  rw [invalidatedKeys, (Text.sortTexts_perm _).mem_iff, List.mem_dedup]
  simp only [List.mem_append]

theorem notMem_listedKeys {key : String}
    (outside : key ∉ listedKeys (diffOf host before after)) :
    key ∉ missingKeys after before ∧ key ∉ missingKeys before after ∧
      key ∉ changedKeys host before after ∧
      key ∉ touchedKeys host before after ∧
      key ∉ touchedKeys host after before := by
  simp only [listedKeys, diffOf, List.mem_append, not_or,
    mem_invalidatedKeys] at outside
  tauto

/-- A node whose key is not listed is met by one of the same shape. -/
theorem exists_same_shape (first : Checked host before)
    (second : Checked host after) {prior : StructuralNode}
    (inside : prior ∈ before.nodes)
    (kept : prior.canonicalKey ∉ missingKeys before after)
    (unchanged : prior.canonicalKey ∉ changedKeys host before after) :
    ∃ next ∈ after.nodes, next.canonicalKey = prior.canonicalKey ∧
      nodeShape host prior = nodeShape host next := by
  have present : prior.canonicalKey ∈
      after.nodes.map (·.canonicalKey) := by
    by_contra missing
    exact kept (mem_missingKeys.mpr ⟨List.mem_map_of_mem inside, missing⟩)
  obtain ⟨next, within, keyed⟩ := List.mem_map.mp present
  refine ⟨next, within, keyed, ?_⟩
  by_contra changed
  exact unchanged ((mem_changedKeys first second).mpr
    ⟨prior, inside, next, within, rfl, keyed, changed⟩)

/-- An edge with an end whose key is not listed is met by one which is
alike. -/
theorem exists_alike_edge (first : Checked host before)
    (second : Checked host after) {prior : StructuralEdge} {key : String}
    (inside : prior ∈ before.edges) (met : hasEnd before prior key)
    (untouched : key ∉ touchedKeys host before after) :
    ∃ next ∈ after.edges,
      unboundEdge before prior = unboundEdge after next := by
  have signed : edgeSignature host (keyById before) prior ∈
      signatures host after := by
    by_contra missing
    exact untouched
      (first.mem_touchedKeys.mpr ⟨prior, inside, missing, met⟩)
  obtain ⟨next, within, same⟩ := List.mem_map.mp signed
  exact ⟨next, within,
    (edgeSignature_eq_iff first second inside within).mp same.symm⟩

theorem incidentSignatures_subset (first : Checked host before)
    (second : Checked host after) {key : String}
    (untouched : key ∉ touchedKeys host before after) :
    incidentSignatures host before key ⊆
      incidentSignatures host after key := by
  rintro _ ⟨prior, inside, met, rfl⟩
  obtain ⟨next, within, alike⟩ :=
    exists_alike_edge first second inside met untouched
  exact ⟨next, within,
    hasEnd_of_unbound first second inside within alike met,
    ((edgeSignature_eq_iff first second inside within).mpr alike).symm⟩

/-! ## The patched graph -/

/-- The unlisted part of one list with the listed part of another one which
agrees with it outside. -/
theorem patch_perm {α : Type} {old new : List α} {listed : α → Bool}
    (distinct : old.Nodup) (distinctNew : new.Nodup)
    (agree : ∀ item, listed item = false → (item ∈ old ↔ item ∈ new)) :
    (old.filter (fun item => !listed item) ++ new.filter listed).Perm new := by
  have kept : (old.filter fun item => !listed item).Perm
      (new.filter fun item => !listed item) := by
    refine (List.perm_ext_iff_of_nodup (distinct.filter _)
      (distinctNew.filter _)).mpr fun item => ?_
    rw [List.mem_filter, List.mem_filter, Bool.not_eq_true']
    exact and_congr_left fun unlisted => agree item unlisted
  exact (kept.append_right _).trans
    (List.perm_append_comm.trans (List.filter_append_perm listed new))

/-- The nodes of the first extraction whose keys are not listed with the
other ones of the second. -/
def patchedNodes (listed : List String)
    (before after : StructuralExtraction) : List StructuralNode :=
  (before.nodes.filter (fun node => !decide (node.canonicalKey ∈ listed)) ++
    after.nodes.filter fun node => decide (node.canonicalKey ∈ listed)).map
      unboundNode

def isListedEdge (listed : List String) (extraction : StructuralExtraction)
    (edge : StructuralEdge) : Bool :=
  decide (∃ key ∈ listed, hasEnd extraction edge key)

/-- The edges of the first extraction which touch no listed key with the
other ones of the second. -/
def patchedEdges (listed : List String)
    (before after : StructuralExtraction) : List StructuralEdge :=
  (before.edges.filter (fun edge => !isListedEdge listed before edge)).map
      (unboundEdge before) ++
    (after.edges.filter (isListedEdge listed after)).map (unboundEdge after)

theorem Checked.nodup_unboundNodes (checked : Checked host extraction) :
    (extraction.nodes.map unboundNode).Nodup := by
  refine List.Nodup.of_map StructuralNode.canonicalKey ?_
  rw [List.map_map]
  exact checked.keys

theorem Checked.nodup_unboundEdges (checked : Checked host extraction) :
    (extraction.edges.map (unboundEdge extraction)).Nodup :=
  (List.Nodup.of_map _ checked.edgeIds).map_on
    fun _ inside _ within => checked.unboundEdge_injOn inside within

theorem mem_unboundNodes (first : Checked host before)
    (second : Checked host after) {node : StructuralNode}
    (kept : node.canonicalKey ∉ missingKeys before after)
    (unchanged : node.canonicalKey ∉ changedKeys host before after)
    (inside : node ∈ before.nodes.map unboundNode) :
    node ∈ after.nodes.map unboundNode := by
  obtain ⟨prior, member, rfl⟩ := List.mem_map.mp inside
  obtain ⟨next, within, _, alike⟩ :=
    exists_same_shape first second member kept unchanged
  exact List.mem_map.mpr ⟨next, within,
    ((nodeShape_eq_iff first second member within).mp alike).symm⟩

theorem patchedNodes_perm (first : Checked host before)
    (second : Checked host after) :
    (patchedNodes (listedKeys (diffOf host before after)) before
      after).Perm (after.nodes.map unboundNode) := by
  rw [patchedNodes, List.map_append]
  have patched := @patch_perm _ _ _ (fun node => decide
    (node.canonicalKey ∈ listedKeys (diffOf host before after)))
    first.nodup_unboundNodes second.nodup_unboundNodes ?_
  · rw [List.filter_map, List.filter_map] at patched
    exact patched
  · intro node unlisted
    obtain ⟨added, removed, changed, _⟩ :=
      notMem_listedKeys (of_decide_eq_false unlisted)
    exact ⟨mem_unboundNodes first second removed changed,
      mem_unboundNodes second first added
        (changedKeys_comm first second ▸ changed)⟩

/-- Whether an edge is listed can be told from what is not bound to the
snapshot. -/
theorem isListedEdge_eq (checked : Checked host extraction)
    {listed : List String} {edge : StructuralEdge}
    (inside : edge ∈ extraction.edges) :
    isListedEdge listed extraction edge =
      decide ((unboundEdge extraction edge).sourceId ∈ listed ∨
        (unboundEdge extraction edge).targetId ∈ listed) := by
  obtain ⟨_, _, _, _, _, _, source, target⟩ := checked.ends inside
  simp only [isListedEdge, hasEnd, unboundEdge, source, target,
    Option.getD_some, Option.some.injEq]
  refine decide_eq_decide.mpr ⟨?_, ?_⟩
  · rintro ⟨_, member, rfl | rfl⟩
    · exact .inl member
    · exact .inr member
  · rintro (member | member)
    · exact ⟨_, member, .inl rfl⟩
    · exact ⟨_, member, .inr rfl⟩

theorem mem_unboundEdges (first : Checked host before)
    (second : Checked host after) {edge : StructuralEdge}
    (untouched : edge.sourceId ∉ touchedKeys host before after)
    (inside : edge ∈ before.edges.map (unboundEdge before)) :
    edge ∈ after.edges.map (unboundEdge after) := by
  obtain ⟨prior, member, rfl⟩ := List.mem_map.mp inside
  obtain ⟨source, _, _, _, _, _, found, _⟩ := first.ends member
  have met : hasEnd before prior (unboundEdge before prior).sourceId :=
    .inl (by simp only [unboundEdge, found, Option.getD_some])
  obtain ⟨next, within, alike⟩ :=
    exists_alike_edge first second member met untouched
  exact List.mem_map.mpr ⟨next, within, alike.symm⟩

theorem patchedEdges_perm (first : Checked host before)
    (second : Checked host after) :
    (patchedEdges (listedKeys (diffOf host before after)) before
      after).Perm (after.edges.map (unboundEdge after)) := by
  have patched := @patch_perm _ _ _ (fun edge => decide
    (edge.sourceId ∈ listedKeys (diffOf host before after) ∨
      edge.targetId ∈ listedKeys (diffOf host before after)))
    first.nodup_unboundEdges second.nodup_unboundEdges ?_
  · rw [List.filter_map, List.filter_map] at patched
    have unlisted : (before.edges.filter fun edge =>
        !isListedEdge (listedKeys (diffOf host before after)) before edge) =
        before.edges.filter _ := List.filter_congr fun edge inside =>
      congrArg Bool.not (isListedEdge_eq first inside)
    have listed : after.edges.filter
        (isListedEdge (listedKeys (diffOf host before after)) after) =
        after.edges.filter _ := List.filter_congr fun edge inside =>
      isListedEdge_eq second inside
    rw [patchedEdges, unlisted, listed]
    exact patched
  · intro edge unlisted
    obtain ⟨source, _⟩ := not_or.mp (of_decide_eq_false unlisted)
    obtain ⟨_, _, _, touched, touchedBack⟩ := notMem_listedKeys source
    exact ⟨mem_unboundEdges first second touched,
      mem_unboundEdges second first touchedBack⟩

/-! ## The diff is complete and symmetric -/

/-- What the diff of two extractions says, beside the diff the other way. -/
structure IsComplete (host : Host) (before after : StructuralExtraction)
    (diff back : StructuralExtractionDiff) : Prop where
  added : back.addedCanonicalKeys = diff.removedCanonicalKeys
  removed : back.removedCanonicalKeys = diff.addedCanonicalKeys
  changed : back.changedCanonicalKeys = diff.changedCanonicalKeys
  unlisted : ∀ key, key ∈ before.nodes.map (·.canonicalKey) ∨
      key ∈ after.nodes.map (·.canonicalKey) → key ∉ listedKeys diff →
    (∃ prior ∈ before.nodes, ∃ next ∈ after.nodes,
      prior.canonicalKey = key ∧ next.canonicalKey = key ∧
        nodeShape host prior = nodeShape host next) ∧
      incidentSignatures host before key = incidentSignatures host after key
  invalidated : ∀ key ∈ diff.invalidatedCanonicalKeys,
    key ∈ diff.removedCanonicalKeys ∨ key ∈ diff.changedCanonicalKeys ∨
      (∃ edge ∈ before.edges, edgeSignature host (keyById before) edge ∉
        signatures host after ∧ hasEnd before edge key) ∨
      ∃ edge ∈ after.edges, edgeSignature host (keyById after) edge ∉
        signatures host before ∧ hasEnd after edge key
  nodes : (patchedNodes (listedKeys diff) before after).Perm
    (after.nodes.map unboundNode)
  edges : (patchedEdges (listedKeys diff) before after).Perm
    (after.edges.map (unboundEdge after))

theorem unlisted_alike (first : Checked host before)
    (second : Checked host after) {key : String}
    (inside : key ∈ before.nodes.map (·.canonicalKey) ∨
      key ∈ after.nodes.map (·.canonicalKey))
    (outside : key ∉ listedKeys (diffOf host before after)) :
    (∃ prior ∈ before.nodes, ∃ next ∈ after.nodes,
      prior.canonicalKey = key ∧ next.canonicalKey = key ∧
        nodeShape host prior = nodeShape host next) ∧
      incidentSignatures host before key =
        incidentSignatures host after key := by
  obtain ⟨added, removed, changed, touched, touchedBack⟩ :=
    notMem_listedKeys outside
  refine ⟨?_, Set.Subset.antisymm
    (incidentSignatures_subset first second touched)
    (incidentSignatures_subset second first touchedBack)⟩
  rcases inside with member | member
  · obtain ⟨prior, within, rfl⟩ := List.mem_map.mp member
    obtain ⟨next, met, keyed, alike⟩ :=
      exists_same_shape first second within removed changed
    exact ⟨prior, within, next, met, rfl, keyed, alike⟩
  · obtain ⟨next, within, rfl⟩ := List.mem_map.mp member
    rw [changedKeys_comm first second] at changed
    obtain ⟨prior, met, keyed, alike⟩ :=
      exists_same_shape second first within added changed
    exact ⟨prior, met, next, within, keyed, rfl, alike.symm⟩

theorem diffOf_complete (first : Checked host before)
    (second : Checked host after) :
    IsComplete host before after (diffOf host before after)
      (diffOf host after before) where
  added := rfl
  removed := rfl
  changed := (changedKeys_comm first second).symm
  unlisted _ inside outside := unlisted_alike first second inside outside
  invalidated _ member := by
    rw [← first.mem_touchedKeys, ← second.mem_touchedKeys]
    have parts := mem_invalidatedKeys.mp member
    tauto
  nodes := patchedNodes_perm first second
  edges := patchedEdges_perm first second

theorem diff_eq_ok
    (integrity : assertStructuralExtractionIntegrity host before = .ok ())
    (integrityAfter : assertStructuralExtractionIntegrity host after =
      .ok ())
    (tenant : before.tenantId = after.tenantId)
    (repository : before.repositoryId = after.repositoryId)
    (apart : before.snapshotId ≠ after.snapshotId) :
    diffStructuralExtractions host before after =
      .ok (diffOf host before after) := by
  have digested : ∀ {input : StructuralExtraction},
      assertStructuralExtractionIntegrity host input = .ok () →
        host.contentDigest input = input.contentDigest := by
    intro input checked
    simp only [assertStructuralExtractionIntegrity, bind_eq_ok,
      throwIf_eq_ok, not_not] at checked
    obtain ⟨_, _, _, _, _, _, _, _, _, _, same⟩ := checked
    exact same
  rw [diffStructuralExtractions, integrity, ok_bind, integrityAfter, ok_bind,
    throwIf_of_not (by simp [tenant, repository, apart]), ok_bind,
    throwIf_of_not (by simp [digested integrity, digested integrityAfter]),
    ok_bind]
  rfl

/-- No difference of two checked extractions falls between the lists of
their diff. -/
theorem diffStructuralExtractions_complete (host : Host)
    (before after : StructuralExtraction)
    (integrity : assertStructuralExtractionIntegrity host before = .ok ())
    (integrityAfter : assertStructuralExtractionIntegrity host after =
      .ok ())
    (tenant : before.tenantId = after.tenantId)
    (repository : before.repositoryId = after.repositoryId)
    (apart : before.snapshotId ≠ after.snapshotId) :
    ∃ diff back,
      diffStructuralExtractions host before after = .ok diff ∧
        diffStructuralExtractions host after before = .ok back ∧
        IsComplete host before after diff back :=
  ⟨diffOf host before after, diffOf host after before,
    diff_eq_ok integrity integrityAfter tenant repository apart,
    diff_eq_ok integrityAfter integrity tenant.symm repository.symm
      apart.symm,
    diffOf_complete (checked_of_integrity integrity)
      (checked_of_integrity integrityAfter)⟩

/-! ## Two extractions of one file -/

/-- The SHA-256 digests of the texts which the sample has. -/
def sampleDigests : List (String × String) :=
  [("tenant\u0000repo\u0000s1\u0000src/a.ts::function::run",
      "8d5b233a1b45ef19fc9b376377b376f7359373cc6aaac0c37f376673be42c827"),
    ("tenant\u0000repo\u0000s1\u0000src/a.ts::function::load",
      "ff33919e3cd2d981a150541819a227b241f7ba12fc1d7131d550ac798684fc92"),
    ("tenant\u0000repo\u0000s2\u0000src/a.ts::function::run",
      "33cc6674d3dff75fb886e062f02f299123445231155e24840387d85da9c4f313"),
    ("tenant\u0000repo\u0000s2\u0000src/a.ts::function::load",
      "7b75123585d87b6e19bf72c110d80342e9206f32f85f8be7959b065965b07461"),
    ("s1\u0000calls\u0000sha256:8d5b233a1b45ef19fc9b376377b376f7359373cc6aa" ++
      "ac0c37f376673be42c827\u0000sha256:ff33919e3cd2d981a150541819a227b241" ++
      "f7ba12fc1d7131d550ac798684fc92\u0000src/a.ts\u00002",
      "ce278282a407167ebd907b40b09f0052fc61dbe6fca338b8f6e22fa34640ead1"),
    ("s2\u0000calls\u0000sha256:33cc6674d3dff75fb886e062f02f299123445231155" ++
      "e24840387d85da9c4f313\u0000sha256:7b75123585d87b6e19bf72c110d80342e9" ++
      "206f32f85f8be7959b065965b07461\u0000src/a.ts\u00002",
      "d5b11179f9ef26ff688865f087665796efb48c36588a035a5e728e79fc1ec7d9")]

def sampleHexDigest (text : String) : String :=
  (sampleDigests.lookup text).getD ""

def sampleProvenance (upstream location snapshotId : String) :
    StructuralProvenance where
  upstream := upstream
  upstreamConfidence := .extracted
  sourceFile := "src/a.ts"
  sourceLocation := location
  repositorySnapshotId := snapshotId
  observedAt := "2026-01-01T00:00:00.000Z"

def sampleNode (snapshotId digest name location : String) (line : Nat) :
    StructuralNode where
  id := "sha256:" ++ digest
  canonicalKey := "src/a.ts::function::" ++ name
  kind := .function
  label := name
  qualifiedName := name
  filePath := "src/a.ts"
  language := "typescript"
  lineStart := line
  lineEnd := line
  isTest := false
  epistemicState := .observed
  provenance := sampleProvenance name location snapshotId

def sampleEdge (snapshotId digest source target : String) :
    StructuralEdge where
  id := "sha256:" ++ digest
  kind := .calls
  sourceId := "sha256:" ++ source
  targetId := "sha256:" ++ target
  sourceFile := "src/a.ts"
  lineStart := 2
  lineEnd := 2
  epistemicState := .observed
  confidence := none
  provenance := sampleProvenance "calls" "L2" snapshotId

def sampleExtraction (snapshotId contentDigest : String)
    (nodes : List StructuralNode) (edges : List StructuralEdge) :
    StructuralExtraction where
  tenantId := "tenant"
  repositoryId := "repo"
  snapshotId := snapshotId
  sourceFiles := ["src/a.ts"]
  observedAt := "2026-01-01T00:00:00.000Z"
  nodes := nodes
  edges := edges
  rest := .null
  contentDigest := "sha256:" ++ contentDigest

def firstExtraction : StructuralExtraction :=
  sampleExtraction "s1"
    "fed2a5aac032b853a0f78d8ebc72a9162301df17b7051071c40f6dc820529157"
    [sampleNode "s1"
        "8d5b233a1b45ef19fc9b376377b376f7359373cc6aaac0c37f376673be42c827"
        "run" "L1" 1,
      sampleNode "s1"
        "ff33919e3cd2d981a150541819a227b241f7ba12fc1d7131d550ac798684fc92"
        "load" "L5" 5]
    [sampleEdge "s1"
      "ce278282a407167ebd907b40b09f0052fc61dbe6fca338b8f6e22fa34640ead1"
      "8d5b233a1b45ef19fc9b376377b376f7359373cc6aaac0c37f376673be42c827"
      "ff33919e3cd2d981a150541819a227b241f7ba12fc1d7131d550ac798684fc92"]

/-- The second function has moved by one line. -/
def secondExtraction : StructuralExtraction :=
  sampleExtraction "s2"
    "c2e0b8d738466051ea39646d80026c320d3f7e5ca85131ba051c09bd2cb7d8e0"
    [sampleNode "s2"
        "33cc6674d3dff75fb886e062f02f299123445231155e24840387d85da9c4f313"
        "run" "L1" 1,
      sampleNode "s2"
        "7b75123585d87b6e19bf72c110d80342e9206f32f85f8be7959b065965b07461"
        "load" "L6" 6]
    [sampleEdge "s2"
      "d5b11179f9ef26ff688865f087665796efb48c36588a035a5e728e79fc1ec7d9"
      "33cc6674d3dff75fb886e062f02f299123445231155e24840387d85da9c4f313"
      "7b75123585d87b6e19bf72c110d80342e9206f32f85f8be7959b065965b07461"]

/-- The other checks accept the two extractions, and their texts are in
lower case. -/
def sampleHost : Host where
  hexDigest := sampleHexDigest
  toLowerCase text := text
  numerals := .fractions
  checkAuthority _ := .ok ()
  checkInventory _ := .ok ()
  contentDigest extraction := "sha256:" ++
    if extraction.snapshotId = "s1" then
      "fed2a5aac032b853a0f78d8ebc72a9162301df17b7051071c40f6dc820529157"
    else "c2e0b8d738466051ea39646d80026c320d3f7e5ca85131ba051c09bd2cb7d8e0"

set_option maxRecDepth 8000 in
theorem integrity_firstExtraction :
    assertStructuralExtractionIntegrity sampleHost firstExtraction =
      .ok () := by
  rfl

set_option maxRecDepth 8000 in
theorem integrity_secondExtraction :
    assertStructuralExtractionIntegrity sampleHost secondExtraction =
      .ok () := by
  rfl

/-- The diff of two extractions of which the second has a moved function. -/
theorem diffStructuralExtractions_complete_sample :
    ∃ diff back,
      diffStructuralExtractions sampleHost firstExtraction
          secondExtraction = .ok diff ∧
        diffStructuralExtractions sampleHost secondExtraction
          firstExtraction = .ok back ∧
        IsComplete sampleHost firstExtraction secondExtraction diff back :=
  diffStructuralExtractions_complete sampleHost firstExtraction
    secondExtraction integrity_firstExtraction integrity_secondExtraction
    rfl rfl (by decide)

end Mendpoint.StructuralGraph
