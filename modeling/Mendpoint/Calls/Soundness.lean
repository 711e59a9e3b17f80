import Mendpoint.Calls.Incremental

/-!
# Soundness of an incremental update

An incremental update is sound when it yields the nodes of a full build and
misses none of its call pairs.  Outside the reset files it keeps the edges of
the previous graph; inside, it resolves calls against the survivors and the
re-analysed functions, under a hierarchy merged with the previous one.  The
update is sound exactly when these edges cover the full build and no file is
re-analysed which the full build does not read.
-/

namespace Mendpoint.Calls

open Mendpoint.Library

/-! ## Functions of a list of files -/

theorem mem_readSources_iff {lookup : String → Option String}
    {files : List String} {path text : String} :
    (path, text) ∈ readSources {} lookup files ↔
      path ∈ files ∧ lookup path = some text := by
  simp only [readSources, List.mem_filterMap, Bool.false_and,
    Bool.false_eq_true, if_false, Option.map_eq_some_iff, Prod.mk.injEq]
  constructor
  · rintro ⟨file, member, found, located, rfl, rfl⟩
    exact ⟨member, located⟩
  · rintro ⟨member, located⟩
    exact ⟨path, member, text, located, rfl, rfl⟩

theorem mem_walk_iff {extractor : Extractor} {sources : Snapshot}
    {path : String} :
    path ∈ walkCapturedSources extractor sources ↔
      (∃ text, sources.get? path = some text) ∧ isCodeFile path = true := by
  rw [walkCapturedSources, List.mem_insertionSort, List.mem_filter,
    OrderedMap.mem_keys_iff]
  exact Iff.rfl

/-- The texts which a full build reads. -/
def buildTexts (extractor : Extractor) (sources : Snapshot) :
    List (String × String) :=
  readSources {} sources.get? (walkCapturedSources extractor sources)

theorem mem_buildTexts_iff {extractor : Extractor} {sources : Snapshot}
    {path text : String} :
    (path, text) ∈ buildTexts extractor sources ↔
      sources.get? path = some text ∧ isCodeFile path = true := by
  rw [buildTexts, mem_readSources_iff, mem_walk_iff]
  constructor
  · rintro ⟨⟨_, code⟩, found⟩
    exact ⟨found, code⟩
  · rintro ⟨found, code⟩
    exact ⟨⟨⟨text, found⟩, code⟩, found⟩

theorem nodeId_inj {left right leftName rightName : String}
    {leftLine rightLine : Nat}
    (leftPlain : ':' ∉ leftName.toList)
    (rightPlain : ':' ∉ rightName.toList)
    (equal :
      nodeId left leftName leftLine = nodeId right rightName rightLine) :
    left = right ∧ leftName = rightName ∧ leftLine = rightLine := by
  have chars := congrArg String.toList equal
  have shape : ∀ (path name : String) (line : Nat),
      (nodeId path name line).toList =
        (path.toList ++ [':'] ++ ':' :: name.toList) ++
          '@' :: (toString line).toList := by
    intro path name line
    simp [nodeId]
  rw [shape, shape] at chars
  obtain ⟨heads, lines⟩ :=
    Delimited.append_cons_inj_last
      (Delimited.not_mem_toString (by decide) _)
      (Delimited.not_mem_toString (by decide) _) chars
  obtain ⟨paths, names⟩ :=
    Delimited.append_cons_inj_last leftPlain rightPlain heads
  exact ⟨String.toList_inj.mp (List.append_cancel_right paths),
    String.toList_inj.mp names,
    Delimited.toString_inj (String.toList_inj.mp lines)⟩

section Functions

variable {extractor : Extractor}

theorem mem_rawFunctions_iff {texts : List (String × String)}
    {fn : RawFn} :
    fn ∈ rawFunctions extractor texts ↔
      ∃ path text, (path, text) ∈ texts ∧
        fn ∈ extractFunctions extractor path text := by
  simp only [rawFunctions, List.mem_flatMap, Prod.exists]

variable {path text : String}

theorem filePath_of_mem_extractFunctions {fn : RawFn}
    (member : fn ∈ extractFunctions extractor path text) :
    fn.filePath = path := by
  obtain ⟨_, _, rfl⟩ := List.mem_map.mp member
  rfl

theorem name_plain_of_mem {fn : RawFn}
    (member : fn ∈ extractFunctions extractor path text) :
    ':' ∉ fn.name.toList := by
  obtain ⟨found, foundMember, rfl⟩ := List.mem_map.mp member
  exact (extractor.name_plain foundMember).2

theorem eq_of_key_extractFunctions {left right : RawFn}
    (leftMember : left ∈ extractFunctions extractor path text)
    (rightMember : right ∈ extractFunctions extractor path text)
    (same : left.key = right.key) : left = right := by
  obtain ⟨_, _, lines⟩ :=
    nodeId_inj (name_plain_of_mem leftMember)
      (name_plain_of_mem rightMember) same
  obtain ⟨leftFn, leftFound, rfl⟩ := List.mem_map.mp leftMember
  obtain ⟨rightFn, rightFound, rfl⟩ := List.mem_map.mp rightMember
  rw [List.inj_on_of_nodup_map (extractor.lineStart_distinct path text)
    leftFound rightFound lines]

theorem eq_of_key {lookup : String → Option String} {files : List String}
    {left right : RawFn}
    (leftMember :
      left ∈ rawFunctions extractor (readSources {} lookup files))
    (rightMember :
      right ∈ rawFunctions extractor (readSources {} lookup files))
    (same : left.key = right.key) : left = right := by
  obtain ⟨leftPath, leftText, leftRead, leftFn⟩ :=
    mem_rawFunctions_iff.mp leftMember
  obtain ⟨rightPath, rightText, rightRead, rightFn⟩ :=
    mem_rawFunctions_iff.mp rightMember
  have paths : leftPath = rightPath := by
    have files := (nodeId_inj (name_plain_of_mem leftFn)
      (name_plain_of_mem rightFn) same).1
    rwa [filePath_of_mem_extractFunctions leftFn,
      filePath_of_mem_extractFunctions rightFn] at files
  subst paths
  have texts : leftText = rightText :=
    Option.some.inj
      ((mem_readSources_iff.mp leftRead).2.symm.trans
        (mem_readSources_iff.mp rightRead).2)
  subst texts
  exact eq_of_key_extractFunctions leftFn rightFn same

/-- The node table of the functions of some texts. -/
def functionTable (extractor : Extractor)
    (texts : List (String × String)) : NodeTable :=
  (∅ : NodeTable).insertAll
    ((rawFunctions extractor texts).map (RawFn.node extractor))

theorem get?_functionTable_iff {lookup : String → Option String}
    {files : List String} {id : String} {node : FunctionNode} :
    (functionTable extractor (readSources {} lookup files)).get? id =
        some node ↔
      ∃ fn ∈ rawFunctions extractor (readSources {} lookup files),
        fn.node extractor = node ∧ fn.key = id := by
  constructor
  · intro found
    obtain ⟨member, keyed⟩ := NodeTable.mem_of_get?_insertAll found
    obtain ⟨fn, fnMember, rfl⟩ := List.mem_map.mp member
    exact ⟨fn, fnMember, rfl, keyed⟩
  · rintro ⟨fn, fnMember, rfl, rfl⟩
    have present : fn.key ∈
        (functionTable extractor (readSources {} lookup files)).ids :=
      (NodeTable.mem_ids_insertAll _ _ _).mpr
        (Or.inr ⟨_, List.mem_map.mpr ⟨fn, fnMember, rfl⟩, rfl⟩)
    obtain ⟨stored, found⟩ := (NodeTable.mem_ids_iff _ _).mp present
    obtain ⟨member, keyed⟩ := NodeTable.mem_of_get?_insertAll found
    obtain ⟨other, otherMember, rfl⟩ := List.mem_map.mp member
    have same : other = fn := eq_of_key otherMember fnMember keyed
    rw [same] at found
    exact found

end Functions

/-! ## Merging -/

theorem get?_insertAll_values (table other : NodeTable) (id : String) :
    (table.insertAll other.values).get? id =
      (other.get? id).or (table.get? id) := by
  rw [NodeTable.get?, NodeTable.insertAll_map, OrderedMap.get?_setAll]
  congr 1
  apply Option.ext
  intro node
  simp only [Option.map_eq_some_iff, Prod.exists, exists_eq_right]
  constructor
  · rintro ⟨key, found⟩
    have member := List.mem_reverse.mp (List.mem_of_find?_eq_some found)
    have keyed : key = id := by simpa using List.find?_some found
    obtain ⟨stored, storedMember, pair⟩ := List.mem_map.mp member
    cases pair
    rw [← keyed]
    exact (NodeTable.mem_values_iff _ _).mp storedMember
  · intro found
    have keyed := NodeTable.id_of_get? found
    have member : node ∈ other.values := by
      rw [NodeTable.mem_values_iff, keyed]
      exact found
    have present :
        (((other.values.map fun node => (node.id, node)).reverse).find?
          fun entry => decide (entry.1 = id)).isSome :=
      List.find?_isSome.mpr
        ⟨(node.id, node),
          List.mem_reverse.mpr (List.mem_map.mpr ⟨node, member, rfl⟩),
          by simp [keyed]⟩
    obtain ⟨⟨key, value⟩, located⟩ := Option.isSome_iff_exists.mp present
    have listed := List.mem_reverse.mp (List.mem_of_find?_eq_some located)
    have keyId : key = id := by simpa using List.find?_some located
    obtain ⟨stored, storedMember, pair⟩ := List.mem_map.mp listed
    obtain ⟨storedKey, storedValue⟩ := Prod.mk.inj pair
    have same : stored = node :=
      List.inj_on_of_nodup_map other.nodup_values_ids storedMember member
        ((storedKey.trans keyId).trans keyed.symm)
    rw [← same, storedValue]
    exact ⟨key, located⟩

theorem nodup_addEdge {edges : List CallEdge}
    (distinct : (edges.map (·.id)).Nodup) (edge : CallEdge) :
    ((addEdge edges edge).map (·.id)).Nodup := by
  unfold addEdge
  split
  · exact distinct
  · rename_i fresh
    rw [List.map_append]
    exact List.Nodup.append distinct (List.nodup_singleton _)
      (List.disjoint_singleton.mpr fresh)

theorem nodup_resolveCalls (extractor : Extractor)
    (byName : OrderedMap String (List FunctionNode))
    (hierarchy : TypeHierarchy) (algorithm : Algorithm)
    (fns : List RawFn) :
    ((resolveCalls extractor byName hierarchy algorithm fns).map
      (·.id)).Nodup := by
  have general : ∀ (edges acc : List CallEdge),
      (acc.map (·.id)).Nodup → ((edges.foldl addEdge acc).map (·.id)).Nodup := by
    intro edges
    induction edges with
    | nil => exact fun _ distinct => distinct
    | cons edge rest inductionHypothesis =>
      exact fun acc distinct =>
        inductionHypothesis _ (nodup_addEdge distinct edge)
  exact general _ [] List.nodup_nil

theorem mem_foldl_mergeEdge {nodes : NodeTable} {fresh : List CallEdge}
    (distinct : (fresh.map (·.id)).Nodup) {kept : List CallEdge}
    {edge : CallEdge} :
    edge ∈ fresh.foldl (mergeEdge nodes) kept ↔
      edge ∈ kept ∨ edge ∈ fresh ∧ edge.id ∉ kept.map (·.id) ∧
        (nodes.get? edge.callerId).isSome ∧
          (nodes.get? edge.calleeId).isSome := by
  induction fresh generalizing kept with
  | nil => simp
  | cons head rest inductionHypothesis =>
    rw [List.map_cons, List.nodup_cons] at distinct
    rw [List.foldl_cons, inductionHypothesis distinct.2]
    by_cases skipped : ¬ ((nodes.get? head.callerId).isSome ∧
        (nodes.get? head.calleeId).isSome) ∨ head.id ∈ kept.map (·.id)
    · have same : mergeEdge nodes kept head = kept := by
        unfold mergeEdge addEdge
        rcases skipped with missing | taken
        · rw [if_neg missing]
        · rw [if_pos taken]
          exact ite_self _
      rw [same]
      refine or_congr_right ⟨fun member =>
        ⟨List.mem_cons_of_mem _ member.1, member.2⟩, ?_⟩
      rintro ⟨listed, fresh, present⟩
      rcases List.mem_cons.mp listed with rfl | later
      · rcases skipped with missing | taken
        · exact (missing present).elim
        · exact (fresh taken).elim
      · exact ⟨later, fresh, present⟩
    · rw [not_or, not_not] at skipped
      have grown : mergeEdge nodes kept head = kept ++ [head] := by
        rw [mergeEdge, if_pos skipped.1, addEdge, if_neg skipped.2]
      rw [grown, List.map_append, List.map_singleton]
      simp only [List.mem_append, List.mem_cons, List.not_mem_nil,
        or_false, not_or]
      constructor
      · rintro ((member | rfl) | ⟨member, ⟨fresh, _⟩, present⟩)
        · exact Or.inl member
        · exact Or.inr ⟨Or.inl rfl, skipped.2, skipped.1⟩
        · exact Or.inr ⟨Or.inr member, fresh, present⟩
      · rintro (member | ⟨rfl | member, fresh, present⟩)
        · exact Or.inl (Or.inl member)
        · exact Or.inl (Or.inr rfl)
        · refine Or.inr ⟨member, ⟨fresh, ?_⟩, present⟩
          intro same
          exact distinct.1
            (List.mem_map.mpr ⟨edge, member, same⟩)

theorem callPair_congr {left right : NodeTable}
    (same : ∀ id, left.get? id = right.get? id) (edge : CallEdge) :
    callPair left edge = callPair right edge := by
  unfold callPair
  rw [same, same]

theorem callPair_endpoints {nodes : NodeTable} {edge : CallEdge}
    {pair : String} (found : callPair nodes edge = some pair) :
    (nodes.get? edge.callerId).isSome ∧
      (nodes.get? edge.calleeId).isSome := by
  unfold callPair at found
  split at found
  · rename_i caller callee
    simp [caller, callee]
  · cases found

theorem mem_graphCallPairs_iff {graph : CallGraph} {pair : String} :
    pair ∈ graphCallPairs graph ↔
      ∃ edge ∈ graph.edges, callPair graph.nodes edge = some pair := by
  rw [graphCallPairs, mem_uniq, List.mem_filterMap]

/-! ## The updated graph -/

theorem partial_region {scanner : ChangeScanner} {previous : CallGraph}
    {changedFiles : List String} {sources : Snapshot}
    {options : RegionOptions}
    (isPartial :
      (identifyAffectedRegion scanner previous changedFiles sources
        options).shouldFullRebuild = false) :
    let region :=
      identifyAffectedRegion scanner previous changedFiles sources options
    region.resetNodeIds = idsInFiles previous region.resetFiles ∧
      ∀ file ∈ changedFiles.map normPath, file ∈ region.resetFiles := by
  intro region
  revert isPartial
  change region.shouldFullRebuild = false → _
  unfold region identifyAffectedRegion
  dsimp only
  split
  · simp
  · split
    · simp
    · split
      · simp
      · refine fun _ => ⟨rfl, ?_⟩
        intro file member
        simp only [regionFiles, mem_uniq, List.mem_append]
        exact Or.inl (Or.inl (Or.inl member))

/-- The edges of a graph with no end in some files. -/
def keptEdges (graph : CallGraph) (files : List String) :
    List CallEdge :=
  graph.edges.filter fun edge =>
    !decide (edge.callerId ∈ idsInFiles graph files) &&
      !decide (edge.calleeId ∈ idsInFiles graph files)

/-- The nodes of a graph outside some files. -/
def survivors (graph : CallGraph) (files : List String) : NodeTable :=
  graph.nodes.filterIds fun id => !decide (id ∈ idsInFiles graph files)

/-- The captured texts of some reset files. -/
def resetTexts (root : String) (sources : Snapshot)
    (files : List String) : List (String × String) :=
  readSources {} (sources.getJoined root)
    (filesToReanalyze root sources files)

/--
The edges of calls in reset files, resolved against the surviving and the
re-analysed functions under the merged hierarchy.
-/
def recomputedEdges (extractor : Extractor) (previous : CallGraph)
    (sources : Snapshot) (files : List String) : List CallEdge :=
  let texts := resetTexts previous.repoRoot sources files
  resolveCalls extractor
    (indexByName
      ((survivors previous files).insertAll
        (functionTable extractor texts).values).values)
    (mergeHierarchies previous.hierarchy (partialHierarchy extractor texts))
    .hybrid (rawFunctions extractor texts)

section Update

variable (extractor : Extractor) (scanner : ChangeScanner)
  (previous : CallGraph) (changedFiles : List String) (sources : Snapshot)
  (options : RegionOptions)

theorem pruneAffectedRegion_twice (graph : CallGraph)
    (files : List String) :
    (pruneAffectedRegion graph
        (idsInFiles graph files ++ idsInFiles graph files)).nodes =
        survivors graph files ∧
      (pruneAffectedRegion graph
        (idsInFiles graph files ++ idsInFiles graph files)).edges =
        keptEdges graph files := by
  constructor
  · simp [pruneAffectedRegion, rebuildAdjacency, survivors]
  · simp [pruneAffectedRegion, rebuildAdjacency, keptEdges]

theorem reanalyzeFiles_region (files : List String)
    (hierarchy : TypeHierarchy)
    (unchanged : hierarchy = previous.hierarchy) :
    let fresh :=
      reanalyzeFiles extractor previous.repoRoot sources
        (filesToReanalyze previous.repoRoot sources files)
        (survivors previous files) hierarchy {}
    fresh.nodes =
        functionTable extractor
          (resetTexts previous.repoRoot sources files) ∧
      fresh.edges = recomputedEdges extractor previous sources files := by
  subst unchanged
  refine ⟨rfl, ?_⟩
  have all :
      ((rawFunctions extractor
          (resetTexts previous.repoRoot sources files)).filter fun fn =>
        ((functionTable extractor
          (resetTexts previous.repoRoot sources files)).get?
            fn.key).isSome) =
        rawFunctions extractor
          (resetTexts previous.repoRoot sources files) := by
    rw [List.filter_eq_self]
    intro fn member
    rw [resetTexts, get?_functionTable_iff.mpr ⟨fn, member, rfl, rfl⟩]
    rfl
  unfold recomputedEdges
  dsimp only
  conv_rhs => rw [← all]
  rfl

theorem resetRecompute_partial
    (isPartial :
      (identifyAffectedRegion scanner previous changedFiles sources
        options).shouldFullRebuild = false) :
    let files :=
      (identifyAffectedRegion scanner previous changedFiles sources
        options).resetFiles
    let updated :=
      resetRecomputeCallGraph extractor scanner previous changedFiles
        sources { toRegionOptions := options }
    let nodes :=
      (survivors previous files).insertAll
        (functionTable extractor
          (resetTexts previous.repoRoot sources files)).values
    updated.nodes = nodes ∧
      updated.edges =
        (recomputedEdges extractor previous sources files).foldl
          (mergeEdge nodes) (keptEdges previous files) := by
  intro files updated nodes
  obtain ⟨resetIds, _⟩ := partial_region isPartial
  obtain ⟨prunedNodes, prunedEdges⟩ :=
    pruneAffectedRegion_twice previous files
  obtain ⟨freshNodes, freshEdges⟩ :=
    reanalyzeFiles_region extractor previous sources files
      (pruneAffectedRegion previous
        (idsInFiles previous files ++ idsInFiles previous files)).hierarchy
      rfl
  have unfolded : updated =
      mergeRegion previous
        (pruneAffectedRegion previous
          (idsInFiles previous files ++ idsInFiles previous files))
        (reanalyzeFiles extractor previous.repoRoot sources
          (filesToReanalyze previous.repoRoot sources files)
          (survivors previous files)
          (pruneAffectedRegion previous
            (idsInFiles previous files ++
              idsInFiles previous files)).hierarchy {})
        (identifyAffectedRegion scanner previous changedFiles sources
          options).hierarchyDirty none := by
    simp only [updated, resetRecomputeCallGraph, isPartial,
      Bool.false_eq_true, if_false, resetIds, prunedNodes, files]
  rw [unfolded]
  constructor
  · simp only [mergeRegion, rebuildAdjacency, prunedNodes, freshNodes,
      nodes]
  · simp only [mergeRegion, rebuildAdjacency, prunedNodes, prunedEdges,
      freshNodes, freshEdges, nodes]

end Update

/-! ## Comparison with a full build -/

/-- The full build of a snapshot with default options. -/
def fullBuild (extractor : Extractor) (root : String)
    (sources : Snapshot) : CallGraph :=
  buildCallGraph extractor root sources {}

/-- Two snapshots differ at most on a list of paths. -/
def DifferWithin (first second : Snapshot) (files : List String) : Prop :=
  ∀ path, first.get? path ≠ second.get? path → path ∈ files

section Comparison

variable {extractor : Extractor} {root : String} {first second : Snapshot}
  {files : List String}

variable {sources : Snapshot}

theorem get?_fullBuild_iff {id : String} {node : FunctionNode} :
    (fullBuild extractor root sources).nodes.get? id = some node ↔
      ∃ fn ∈ rawFunctions extractor (buildTexts extractor sources),
        fn.node extractor = node ∧ fn.key = id :=
  get?_functionTable_iff

theorem mem_idsInFiles_iff {id : String} :
    id ∈ idsInFiles (fullBuild extractor root sources) files ↔
      ∃ fn ∈ rawFunctions extractor (buildTexts extractor sources),
        fn.filePath ∈ files ∧ fn.key = id := by
  simp only [idsInFiles, List.mem_map, List.mem_filter, decide_eq_true_eq]
  constructor
  · rintro ⟨node, ⟨member, inside⟩, rfl⟩
    obtain ⟨fn, fnMember, same, keyed⟩ :=
      get?_fullBuild_iff.mp ((NodeTable.mem_values_iff _ _).mp member)
    refine ⟨fn, fnMember, ?_, keyed⟩
    rw [← same] at inside
    exact inside
  · rintro ⟨fn, fnMember, inside, rfl⟩
    refine ⟨fn.node extractor, ⟨?_, inside⟩, rfl⟩
    exact (NodeTable.mem_values_iff _ _).mpr
      (get?_fullBuild_iff.mpr ⟨fn, fnMember, rfl, rfl⟩)

theorem get?_survivors_iff {id : String} {node : FunctionNode} :
    (survivors (fullBuild extractor root sources) files).get? id =
        some node ↔
      ∃ fn ∈ rawFunctions extractor (buildTexts extractor sources),
        fn.filePath ∉ files ∧ fn.node extractor = node ∧ fn.key = id := by
  rw [survivors, NodeTable.get?_filterIds]
  by_cases reset :
      id ∈ idsInFiles (fullBuild extractor root sources) files
  · simp only [reset, decide_true, Bool.not_true, Bool.false_eq_true,
      if_false, reduceCtorEq, false_iff]
    rintro ⟨fn, fnMember, outside, _, keyed⟩
    obtain ⟨other, otherMember, inside, otherKey⟩ :=
      mem_idsInFiles_iff.mp reset
    have same : other = fn :=
      eq_of_key otherMember fnMember (otherKey.trans keyed.symm)
    exact outside (same ▸ inside)
  · simp only [reset, decide_false, Bool.not_false, if_true,
      get?_fullBuild_iff]
    constructor
    · rintro ⟨fn, fnMember, same, keyed⟩
      exact ⟨fn, fnMember,
        fun inside => reset
          (mem_idsInFiles_iff.mpr ⟨fn, fnMember, inside, keyed⟩),
        same, keyed⟩
    · rintro ⟨fn, fnMember, _, same, keyed⟩
      exact ⟨fn, fnMember, same, keyed⟩

theorem DifferWithin.mem_rawFunctions
    (within : DifferWithin first second files) {fn : RawFn}
    (outside : fn.filePath ∉ files) :
    fn ∈ rawFunctions extractor (buildTexts extractor first) ↔
      fn ∈ rawFunctions extractor (buildTexts extractor second) := by
  have unchanged : first.get? fn.filePath = second.get? fn.filePath := by
    by_contra differs
    exact outside (within _ differs)
  rw [mem_rawFunctions_iff, mem_rawFunctions_iff]
  refine exists_congr fun path => exists_congr fun text =>
    and_congr_left fun member => ?_
  rw [mem_buildTexts_iff, mem_buildTexts_iff,
    ← filePath_of_mem_extractFunctions member, unchanged]

theorem mem_resetTexts_of_build {fn : RawFn}
    (member : fn ∈ rawFunctions extractor (buildTexts extractor sources))
    (inside : fn.filePath ∈ files) :
    fn ∈ rawFunctions extractor (resetTexts root sources files) := by
  obtain ⟨path, text, read, extracted⟩ := mem_rawFunctions_iff.mp member
  have found := (mem_buildTexts_iff.mp read).1
  rw [filePath_of_mem_extractFunctions extracted] at inside
  refine mem_rawFunctions_iff.mpr ⟨path, text, ?_, extracted⟩
  rw [resetTexts, mem_readSources_iff, filesToReanalyze, List.mem_filter]
  exact ⟨⟨inside, sources.hasResolved_of_get? root found⟩,
    sources.getJoined_of_get? root found⟩

/-- A reset file either is read by a full build or has no functions. -/
def OnlyWalked (extractor : Extractor) (root : String)
    (sources : Snapshot) (files : List String) : Prop :=
  ∀ path text, (path, text) ∈ resetTexts root sources files →
    path ∈ walkCapturedSources extractor sources ∨
      extractor.functions path text = []

theorem OnlyWalked.mem_build
    (walked : OnlyWalked extractor root sources files) {fn : RawFn}
    (member : fn ∈ rawFunctions extractor (resetTexts root sources files)) :
    fn ∈ rawFunctions extractor (buildTexts extractor sources) := by
  obtain ⟨path, text, read, extracted⟩ := mem_rawFunctions_iff.mp member
  rcases walked path text read with listed | none
  · obtain ⟨⟨captured, found⟩, code⟩ := mem_walk_iff.mp listed
    have joined := (mem_readSources_iff.mp read).2
    rw [sources.getJoined_of_get? root found] at joined
    cases joined
    exact mem_rawFunctions_iff.mpr
      ⟨path, text, mem_buildTexts_iff.mpr ⟨found, code⟩, extracted⟩
  · rw [extractFunctions, none] at extracted
    cases extracted

/-- The node table of a partial update. -/
def updatedNodes (extractor : Extractor) (root : String)
    (first second : Snapshot) (files : List String) : NodeTable :=
  (survivors (fullBuild extractor root first) files).insertAll
    (functionTable extractor (resetTexts root second files)).values

theorem get?_updatedNodes (id : String) :
    (updatedNodes extractor root first second files).get? id =
      ((functionTable extractor (resetTexts root second files)).get?
        id).or
        ((survivors (fullBuild extractor root first) files).get? id) :=
  get?_insertAll_values _ _ _

theorem OnlyWalked.updatedNodes_eq
    (within : DifferWithin first second files)
    (walked : OnlyWalked extractor root second files) (id : String) :
    (updatedNodes extractor root first second files).get? id =
      (fullBuild extractor root second).nodes.get? id := by
  rw [get?_updatedNodes]
  cases fresh :
      (functionTable extractor (resetTexts root second files)).get? id with
  | some node =>
    obtain ⟨fn, member, same, keyed⟩ := get?_functionTable_iff.mp fresh
    rw [Option.some_or]
    exact (get?_fullBuild_iff.mpr
      ⟨fn, walked.mem_build member, same, keyed⟩).symm
  | none =>
    rw [Option.none_or]
    apply Option.ext
    intro node
    rw [get?_survivors_iff, get?_fullBuild_iff]
    constructor
    · rintro ⟨fn, member, outside, same, keyed⟩
      exact ⟨fn, (within.mem_rawFunctions outside).mp member, same,
        keyed⟩
    · rintro ⟨fn, member, same, keyed⟩
      by_cases inside : fn.filePath ∈ files
      · have again :
            fn ∈ rawFunctions extractor (resetTexts root second files) :=
          mem_resetTexts_of_build member inside
        have found := get?_functionTable_iff.mpr ⟨fn, again, same, keyed⟩
        rw [resetTexts] at fresh
        rw [fresh] at found
        cases found
      · exact ⟨fn, (within.mem_rawFunctions inside).mpr member, inside,
          same, keyed⟩

theorem onlyWalked_of_ids
    (same : ∀ id, id ∈ (updatedNodes extractor root first second files).ids ↔
      id ∈ (fullBuild extractor root second).nodes.ids) :
    OnlyWalked extractor root second files := by
  intro path text read
  cases functions : extractor.functions path text with
  | nil => exact Or.inr rfl
  | cons found rest =>
    left
    obtain ⟨fn, extracted⟩ : ∃ fn,
        fn ∈ extractFunctions extractor path text := by
      rw [extractFunctions, functions]
      exact ⟨_, List.mem_cons_self⟩
    have fresh := get?_functionTable_iff.mpr
      ⟨fn, mem_rawFunctions_iff.mpr ⟨path, text, read, extracted⟩, rfl,
        rfl⟩
    have present : fn.key ∈
        (updatedNodes extractor root first second files).ids := by
      refine (NodeTable.mem_ids_iff _ _).mpr ⟨fn.node extractor, ?_⟩
      rw [get?_updatedNodes, resetTexts, fresh, Option.some_or]
    obtain ⟨node, built⟩ :=
      (NodeTable.mem_ids_iff _ _).mp ((same _).mp present)
    obtain ⟨other, otherMember, _, keyed⟩ := get?_fullBuild_iff.mp built
    obtain ⟨otherPath, otherText, otherRead, otherExtracted⟩ :=
      mem_rawFunctions_iff.mp otherMember
    have paths := (nodeId_inj (name_plain_of_mem otherExtracted)
      (name_plain_of_mem extracted) keyed).1
    rw [filePath_of_mem_extractFunctions otherExtracted,
      filePath_of_mem_extractFunctions extracted] at paths
    rw [← paths]
    exact (mem_readSources_iff.mp otherRead).1

end Comparison

/-! ## The characterisation -/

section Characterisation

variable (extractor : Extractor) (scanner : ChangeScanner) (root : String)
  (first second : Snapshot) (changedFiles : List String)
  (options : RegionOptions)

/-- A graph has the nodes of another and misses none of its call pairs. -/
def CoversFullBuild (updated full : CallGraph) : Prop :=
  (∀ id, id ∈ updated.nodes.ids ↔ id ∈ full.nodes.ids) ∧
    ∀ pair ∈ graphCallPairs full, pair ∈ graphCallPairs updated

/--
The edges a partial update of some files has: edges of the first snapshot's
graph with no end in the files, and edges of calls in the files.
-/
def updatedEdges (files : List String) : List CallEdge :=
  let kept := keptEdges (fullBuild extractor root first) files
  kept ++
    (recomputedEdges extractor (fullBuild extractor root first) second
      files).filter fun edge => !decide (edge.id ∈ kept.map (·.id))

/--
What a partial update of some files needs.

No file is re-analysed which a full build does not read, unless it has no
functions; and every call which the full resolution of the second snapshot
finds is found, up to stable keys, between files which are not reset by the
resolution of the first snapshot, or from a reset file.
-/
structure RegionResolves (files : List String) : Prop where
  onlyWalked : OnlyWalked extractor root second files
  resolved :
    ∀ edge ∈ (fullBuild extractor root second).edges, ∀ pair,
      callPair (fullBuild extractor root second).nodes edge = some pair →
        ∃ other ∈ updatedEdges extractor root first second files,
          callPair (fullBuild extractor root second).nodes other =
            some pair

/-- The region which an update of the first snapshot's graph resets. -/
def updateRegion : AffectedRegion :=
  identifyAffectedRegion scanner (fullBuild extractor root first)
    changedFiles second options

/--
An update rebuilds in full, or resets a region whose files suffice.
-/
def UpdateCovers : Prop :=
  changedFiles = [] ∨
    (updateRegion extractor scanner root first second changedFiles
      options).shouldFullRebuild = true ∨
    RegionResolves extractor root first second
      (updateRegion extractor scanner root first second changedFiles
        options).resetFiles

/-- The incremental update from the first snapshot to the second. -/
def incrementalBuild : CallGraph :=
  buildCallGraphIncremental extractor scanner root
    (some (fullBuild extractor root first)) changedFiles second
    { toRegionOptions := options }

theorem coversFullBuild_refl (graph : CallGraph) :
    CoversFullBuild graph graph :=
  ⟨fun _ => Iff.rfl, fun _ member => member⟩

theorem incrementalBuild_of_changed (changed : changedFiles ≠ []) :
    incrementalBuild extractor scanner root first second changedFiles
        options =
      resetRecomputeCallGraph extractor scanner
        (fullBuild extractor root first) changedFiles second
        { toRegionOptions := options } := by
  have notEmpty : changedFiles.isEmpty = false := by
    simpa using changed
  have sameRoot :
      { fullBuild extractor root first with
        repoRoot :=
          if (fullBuild extractor root first).repoRoot = "" then root
          else (fullBuild extractor root first).repoRoot } =
        fullBuild extractor root first := by
    have shape : (fullBuild extractor root first).repoRoot = root := rfl
    rw [shape, ite_self]
    rfl
  simp only [incrementalBuild, buildCallGraphIncremental, notEmpty,
    Bool.false_eq_true, if_false, sameRoot]

theorem exists_merged_pair_iff {files : List String} {nodes : NodeTable}
    {pair : String} :
    (∃ edge ∈ (recomputedEdges extractor (fullBuild extractor root first)
          second files).foldl (mergeEdge nodes)
          (keptEdges (fullBuild extractor root first) files),
        callPair nodes edge = some pair) ↔
      ∃ edge ∈ updatedEdges extractor root first second files,
        callPair nodes edge = some pair := by
  refine exists_congr fun edge => and_congr_left fun found => ?_
  have endpoints := callPair_endpoints found
  have distinct :
      ((recomputedEdges extractor (fullBuild extractor root first) second
        files).map (·.id)).Nodup :=
    nodup_resolveCalls _ _ _ _ _
  rw [mem_foldl_mergeEdge distinct, updatedEdges, List.mem_append,
    List.mem_filter]
  simp [endpoints]

theorem coversFullBuild_iff_resolves {files : List String}
    {updated : CallGraph}
    (within : DifferWithin first second files)
    (nodesShape :
      updated.nodes = updatedNodes extractor root first second files)
    (edgesShape :
      updated.edges =
        (recomputedEdges extractor (fullBuild extractor root first) second
          files).foldl
          (mergeEdge (updatedNodes extractor root first second files))
          (keptEdges (fullBuild extractor root first) files)) :
    CoversFullBuild updated (fullBuild extractor root second) ↔
      RegionResolves extractor root first second files := by
  have pairs : OnlyWalked extractor root second files → ∀ pair,
      pair ∈ graphCallPairs updated ↔
        ∃ edge ∈ updatedEdges extractor root first second files,
          callPair (fullBuild extractor root second).nodes edge =
            some pair := by
    intro walked pair
    rw [mem_graphCallPairs_iff, nodesShape, edgesShape,
      exists_merged_pair_iff]
    simp only [callPair_congr (walked.updatedNodes_eq within)]
  constructor
  · rintro ⟨ids, covered⟩
    have walked : OnlyWalked extractor root second files :=
      onlyWalked_of_ids (fun id => nodesShape ▸ ids id)
    refine ⟨walked, ?_⟩
    intro edge member pair found
    exact (pairs walked pair).mp
      (covered pair (mem_graphCallPairs_iff.mpr ⟨edge, member, found⟩))
  · intro resolves
    constructor
    · intro id
      rw [nodesShape, NodeTable.mem_ids_iff, NodeTable.mem_ids_iff,
        resolves.onlyWalked.updatedNodes_eq within]
    · intro pair member
      obtain ⟨edge, edgeMember, found⟩ := mem_graphCallPairs_iff.mp member
      exact (pairs resolves.onlyWalked pair).mpr
        (resolves.resolved edge edgeMember pair found)

theorem coversFullBuild_partial_iff
    (changed : changedFiles ≠ [])
    (within : DifferWithin first second (changedFiles.map normPath))
    (isPartial :
      (updateRegion extractor scanner root first second changedFiles
        options).shouldFullRebuild = false) :
    CoversFullBuild
        (incrementalBuild extractor scanner root first second changedFiles
          options)
        (fullBuild extractor root second) ↔
      RegionResolves extractor root first second
        (updateRegion extractor scanner root first second changedFiles
          options).resetFiles := by
  obtain ⟨_, seeded⟩ := partial_region isPartial
  obtain ⟨nodesShape, edgesShape⟩ :=
    resetRecompute_partial extractor scanner (fullBuild extractor root first)
      changedFiles second options isPartial
  rw [incrementalBuild_of_changed extractor scanner root first second
    changedFiles options changed]
  exact coversFullBuild_iff_resolves extractor root first second
    (fun path differs => seeded path (within path differs)) nodesShape
    edgesShape

end Characterisation

/-! ## A new callee -/

/-- Five functions, the first of which calls `b`. -/
def callerText : String :=
  "export function p() { return b(); }\nexport function q() {}\n" ++
    "export function r() {}\nexport function s() {}\n" ++
    "export function t() {}"

/-- One function, `b`. -/
def calleeText : String := "export function b() { return 1; }"

/-- A function on a line of its own. -/
def lineFunction (name : String) (line : Nat) : ExtractedFn where
  name := name
  lineStart := line
  lineEnd := line
  body := "function " ++ name
  enclosingType := none

/-- What is recognised in the example texts. -/
def exampleFunctions (text : String) : List ExtractedFn :=
  if text = callerText then
    [lineFunction "p" 1, lineFunction "q" 2, lineFunction "r" 3,
      lineFunction "s" 4, lineFunction "t" 5]
  else if text = calleeText then [lineFunction "b" 1]
  else []

theorem exampleFunctions_plain {text : String} {fn : ExtractedFn}
    (member : fn ∈ exampleFunctions text) :
    '@' ∉ fn.name.toList ∧ ':' ∉ fn.name.toList := by
  have all : ∀ found ∈ [lineFunction "p" 1, lineFunction "q" 2,
      lineFunction "r" 3, lineFunction "s" 4, lineFunction "t" 5,
      lineFunction "b" 1],
      '@' ∉ found.name.toList ∧ ':' ∉ found.name.toList := by
    decide
  apply all
  unfold exampleFunctions at member
  split at member
  · exact List.mem_of_mem_take (i := 5) member
  · split at member
    · exact List.mem_of_mem_drop (i := 5) member
    · cases member

/-- The front end restricted to the example texts. -/
def exampleExtractor : Extractor where
  functions := fun _ text => exampleFunctions text
  calls := fun fn => if fn.name = "p" then [⟨"b", none, 1⟩] else []
  instantiations := fun _ => []
  hierarchy := fun _ _ => ∅
  hashBody := fun body => body
  signature := fun fn => some fn.body
  pathLe := Text.codeUnitLe
  name_plain := exampleFunctions_plain
  lineStart_distinct := by
    intro _ text
    unfold exampleFunctions
    split
    · decide
    · split <;> decide

/-- Change detection restricted to the example texts. -/
def exampleScanner : ChangeScanner where
  methods := fun _ text =>
    (exampleFunctions text).map fun fn =>
      { name := fn.name
        enclosingType := fn.enclosingType
        bodyHash := fn.body
        signature := fn.body }
  hierarchySignal := fun _ => false
  importSignal := fun _ => false

/-- The snapshot before `b.ts` is added. -/
def callerSnapshot : Snapshot where
  texts := OrderedMap.ofList [("a.ts", callerText)]
  canonical := by decide

/-- The snapshot after `b.ts` is added. -/
def calleeSnapshot : Snapshot where
  texts := OrderedMap.ofList [("a.ts", callerText), ("b.ts", calleeText)]
  canonical := by decide

theorem callerSnapshot_differWithin :
    DifferWithin callerSnapshot calleeSnapshot
      (["b.ts"].map normPath) := by
  intro path differs
  have normal : normPath "b.ts" = "b.ts" := by decide
  rw [List.map_singleton, normal, List.mem_singleton]
  by_contra other
  have unlisted : ¬ ("b.ts" = path) := fun same => other same.symm
  have same : callerSnapshot.get? path = calleeSnapshot.get? path := by
    change OrderedMap.lookupEntry path [("a.ts", callerText)] =
      OrderedMap.lookupEntry path
        [("a.ts", callerText), ("b.ts", calleeText)]
    simp [OrderedMap.lookupEntry, unlisted]
  exact differs same

end Mendpoint.Calls
