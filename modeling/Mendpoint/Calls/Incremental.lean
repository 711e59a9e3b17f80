import Mendpoint.Calls.ChangeDetect

/-!
# Incremental update by reset and recompute

The reset phase finds the files whose functions are invalidated by a change
and prunes them, with their edges, from the previous graph.  The recompute
phase re-analyses those files against the survivors and merges the result.

Reports about an update (atomic changes, reasons, durations and statistics)
are read by no function modelled here and are left out.
-/

namespace Mendpoint.Calls

open Mendpoint.Library

/-- How far a reset expands. -/
inductive IncrementalStrategy where
  | hybrid
  | eager
  | conservative
  deriving DecidableEq

/-- Options of the reset phase. -/
structure RegionOptions where
  strategy : Option IncrementalStrategy := none
  fullRebuildFileFraction : Option ℚ := none
  methodFractionThreshold : Option ℚ := none
  expansionHops : Option Int := none

/-- Options of an incremental update. -/
structure IncrementalOptions extends BuildCallGraphOptions, RegionOptions

/-- What a change invalidates. -/
structure AffectedRegion where
  seedFiles : List String
  resetFiles : List String
  resetNodeIds : List String
  hierarchyDirty : Bool
  shouldFullRebuild : Bool

/-! ## The affected region -/

/-- `set.add(value)`. -/
def addNew (set : List String) (value : String) : List String :=
  if value ∈ set then set else set ++ [value]

/-- The first edge under an identifier. -/
def findEdge (graph : CallGraph) (id : String) : Option CallEdge :=
  graph.edges.find? fun edge => decide (edge.id = id)

/-- The callers of the edges of a list of identifiers. -/
def callersOf (graph : CallGraph) (ids : List String) : List String :=
  (ids.filterMap (findEdge graph)).map (·.callerId)

/-- The callees of the edges of a list of identifiers. -/
def calleesOf (graph : CallGraph) (ids : List String) : List String :=
  (ids.filterMap (findEdge graph)).map (·.calleeId)

/-- Nodes from which the expansion starts. -/
def seedNodeIds (previous : CallGraph) (changes : ChangeSet)
    (seedFiles : List String) : List String :=
  let direct := uniq (changes.methods.filterMap fun change =>
    change.previousNodeId.filter fun id => decide (id ≠ ""))
  let seeds :=
    if direct.isEmpty then
      (previous.nodes.values.filter fun node =>
        decide (node.filePath ∈ seedFiles)).map (·.id)
    else direct
  changes.methods.foldl
    (fun seeds change =>
      match change.kind, change.previousNodeId with
      | .signatureChange, some id | .deleted, some id =>
        if id = "" then seeds
        else
          (callersOf previous (previous.inEdges.getD id [])).foldl addNew
            seeds
      | _, _ => seeds)
    seeds

/-- Record nodes that are not yet affected as affected and as the frontier. -/
def reach (state : List String × List String) (id : String) :
    List String × List String :=
  if id ∈ state.1 then state else (state.1 ++ [id], state.2 ++ [id])

/-- Whether the callees of a frontier node are affected too. -/
def expandsCallees (strategy : IncrementalStrategy) (changes : ChangeSet)
    (id : String) : Bool :=
  decide (strategy = .eager) || changes.structural.hierarchyChanged ||
    changes.methods.any fun change =>
      decide (change.previousNodeId = some id) &&
        decide (change.kind ≠ .bodyEdit)

/-- Expand one frontier node. -/
def expandNode (previous : CallGraph) (strategy : IncrementalStrategy)
    (changes : ChangeSet) (state : List String × List String)
    (id : String) : List String × List String :=
  let withCallers :=
    (callersOf previous (previous.inEdges.getD id [])).foldl reach state
  if expandsCallees strategy changes id then
    (calleesOf previous (previous.outEdges.getD id [])).foldl reach
      withCallers
  else withCallers

/-- Expand the frontier a bounded number of times. -/
def expandHops (previous : CallGraph) (strategy : IncrementalStrategy)
    (changes : ChangeSet) :
    Nat → List String → List String → List String
  | 0, affected, _ => affected
  | hops + 1, affected, frontier =>
    let expanded :=
      frontier.foldl (expandNode previous strategy changes) (affected, [])
    if expanded.2.isEmpty then expanded.1
    else
      expandHops previous strategy changes hops expanded.1 expanded.2

/-- Whether a dirty hierarchy or import affects the ends of an edge. -/
def isDispatchEdge (edge : CallEdge) : Bool :=
  edge.virtual || decide (edge.resolution = .cha) ||
    decide (edge.resolution = .rta) ||
    decide (edge.resolution = .importContext)

/-- Add the ends of all dispatch edges. -/
def broadenDispatch (previous : CallGraph) (affected : List String) :
    List String :=
  (previous.edges.filter isDispatchEdge).foldl
    (fun affected edge =>
      addNew (addNew affected edge.callerId) edge.calleeId)
    affected

/-- One pass over the edges which adds callers of affected callees. -/
def closePass (edges : List CallEdge) (affected : List String) :
    List String :=
  edges.foldl
    (fun affected edge =>
      if edge.calleeId ∈ affected then addNew affected edge.callerId
      else affected)
    affected

/-- Repeat the pass until it adds nothing. -/
def closeCallers (edges : List CallEdge) :
    Nat → List String → List String
  | 0, affected => affected
  | passes + 1, affected =>
    let next := closePass edges affected
    if next.length = affected.length then affected
    else closeCallers edges passes next

/-- Affected callees have affected callers. -/
def CallersClosed (edges : List CallEdge) (affected : List String) : Prop :=
  ∀ edge ∈ edges, edge.calleeId ∈ affected → edge.callerId ∈ affected

theorem closePass_extends (edges : List CallEdge)
    (affected : List String) :
    ∃ added, closePass edges affected = affected ++ added ∧
      ∀ id ∈ added, id ∉ affected ∧ ∃ edge ∈ edges, edge.callerId = id := by
  induction edges generalizing affected with
  | nil => exact ⟨[], by simp [closePass], by simp⟩
  | cons edge rest inductionHypothesis =>
    by_cases grows :
        edge.calleeId ∈ affected ∧ edge.callerId ∉ affected
    · obtain ⟨added, shape, fresh⟩ :=
        inductionHypothesis (affected ++ [edge.callerId])
      refine ⟨edge.callerId :: added, ?_, ?_⟩
      · rw [closePass, List.foldl_cons, if_pos grows.1, addNew,
          if_neg grows.2]
        exact shape.trans (by simp)
      · intro id member
        rcases List.mem_cons.mp member with rfl | later
        · exact ⟨grows.2, edge, by simp, rfl⟩
        · obtain ⟨absent, other, otherMember, same⟩ := fresh id later
          exact ⟨fun known => absent (by simp [known]), other,
            by simp [otherMember], same⟩
    · obtain ⟨added, shape, fresh⟩ := inductionHypothesis affected
      refine ⟨added, ?_, ?_⟩
      · have idle : (if edge.calleeId ∈ affected then
            addNew affected edge.callerId else affected) = affected := by
          unfold addNew
          split
          · rename_i callee
            have caller : edge.callerId ∈ affected := by
              by_contra absent
              exact grows ⟨callee, absent⟩
            rw [if_pos caller]
          · rfl
        rw [closePass, List.foldl_cons, idle]
        exact shape
      · intro id member
        obtain ⟨absent, other, otherMember, same⟩ := fresh id member
        exact ⟨absent, other, by simp [otherMember], same⟩

theorem callersClosed_of_closePass {edges : List CallEdge}
    {affected : List String}
    (idle : (closePass edges affected).length = affected.length) :
    CallersClosed edges affected := by
  induction edges with
  | nil => simp [CallersClosed]
  | cons edge rest inductionHypothesis =>
    have settled :
        edge.calleeId ∈ affected → edge.callerId ∈ affected := by
      intro callee
      by_contra absent
      obtain ⟨added, shape, _⟩ :=
        closePass_extends rest (affected ++ [edge.callerId])
      have grown : closePass (edge :: rest) affected =
          affected ++ [edge.callerId] ++ added := by
        rw [closePass, List.foldl_cons, if_pos callee, addNew,
          if_neg absent]
        exact shape
      rw [grown] at idle
      simp at idle
    have rest_idle :
        (closePass rest affected).length = affected.length := by
      have skipped : (if edge.calleeId ∈ affected then
          addNew affected edge.callerId else affected) = affected := by
        unfold addNew
        split
        · rename_i callee
          rw [if_pos (settled callee)]
        · rfl
      rw [closePass, List.foldl_cons, skipped] at idle
      exact idle
    intro other member
    rcases List.mem_cons.mp member with rfl | later
    · exact settled
    · exact inductionHypothesis rest_idle other later

theorem closeCallers_closed (edges : List CallEdge) (passes : Nat)
    (affected : List String)
    (enough :
      (edges.filter fun edge =>
        !decide (edge.callerId ∈ affected)).length < passes) :
    CallersClosed edges (closeCallers edges passes affected) := by
  induction passes generalizing affected with
  | zero => exact absurd enough (Nat.not_lt_zero _)
  | succ passes inductionHypothesis =>
    rw [closeCallers]
    split
    · rename_i idle
      exact callersClosed_of_closePass idle
    · rename_i grew
      apply inductionHypothesis
      obtain ⟨added, shape, fresh⟩ := closePass_extends edges affected
      rw [shape] at grew ⊢
      cases added with
      | nil => simp at grew
      | cons id others =>
        obtain ⟨absent, edge, member, caller⟩ := fresh id (by simp)
        have smaller :
            (edges.filter fun edge => !decide (edge.callerId ∈
                affected ++ id :: others)).length <
              (edges.filter fun edge =>
                !decide (edge.callerId ∈ affected)).length := by
          have nested :
              (edges.filter fun edge => !decide (edge.callerId ∈
                  affected ++ id :: others)) =
                (edges.filter fun edge =>
                  !decide (edge.callerId ∈ affected)).filter
                  fun edge => !decide (edge.callerId ∈
                    affected ++ id :: others) := by
            rw [List.filter_filter]
            apply List.filter_congr
            intro other _
            simp only [List.mem_append, List.mem_cons]
            by_cases known : other.callerId ∈ affected <;>
              simp [known]
          rw [nested]
          apply List.length_filter_lt_length_iff_exists.mpr
          exact ⟨edge, List.mem_filter.mpr ⟨member, by
            simpa [caller] using absent⟩, by simp [caller]⟩
        omega

/-- The hops of an expansion. -/
def regionHops (strategy : IncrementalStrategy) (options : RegionOptions) :
    Nat :=
  let hops := options.expansionHops.getD
    (if strategy = .eager then 99 else 1)
  (if strategy = .eager then min hops 8 else hops).toNat

/-- The nodes affected by a change set. -/
def affectedNodeIds (previous : CallGraph) (changes : ChangeSet)
    (options : RegionOptions) (seedFiles : List String) : List String :=
  let strategy := options.strategy.getD .hybrid
  let seeds := seedNodeIds previous changes seedFiles
  let expanded :=
    expandHops previous strategy changes (regionHops strategy options)
      seeds seeds
  let broadened :=
    if changes.structural.hierarchyChanged ||
        changes.structural.importChanged then
      broadenDispatch previous expanded
    else expanded
  closeCallers previous.edges (previous.edges.length + 1) broadened

theorem affectedNodeIds_closed (previous : CallGraph)
    (changes : ChangeSet) (options : RegionOptions)
    (seedFiles : List String) :
    CallersClosed previous.edges
      (affectedNodeIds previous changes options seedFiles) :=
  closeCallers_closed previous.edges (previous.edges.length + 1) _
    (Nat.lt_succ_of_le (List.length_filter_le _ _))

/-- The identifiers of the nodes of some files. -/
def idsInFiles (graph : CallGraph) (files : List String) : List String :=
  (graph.nodes.values.filter fun node =>
    decide (node.filePath ∈ files)).map (·.id)

/-- The number of files with nodes, at least one. -/
def totalFiles (graph : CallGraph) : Nat :=
  let count := (uniq (graph.nodes.values.map (·.filePath))).length
  if count = 0 then 1 else count

/-- The changed files and the files of affected nodes. -/
def regionFiles (previous : CallGraph) (changes : ChangeSet)
    (seedFiles affected : List String) : List String :=
  uniq (seedFiles ++ changes.addedFiles ++ changes.deletedFiles ++
    (affected.filterMap previous.nodes.get?).map (·.filePath))

/-- The graph region which a list of changed files invalidates. -/
def identifyAffectedRegion (scanner : ChangeScanner)
    (previous : CallGraph) (changedFiles : List String)
    (sources : Snapshot) (options : RegionOptions) : AffectedRegion :=
  let seedFiles := uniq (changedFiles.map normPath)
  let changes := classifyChanges scanner previous seedFiles sources
  let dirty := changes.structural.hierarchyChanged
  if seedFiles.isEmpty then
    { seedFiles := []
      resetFiles := []
      resetNodeIds := []
      hierarchyDirty := false
      shouldFullRebuild := true }
  else if shouldFullRebuildFromChangeSet changes
      (options.methodFractionThreshold.getD (1 / 4)) then
    { seedFiles := seedFiles
      resetFiles := seedFiles
      resetNodeIds := previous.nodes.ids
      hierarchyDirty := dirty
      shouldFullRebuild := true }
  else
    let affected := affectedNodeIds previous changes options seedFiles
    let resetFiles := regionFiles previous changes seedFiles affected
    let fraction : ℚ :=
      (resetFiles.length : ℚ) /
        (max (totalFiles previous) seedFiles.length : ℕ)
    if options.fullRebuildFileFraction.getD (2 / 5) ≤ fraction ∧
        5 ≤ resetFiles.length then
      { seedFiles := seedFiles
        resetFiles := resetFiles
        resetNodeIds := affected
        hierarchyDirty := dirty
        shouldFullRebuild := true }
    else
      { seedFiles := seedFiles
        resetFiles := resetFiles
        resetNodeIds := idsInFiles previous resetFiles
        hierarchyDirty := dirty
        shouldFullRebuild := false }

/-! ## Reset and recompute -/

/-- Remove nodes and their incident edges from a graph. -/
def pruneAffectedRegion (graph : CallGraph)
    (resetNodeIds : List String) : CallGraph :=
  rebuildAdjacency
    { graph with
      nodes := graph.nodes.filterIds fun id => !decide (id ∈ resetNodeIds)
      edges := graph.edges.filter fun edge =>
        !decide (edge.callerId ∈ resetNodeIds) &&
          !decide (edge.calleeId ∈ resetNodeIds) }

/-- Add a recomputed edge between nodes unless its identifier is taken. -/
def mergeEdge (nodes : NodeTable) (edges : List CallEdge)
    (edge : CallEdge) : List CallEdge :=
  if (nodes.get? edge.callerId).isSome ∧
      (nodes.get? edge.calleeId).isSome then
    addEdge edges edge
  else edges

/-- The reset files which exist in the captured sources. -/
def filesToReanalyze (repoRoot : String) (sources : Snapshot)
    (resetFiles : List String) : List String :=
  resetFiles.filter (sources.hasResolved repoRoot)

/-- Merge the re-analysis of reset files into the survivors. -/
def mergeRegion (previous surviving : CallGraph)
    (fresh : PartialAnalysis) (hierarchyDirty : Bool)
    (algorithm : Option Algorithm) : CallGraph :=
  let nodes := surviving.nodes.insertAll fresh.nodes.values
  let edges := fresh.edges.foldl (mergeEdge nodes) surviving.edges
  let merged :=
    rebuildAdjacency
      { surviving with
        nodes := nodes
        edges := edges
        hierarchy :=
          if hierarchyDirty then
            mergeHierarchies previous.hierarchy fresh.hierarchy
          else mergeHierarchies surviving.hierarchy fresh.hierarchy }
  { merged with
    algorithm := algorithm.getD previous.algorithm
    repoRoot := previous.repoRoot
    stats := graphStats nodes edges edges }

/-- The full reset-recompute pipeline. -/
def resetRecomputeCallGraph (extractor : Extractor)
    (scanner : ChangeScanner) (previous : CallGraph)
    (changedFiles : List String) (sources : Snapshot)
    (options : IncrementalOptions) : CallGraph :=
  let region :=
    identifyAffectedRegion scanner previous changedFiles sources
      options.toRegionOptions
  if region.shouldFullRebuild then
    buildCallGraph extractor previous.repoRoot sources
      options.toBuildCallGraphOptions
  else
    let resetNodeIds :=
      region.resetNodeIds ++ idsInFiles previous region.resetFiles
    let surviving := pruneAffectedRegion previous resetNodeIds
    let fresh :=
      reanalyzeFiles extractor previous.repoRoot sources
        (filesToReanalyze previous.repoRoot sources region.resetFiles)
        surviving.nodes surviving.hierarchy
        options.toBuildCallGraphOptions
    mergeRegion previous surviving fresh region.hierarchyDirty
      options.algorithm

/-- An incremental update, or a full build where nothing is known. -/
def buildCallGraphIncremental (extractor : Extractor)
    (scanner : ChangeScanner) (repoRoot : String)
    (previous : Option CallGraph) (changedFiles : List String)
    (sources : Snapshot) (options : IncrementalOptions) : CallGraph :=
  match previous with
  | none =>
    buildCallGraph extractor repoRoot sources
      options.toBuildCallGraphOptions
  | some graph =>
    if changedFiles.isEmpty then
      buildCallGraph extractor repoRoot sources
        options.toBuildCallGraphOptions
    else
      resetRecomputeCallGraph extractor scanner
        { graph with
          repoRoot :=
            if graph.repoRoot = "" then repoRoot else graph.repoRoot }
        changedFiles sources options

/-! ## Call pairs -/

/-- File, type and name of a node. -/
def stableKey (node : FunctionNode) : String :=
  node.filePath ++ "::" ++ node.enclosingType.getD "" ++ "::" ++ node.name

/-- The stable pair of an edge between nodes. -/
def callPair (nodes : NodeTable) (edge : CallEdge) : Option String :=
  match nodes.get? edge.callerId, nodes.get? edge.calleeId with
  | some caller, some callee =>
    some (stableKey caller ++ "=>" ++ stableKey callee)
  | _, _ => none

/-- The stable pairs of the edges of a graph. -/
def graphCallPairs (graph : CallGraph) : List String :=
  uniq (graph.edges.filterMap (callPair graph.nodes))

end Mendpoint.Calls
