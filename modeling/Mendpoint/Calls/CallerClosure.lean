import Mendpoint.Calls.Incremental

/-!
# Callers of pruned functions

The affected functions are closed under callers.  Whole files are pruned, and
so are functions of these files which are not affected; nothing pulls in the
callers of those.
-/

namespace Mendpoint.Calls

open Mendpoint.Library

/-! ## What is reset -/

/-- The ends of every edge are nodes. -/
def EndsAreNodes (graph : CallGraph) : Prop :=
  ∀ edge ∈ graph.edges,
    edge.callerId ∈ graph.nodes.ids ∧ edge.calleeId ∈ graph.nodes.ids

/-- A function of a graph lies in one of some files. -/
def LiesIn (graph : CallGraph) (id : String) (files : List String) : Prop :=
  ∃ node, graph.nodes.get? id = some node ∧ node.filePath ∈ files

theorem mem_idsInFiles {graph : CallGraph} {id : String}
    {files : List String} :
    id ∈ idsInFiles graph files ↔ LiesIn graph id files := by
  rw [idsInFiles, List.mem_map]
  constructor
  · rintro ⟨node, member, rfl⟩
    rw [List.mem_filter, decide_eq_true_iff, NodeTable.mem_values_iff]
      at member
    exact ⟨node, member⟩
  · rintro ⟨node, found, inside⟩
    have keyed := NodeTable.id_of_get? found
    refine ⟨node, List.mem_filter.mpr ⟨?_, decide_eq_true inside⟩, keyed⟩
    rw [NodeTable.mem_values_iff, keyed]
    exact found

section Region

variable (scanner : ChangeScanner) (previous : CallGraph)
  (changedFiles : List String) (sources : Snapshot) (options : RegionOptions)

/-- The classification of the changed files. -/
def regionChanges : ChangeSet :=
  classifyChanges scanner previous (uniq (changedFiles.map normPath)) sources

/-- The functions which the changes affect. -/
def regionAffected : List String :=
  affectedNodeIds previous
    (regionChanges scanner previous changedFiles sources) options
    (uniq (changedFiles.map normPath))

/-- A file is changed, or one of its functions is affected. -/
def TouchedFile (file : String) : Prop :=
  file ∈ changedFiles.map normPath ∨
    file ∈ (regionChanges scanner previous changedFiles sources).addedFiles ∨
    file ∈
      (regionChanges scanner previous changedFiles sources).deletedFiles ∨
    ∃ id ∈ regionAffected scanner previous changedFiles sources options,
      ∃ node, previous.nodes.get? id = some node ∧ node.filePath = file

/-- What an update prunes which does not rebuild in full. -/
def prunedIds : List String :=
  let region :=
    identifyAffectedRegion scanner previous changedFiles sources options
  region.resetNodeIds ++ idsInFiles previous region.resetFiles

/-- Whoever calls a pruned function is in a file which is reset. -/
structure ClosedUnderCallers : Prop where
  callers : ∀ edge ∈ previous.edges,
    edge.calleeId ∈
        prunedIds scanner previous changedFiles sources options →
      LiesIn previous edge.callerId
        (identifyAffectedRegion scanner previous changedFiles sources
          options).resetFiles
  deleted : ∀ edge ∈ previous.edges,
    edge ∉ (pruneAffectedRegion previous
        (prunedIds scanner previous changedFiles sources options)).edges →
      LiesIn previous edge.callerId
        (identifyAffectedRegion scanner previous changedFiles sources
          options).resetFiles

/--
An unaffected function which shares a file with a change or with an affected
function is called from such files only.
-/
def UnaffectedCalledWithin : Prop :=
  ∀ edge ∈ previous.edges,
    edge.calleeId ∉
        regionAffected scanner previous changedFiles sources options →
    (∃ callee, previous.nodes.get? edge.calleeId = some callee ∧
      TouchedFile scanner previous changedFiles sources options
        callee.filePath) →
    ∃ caller, previous.nodes.get? edge.callerId = some caller ∧
      TouchedFile scanner previous changedFiles sources options
        caller.filePath

variable {scanner previous changedFiles sources options}

theorem partial_region_files
    (isPartial :
      (identifyAffectedRegion scanner previous changedFiles sources
        options).shouldFullRebuild = false) :
    let region :=
      identifyAffectedRegion scanner previous changedFiles sources options
    region.resetNodeIds = idsInFiles previous region.resetFiles ∧
      ∀ file, file ∈ region.resetFiles ↔
        TouchedFile scanner previous changedFiles sources options file := by
  intro region
  revert isPartial
  change region.shouldFullRebuild = false → _
  unfold region identifyAffectedRegion
  dsimp only
  split
  · intro impossible
    cases impossible
  · split
    · intro impossible
      cases impossible
    · split
      · intro impossible
        cases impossible
      · refine fun _ => ⟨rfl, fun file => ?_⟩
        simp only [regionFiles, mem_uniq, List.mem_append, List.mem_map,
          List.mem_filterMap, TouchedFile, regionAffected, regionChanges,
          or_assoc]
        refine or_congr_right (or_congr_right (or_congr_right ?_))
        constructor
        · rintro ⟨node, ⟨id, affected, found⟩, same⟩
          exact ⟨id, affected, node, found, same⟩
        · rintro ⟨id, affected, node, found, same⟩
          exact ⟨node, ⟨id, affected, found⟩, same⟩

theorem mem_prunedIds
    (isPartial :
      (identifyAffectedRegion scanner previous changedFiles sources
        options).shouldFullRebuild = false) {id : String} :
    id ∈ prunedIds scanner previous changedFiles sources options ↔
      LiesIn previous id
        (identifyAffectedRegion scanner previous changedFiles sources
          options).resetFiles := by
  rw [prunedIds, (partial_region_files isPartial).1, List.mem_append, or_self,
    mem_idsInFiles]

theorem liesIn_region
    (isPartial :
      (identifyAffectedRegion scanner previous changedFiles sources
        options).shouldFullRebuild = false) {id : String} :
    LiesIn previous id
        (identifyAffectedRegion scanner previous changedFiles sources
          options).resetFiles ↔
      ∃ node, previous.nodes.get? id = some node ∧
        TouchedFile scanner previous changedFiles sources options
          node.filePath := by
  refine exists_congr fun node => and_congr_right fun _ => ?_
  exact (partial_region_files isPartial).2 node.filePath

theorem caller_touched (wellFormed : EndsAreNodes previous) {edge : CallEdge}
    (member : edge ∈ previous.edges)
    (affected : edge.calleeId ∈
      regionAffected scanner previous changedFiles sources options) :
    ∃ caller, previous.nodes.get? edge.callerId = some caller ∧
      TouchedFile scanner previous changedFiles sources options
        caller.filePath := by
  have closed := affectedNodeIds_closed previous
    (regionChanges scanner previous changedFiles sources) options
    (uniq (changedFiles.map normPath)) edge member affected
  rcases (NodeTable.mem_ids_iff _ _).mp (wellFormed edge member).1 with
    ⟨caller, found⟩
  exact ⟨caller, found,
    .inr (.inr (.inr ⟨edge.callerId, closed, caller, found, rfl⟩))⟩

end Region

/-! ## A function beside a changed one -/

/-- A function on a line of a file. -/
def sampleNode (filePath name : String) (line : Nat) : FunctionNode where
  id := filePath ++ "::" ++ name
  qualifiedName := name
  name := name
  filePath := filePath
  lineStart := line
  lineEnd := line
  language := .typescript
  enclosingType := none
  isExternalApi := false
  isTest := false
  signature := none
  bodyHash := some "before"

/-- `other` calls `beside`, which shares its file with `changed`. -/
def sampleEdge : CallEdge where
  id := "edge"
  callerId := "b.ts::other"
  calleeId := "a.ts::beside"
  callSiteFile := "b.ts"
  callSiteLine := 1
  resolution := .direct
  confidence := .high
  virtual := false

def sampleGraph : CallGraph :=
  rebuildAdjacency
    { repoRoot := "/repo"
      algorithm := .hybrid
      nodes := (∅ : NodeTable).insertAll
        [sampleNode "a.ts" "changed" 1, sampleNode "a.ts" "beside" 2,
          sampleNode "b.ts" "other" 1, sampleNode "c.ts" "p" 1,
          sampleNode "c.ts" "q" 2, sampleNode "c.ts" "r" 3,
          sampleNode "c.ts" "s" 4, sampleNode "c.ts" "t" 5,
          sampleNode "c.ts" "u" 6]
      edges := [sampleEdge]
      outEdges := ∅
      inEdges := ∅
      byName := ∅
      hierarchy :=
        { parentsOf := ∅
          instantiated := []
          methodsOfType := ∅ }
      stats :=
        { nodeCount := 9
          edgeCount := 1
          directEdges := 1
          approxEdges := 0 } }

def sampleSources : Snapshot where
  texts := OrderedMap.ofList [("a.ts", "changed beside")]
  canonical := by decide

/-- The body of `changed` is another, and that of `beside` is not. -/
def sampleScanner : ChangeScanner where
  methods := fun _ _ =>
    [{ name := "changed"
       enclosingType := none
       bodyHash := "after"
       signature := "" },
      { name := "beside"
        enclosingType := none
        bodyHash := "before"
        signature := "" }]
  hierarchySignal := fun _ => false
  importSignal := fun _ => false

theorem sampleGraph_ends : EndsAreNodes sampleGraph := by
  intro edge member
  cases List.mem_singleton.mp
    (show edge ∈ [sampleEdge] from member)
  decide

theorem sampleRegion_partial :
    (identifyAffectedRegion sampleScanner sampleGraph ["a.ts"] sampleSources
      {}).shouldFullRebuild = false := by
  decide +kernel

end Mendpoint.Calls
