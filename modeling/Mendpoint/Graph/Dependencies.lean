import Mendpoint.Graph.Query
import Mendpoint.Library.PathTree

/-!
# The paths of an enumeration

An enumeration of dependencies reports the ends of the tree of simple paths
below its hop bound, in their order, until there are as many as it may report.
-/

namespace Mendpoint.Graph

open Mendpoint.Library
open Mendpoint.Library.PathTree

/-! ## What a turn of the enumeration adds -/

def Terminal.ofEnd : End → Terminal
  | .leaf => .leaf
  | .cycle => .cycle
  | .cut => .maxHops

/-- What a path tells of its walk. -/
def DependencyPath.view (path : DependencyPath) :
    List String × List String × Nat × Terminal :=
  (path.nodeIds, path.edgeIds, path.hops, path.terminal)

/-- What is told of a walk from the seed. -/
def shown (seed : String) (found : List GlEdge × End) :
    List String × List String × Nat × Terminal :=
  (seed :: found.1.map GlEdge.target, found.1.map GlEdge.id, found.1.length,
    .ofEnd found.2)

/-- The room which is left for further paths. -/
def Enumeration.room (maxPaths : Nat) (enumeration : Enumeration) : Nat :=
  maxPaths - enumeration.paths.length

/-- An enumeration has gone through some ends, as far as there was room. -/
structure Grew (seed : String) (maxPaths : Nat) (before after : Enumeration)
    (found : List (List GlEdge × End)) : Prop where
  paths : after.paths.map DependencyPath.view =
    before.paths.map DependencyPath.view ++
      (found.take (before.room maxPaths)).map (shown seed)
  depth : after.depthLimitedPaths = before.depthLimitedPaths +
    (found.take (before.room maxPaths)).countP fun one => one.2 = .cut
  limit : after.pathLimitReached =
    (before.pathLimitReached || decide (before.room maxPaths < found.length))

section Growth

variable {seed : String} {maxPaths : Nat} {before middle after : Enumeration}
  {found more : List (List GlEdge × End)}

theorem Grew.room (grew : Grew seed maxPaths before after found) :
    after.room maxPaths = before.room maxPaths - found.length := by
  have lengths := congrArg List.length grew.paths
  rw [List.length_map, List.length_append, List.length_map, List.length_map,
    List.length_take] at lengths
  rw [Enumeration.room] at lengths ⊢
  rw [Enumeration.room]
  omega

theorem Grew.nil (enumeration : Enumeration) :
    Grew seed maxPaths enumeration enumeration [] :=
  ⟨by simp, by simp, by simp⟩

theorem Grew.trans (first : Grew seed maxPaths before middle found)
    (second : Grew seed maxPaths middle after more) :
    Grew seed maxPaths before after (found ++ more) where
  paths := by
    rw [second.paths, first.paths, first.room, List.take_append,
      List.map_append, List.append_assoc]
  depth := by
    rw [second.depth, first.depth, first.room, List.take_append,
      List.countP_append, Nat.add_assoc]
  limit := by
    rw [second.limit, first.limit, first.room, List.length_append,
      Bool.or_assoc, ← Bool.decide_or]
    congr 2
    rw [eq_iff_iff]
    omega

theorem Grew.skip (full : maxPaths ≤ before.paths.length)
    (some' : found ≠ []) :
    Grew seed maxPaths before { before with pathLimitReached := true }
      found := by
  have none' : before.room maxPaths = 0 := Nat.sub_eq_zero_of_le full
  refine ⟨by simp [none'], by simp [none'], ?_⟩
  rw [none', decide_eq_true (List.length_pos_iff.mpr some'), Bool.or_true]

end Growth

section Dependencies

variable (runtime : Runtime) (now : String) (db : GraphLearnDb)

/-- The dependencies of a node, as an enumeration lists them. -/
def dependencies (id : String) : List GlEdge :=
  (edgesFrom now db id (some ["DEPENDS_ON"])).insertionSort
    (dependencyBefore runtime)

variable {runtime now db}
variable {seed : String} {maxPaths : Nat}

variable {walk : List GlEdge}

theorem view_addPath (enumeration : Enumeration) (nodeIds : List String)
    (kind : End) (cycleNodeId : Option String)
    (nodes : nodeIds = seed :: walk.map GlEdge.target) :
    (enumeration.addPath db nodeIds walk (.ofEnd kind)
        cycleNodeId).paths.map DependencyPath.view =
      enumeration.paths.map DependencyPath.view ++
        [shown seed (walk, kind)] := by
  rw [Enumeration.addPath, List.map_append, nodes]
  rfl

theorem Grew.add {enumeration : Enumeration} {nodeIds : List String}
    {kind : End} {cycleNodeId : Option String}
    (nodes : nodeIds = seed :: walk.map GlEdge.target)
    (room : enumeration.paths.length < maxPaths) {after : Enumeration}
    (paths : after.paths = (enumeration.addPath db nodeIds walk (.ofEnd
      kind) cycleNodeId).paths)
    (depth : after.depthLimitedPaths = enumeration.depthLimitedPaths + if
      kind = .cut then 1 else 0)
    (limit : after.pathLimitReached = enumeration.pathLimitReached) :
    Grew seed maxPaths enumeration after [(walk, kind)] := by
  have some' : 0 < enumeration.room maxPaths := Nat.sub_pos_of_lt room
  have whole : [(walk, kind)].take (enumeration.room maxPaths) =
      [(walk, kind)] := List.take_of_length_le some'
  refine ⟨?_, ?_, ?_⟩
  · rw [paths, whole, view_addPath enumeration nodeIds kind cycleNodeId nodes]
    rfl
  · rw [depth, whole, List.countP_singleton]
    simp
  · rw [limit, List.length_singleton, decide_eq_false (by omega),
      Bool.or_false]

theorem Grew.foldl {α : Type} {visit : Enumeration → α → Enumeration}
    {foundAt : α → List (List GlEdge × End)}
    (each : ∀ enumeration item,
      Grew seed maxPaths enumeration (visit enumeration item) (foundAt item))
    (items : List α) (enumeration : Enumeration) :
    Grew seed maxPaths enumeration (items.foldl visit enumeration)
      (items.flatMap foundAt) := by
  induction items generalizing enumeration with
  | nil => exact .nil enumeration
  | cons item rest inductionHypothesis =>
    rw [List.foldl_cons, List.flatMap_cons]
    exact (each enumeration item).trans (inductionHypothesis _)

theorem grew_visit (hops : Nat) (current : String) (walk : List GlEdge)
    {nodeIds : List String} {enumeration : Enumeration}
    (nodes : nodeIds = seed :: walk.map GlEdge.target)
    (room : enumeration.paths.length < maxPaths) :
    Grew seed maxPaths enumeration
      (Enumeration.visit runtime now db maxPaths hops current nodeIds walk
        enumeration)
      ((ends (dependencies runtime now db) GlEdge.target hops nodeIds
        current).map fun found => (walk ++ found.1, found.2)) := by
  have listed : ∀ id, (edgesFrom now db id
      (some ["DEPENDS_ON"])).insertionSort (dependencyBefore runtime) =
        dependencies runtime now db id := fun _ => rfl
  have extended : ∀ {nodeIds : List String} {walk : List GlEdge},
      nodeIds = seed :: walk.map GlEdge.target → ∀ edge : GlEdge,
        nodeIds ++ [edge.target] =
          seed :: (walk ++ [edge]).map GlEdge.target := by
    rintro _ walk rfl edge
    rw [List.map_append, List.cons_append]
    rfl
  induction hops generalizing current walk nodeIds enumeration with
  | zero =>
    rw [Enumeration.visit, ends, List.map_singleton, List.append_nil, listed]
    by_cases dead : dependencies runtime now db current = []
    · simp only [dead, ne_eq, not_true_eq_false, if_false, if_true]
      exact .add nodes room rfl rfl rfl
    · simp only [dead, ne_eq, not_false_eq_true, if_false, if_true]
      exact .add nodes room rfl rfl rfl
  | succ hops inductionHypothesis =>
    rw [Enumeration.visit, ends, listed]
    by_cases dead : dependencies runtime now db current = []
    · rw [if_pos dead, if_pos dead, List.map_singleton, List.append_nil]
      exact .add nodes room rfl rfl rfl
    · rw [if_neg dead, if_neg dead, List.map_flatMap]
      apply Grew.foldl
      intro enumeration edge
      by_cases full : maxPaths ≤ enumeration.paths.length
      · rw [if_pos full]
        apply Grew.skip full
        rw [Ne, List.map_eq_nil_iff]
        split
        · exact List.cons_ne_nil _ _
        · rw [List.map_eq_nil_iff]
          exact ends_ne_nil _ _ _
      · rw [if_neg full]
        by_cases seen : edge.target ∈ nodeIds
        · rw [if_pos seen, if_pos seen, List.map_singleton]
          exact .add (extended nodes edge) (not_le.mp full) rfl rfl rfl
        · rw [if_neg seen, if_neg seen, List.map_map]
          have whole : (fun found : List GlEdge × End =>
              (walk ++ found.1, found.2)) ∘
                (fun found : List GlEdge × End =>
                  (edge :: found.1, found.2)) =
              fun found => ((walk ++ [edge]) ++ found.1, found.2) := by
            funext found
            simp
          rw [whole]
          exact inductionHypothesis edge.target (walk ++ [edge])
            (extended nodes edge) (not_le.mp full)

/-! ## Edges of the store -/

theorem dependencies_subset {id : String} {edge : GlEdge}
    (member : edge ∈ dependencies runtime now db id) :
    edge ∈ listAllEdges db ∧ edge.source = id := by
  rw [dependencies, List.mem_insertionSort, edgesFrom, List.mem_map]
    at member
  obtain ⟨row, taken, rfl⟩ := member
  rw [List.mem_filter, Bool.and_eq_true, decide_eq_true_iff] at taken
  exact ⟨List.mem_map_of_mem taken.1, taken.2.1⟩

theorem nodup_ids : ((listAllEdges db).map GlEdge.id).Nodup := by
  rw [listAllEdges, List.map_map]
  exact db.edgeKeys

theorem nodup_dependencies (id : String) :
    (dependencies runtime now db id).Nodup := by
  rw [dependencies, (List.perm_insertionSort _ _).nodup_iff, edgesFrom]
  exact (List.filter_sublist.map rowToEdge).nodup
    (List.Nodup.of_map GlEdge.id nodup_ids)

theorem source_of_dependencies (id : String)
    (some' : dependencies runtime now db id ≠ []) :
    id ∈ (listAllEdges db).map GlEdge.source := by
  obtain ⟨edge, member⟩ := List.exists_mem_of_ne_nil _ some'
  obtain ⟨listed, rfl⟩ := dependencies_subset member
  exact List.mem_map_of_mem listed

theorem walk_eq {start other : String} {rest : List GlEdge}
    (isWalk : IsWalk (dependencies runtime now db) GlEdge.target start walk)
    (alsoWalk : IsWalk (dependencies runtime now db) GlEdge.target other
      rest) (ids : walk.map GlEdge.id = rest.map GlEdge.id) : walk = rest := by
  have apart := List.inj_on_of_nodup_map (@nodup_ids db)
  induction walk generalizing start other rest with
  | nil => exact (List.map_eq_nil_iff.mp ids.symm).symm
  | cons edge walk inductionHypothesis =>
    cases rest with
    | nil => cases ids
    | cons last rest =>
      obtain ⟨first, others⟩ := List.cons.inj ids
      rw [apart (dependencies_subset isWalk.1).1
        (dependencies_subset alsoWalk.1).1 first,
        inductionHypothesis isWalk.2 alsoWalk.2 others]

end Dependencies

/-! ## What an enumeration promises -/

section Promises

variable (runtime : Runtime) (now : String) (db : GraphLearnDb)
  (seed : String)

/-- A simple walk along dependencies to a leaf, or one closing a cycle. -/
abbrev TerminalWalk (walk : List GlEdge) : Prop :=
  IsTerminal (dependencies runtime now db) GlEdge.target seed walk

/-- A path reports a walk, simple but for its last node, and why it ends. -/
structure Reports (bound : Nat) (path : DependencyPath)
    (walk : List GlEdge) : Prop where
  isWalk : IsWalk (dependencies runtime now db) GlEdge.target seed walk
  simple : (passed GlEdge.target seed walk).Nodup
  nodeIds : path.nodeIds = seed :: walk.map GlEdge.target
  edgeIds : path.edgeIds = walk.map GlEdge.id
  hops : path.hops = walk.length
  leaf : path.terminal = .leaf ↔
    dependencies runtime now db (lastNode GlEdge.target seed walk) = []
  cycle : path.terminal = .cycle ↔
    lastNode GlEdge.target seed walk ∈ passed GlEdge.target seed walk
  maxHops : path.terminal = .maxHops ↔ walk.length = bound ∧
    dependencies runtime now db (lastNode GlEdge.target seed walk) ≠ [] ∧
    lastNode GlEdge.target seed walk ∉ passed GlEdge.target seed walk

/-- Every path is a walk of its own, and the coverage is what it says. -/
structure Honest (result : DependencyPathEnumeration) : Prop where
  reports : ∀ path ∈ result.paths, ∃ walk,
    Reports runtime now db seed result.truncation.maxHops path walk
  distinct : (result.paths.map DependencyPath.edgeIds).Nodup
  complete : result.coverage = .complete ↔ (getNode db seed).isSome ∧
    ∀ edgeIds, edgeIds ∈ result.paths.map DependencyPath.edgeIds ↔
      ∃ walk, TerminalWalk runtime now db seed walk ∧
        walk.map GlEdge.id = edgeIds
  omitted : ∃ missing : List (List GlEdge), missing.Nodup ∧
    (∀ walk ∈ missing, TerminalWalk runtime now db seed walk ∧
      walk.map GlEdge.id ∉ result.paths.map DependencyPath.edgeIds) ∧
    missing.length = result.truncation.omittedPathsAtLeast

variable {runtime now db seed}

theorem Grew.edgeIds {start after : Enumeration} {maxPaths : Nat}
    {found : List (List GlEdge × End)}
    (grew : Grew seed maxPaths start after found) (new : start.paths = []) :
    after.paths.map DependencyPath.edgeIds =
      (found.take maxPaths).map fun one => one.1.map GlEdge.id := by
  have views := congrArg (List.map fun view => view.2.1) grew.paths
  rw [Enumeration.room, new, List.length_nil, Nat.sub_zero, List.map_nil,
    List.nil_append, List.map_map, List.map_map] at views
  exact views

theorem boundedInt_pos (value : Option ℚ) :
    0 < boundedInt value 100 1 hardMaxPaths := by
  unfold boundedInt
  split
  · decide
  · exact lt_min (lt_max_of_lt_right Nat.one_pos) (by decide)

theorem Reports.of_ended {bound : Nat} {found : List GlEdge × End}
    (ended : Ended (dependencies runtime now db) GlEdge.target bound [] seed
      found.1 found.2) {path : DependencyPath}
    (view : path.view = shown seed found) :
    Reports runtime now db seed bound path found.1 := by
  have leaf := ended.leaf_iff
  have cycle := ended.cycle_iff
  rw [List.nil_append] at cycle
  have terminal : path.terminal = .ofEnd found.2 :=
    congrArg (fun view => view.2.2.2) view
  have kinds : (path.terminal = .leaf ↔ found.2 = .leaf) ∧
      (path.terminal = .cycle ↔ found.2 = .cycle) ∧
      (path.terminal = .maxHops ↔ found.2 = .cut) := by
    rw [terminal]
    cases found.2 <;> decide
  refine ⟨ended.isWalk, ended.simple, congrArg Prod.fst view,
    congrArg (fun view => view.2.1) view,
    congrArg (fun view => view.2.2.1) view, kinds.1.trans leaf,
    kinds.2.1.trans cycle, kinds.2.2.trans ?_⟩
  rw [Ne, ← leaf, ← cycle]
  constructor
  · intro isCut
    rw [isCut]
    exact ⟨ended.cut isCut, by decide, by decide⟩
  · rintro ⟨_, notLeaf, notCycle⟩
    cases kind : found.2 with
    | leaf => exact absurd kind notLeaf
    | cycle => exact absurd kind notCycle
    | cut => rfl

theorem enumerateDependencyPaths_honest (runtime : Runtime) (now : String)
    (db : GraphLearnDb) (seed : String) (maxHops maxPaths : Option ℚ) :
    Honest runtime now db seed
      (enumerateDependencyPaths runtime now db seed maxHops maxPaths) := by
  rw [enumerateDependencyPaths]
  generalize boundedInt maxHops 8 0 hardMaxHops = hops
  have some' := boundedInt_pos maxPaths
  generalize boundedInt maxPaths 100 1 hardMaxPaths = most at some' ⊢
  cases present : (getNode db seed).isSome with
  | false =>
    refine ⟨fun _ never => absurd never List.not_mem_nil, List.nodup_nil,
      iff_of_false (by simp) (by simp [present]), [], List.nodup_nil,
      fun _ never => absurd never List.not_mem_nil, rfl⟩
  | true =>
    have grew := @grew_visit runtime now db seed most hops seed []
      [seed] { paths := [], includedEdges := OrderedMap.empty
               pathLimitReached := false, depthLimitedPaths := 0 } rfl some'
    simp only [if_true, Bool.not_true, Bool.false_eq_true, if_false]
    generalize Enumeration.visit runtime now db most hops seed [seed] []
      { paths := [], includedEdges := OrderedMap.empty
        pathLimitReached := false, depthLimitedPaths := 0 } = all at grew ⊢
    simp only [List.nil_append, List.map_id'] at grew
    have edgeIds := grew.edgeIds rfl
    have sound : ∀ found ∈ (ends (dependencies runtime now db)
        GlEdge.target hops [seed] seed).take most,
        Ended (dependencies runtime now db) GlEdge.target hops [] seed
          found.1 found.2 :=
      fun found member => ended_of_mem_ends (List.mem_of_mem_take member)
    have apart : ((ends (dependencies runtime now db) GlEdge.target hops
        [seed] seed).take most).Pairwise fun found other =>
          Apart found.1 other.1 :=
      (pairwise_ends nodup_dependencies hops [seed] seed).sublist
        (List.take_sublist most _)
    obtain ⟨missing, nodup, count, absent⟩ :=
      @exists_missing _ _ (dependencies runtime now db) GlEdge.target _
        seed hops _ source_of_dependencies nodup_dependencies most
    have complete :=
      @complete_iff _ _ (dependencies runtime now db) GlEdge.target _
        seed hops _ source_of_dependencies nodup_dependencies most
    obtain ⟨paths, depth, limit⟩ := grew
    simp only [Enumeration.room, List.length_nil, Nat.sub_zero,
      List.map_nil, List.nil_append, Nat.zero_add, Bool.false_or]
      at paths depth limit
    generalize ends (dependencies runtime now db) GlEdge.target hops [seed]
      seed = tree at *
    generalize (tree.take most).countP (fun found => found.2 = .cut) = cuts
      at count complete depth
    have found_eq : ∀ {found : List GlEdge × End} {walk : List GlEdge},
        found ∈ tree.take most →
        IsWalk (dependencies runtime now db) GlEdge.target seed walk →
        found.1.map GlEdge.id = walk.map GlEdge.id → found.1 = walk :=
      fun member isWalk same => walk_eq (sound _ member).isWalk isWalk same
    constructor
    · intro path member
      have viewed := List.mem_map_of_mem (f := DependencyPath.view) member
      rw [paths] at viewed
      obtain ⟨found, inside, same⟩ := List.mem_map.mp viewed
      exact ⟨found.1, .of_ended (sound found inside) same.symm⟩
    · rw [edgeIds]
      refine List.pairwise_map.mpr (apart.imp_of_mem ?_)
      intro found other inside there separate same
      rw [found_eq inside (sound other there).isWalk same] at separate
      exact separate.1 List.prefix_rfl
    · rw [edgeIds, depth, limit]
      refine Iff.trans ?_ (complete.trans ?_)
      · by_cases uncut : cuts = 0 <;>
          by_cases more : most < tree.length <;> simp [uncut, more]
      · rw [and_iff_right present]
        constructor
        · intro same edgeIds
          rw [List.mem_map]
          constructor
          · rintro ⟨found, inside, rfl⟩
            exact ⟨found.1, (same _ (sound found inside).isWalk).mpr
              ⟨found, inside, rfl⟩, rfl⟩
          · rintro ⟨walk, terminal, rfl⟩
            obtain ⟨found, inside, rfl⟩ :=
              (same walk terminal.isWalk).mp terminal
            exact ⟨found, inside, rfl⟩
        · intro same walk isWalk
          constructor
          · intro terminal
            obtain ⟨found, inside, ids⟩ := List.mem_map.mp
              ((same _).mpr ⟨walk, terminal, rfl⟩)
            exact ⟨found, inside, found_eq inside isWalk ids⟩
          · rintro ⟨found, inside, rfl⟩
            obtain ⟨walk, terminal, ids⟩ := (same _).mp
              (List.mem_map_of_mem inside)
            rw [found_eq inside terminal.isWalk ids.symm]
            exact terminal
    · refine ⟨missing, nodup, fun walk member => ?_, ?_⟩
      · obtain ⟨terminal, other⟩ := absent walk member
        refine ⟨terminal, fun listed => ?_⟩
        rw [edgeIds] at listed
        obtain ⟨found, inside, same⟩ := List.mem_map.mp listed
        exact other found inside (found_eq inside terminal.isWalk same)
      · rw [count, depth, limit]
        by_cases more : most < tree.length <;> simp [more]

end Promises

end Mendpoint.Graph
