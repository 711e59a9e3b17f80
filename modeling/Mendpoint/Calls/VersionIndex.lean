import Mendpoint.Calls.Persistent
import Mendpoint.Library.Run

/-!
# The window of retained versions

After a commit the window should list exactly the stored versions, once each,
contain the current one, and refer only to objects of the store.  A commit
keeps this exactly when its version identifier is free: the identifier joins a
clock reading and a content hash, so repeating a commit within a millisecond
lists one version twice, unless that version is the one being evicted.
-/

namespace Mendpoint.Calls

open Mendpoint.Library

/-- The store has every object to which a version refers. -/
def Stored (store : PersistentGraphStore) (version : GraphVersionMeta) :
    Prop :=
  (∀ hash ∈ version.nodeHashes, hash ∈ store.nodes.keys) ∧
    (∀ hash ∈ version.edgeHashes, hash ∈ store.edges.keys) ∧
      version.hierarchyHash ∈ store.hierarchies.keys

/-- What the window of a store promises after a commit. -/
structure Retained (store : PersistentGraphStore) : Prop where
  distinct : store.versionOrder.Nodup
  listed :
    ∀ id, id ∈ store.versionOrder ↔ id ∈ store.versions.keys
  bounded : store.versionOrder.length ≤ store.maxVersions
  current :
    ∃ id ∈ store.versionOrder, store.currentVersionId = some id
  stored :
    ∀ id ∈ store.versionOrder, ∀ version,
      store.versions.get? id = some version → Stored store version

/-- What the window satisfies between commits, also before the first. -/
structure VersionIndex (store : PersistentGraphStore) : Prop where
  windowed : 1 ≤ store.maxVersions
  named : "" ∉ store.versionOrder
  distinct : store.versionOrder.Nodup
  listed :
    ∀ id, id ∈ store.versionOrder ↔ id ∈ store.versions.keys
  bounded : store.versionOrder.length ≤ store.maxVersions
  stored :
    ∀ id version, store.versions.get? id = some version →
      Stored store version

/--
The version identifier of a request is not listed, or it is that of the oldest
version of a full window.
-/
def VersionIdFree (sha256 : String → String) (store : PersistentGraphStore)
    (request : CommitRequest) : Prop :=
  versionIdOf sha256 request ∉ store.versionOrder ∨
    (store.versionOrder.length = store.maxVersions ∧
      store.versionOrder.head? = some (versionIdOf sha256 request))

/-! ## Compaction -/

theorem dropOldVersions_fits (maxVersions : Nat) (current : Option String)
    {order : List String} (versions : OrderedMap String GraphVersionMeta)
    (fits : order.length ≤ maxVersions) :
    dropOldVersions maxVersions current order versions =
      (order, versions) := by
  cases order with
  | nil => rfl
  | cons old rest => rw [dropOldVersions, if_neg (Nat.not_lt.mpr fits)]

theorem dropOldVersions_over {maxVersions : Nat} (current : Option String)
    {old : String} {rest : List String}
    (versions : OrderedMap String GraphVersionMeta)
    (full : rest.length = maxVersions) :
    dropOldVersions maxVersions current (old :: rest) versions =
      (rest,
        if old ≠ "" ∧ current ≠ some old then versions.delete old
        else versions) := by
  rw [dropOldVersions, if_pos (by simp [full])]
  exact dropOldVersions_fits maxVersions current _ (Nat.le_of_eq full)

theorem get?_of_dropOldVersions {maxVersions : Nat}
    {current : Option String} {order : List String}
    {versions : OrderedMap String GraphVersionMeta} {id : String}
    {version : GraphVersionMeta}
    (found :
      (dropOldVersions maxVersions current order versions).2.get? id =
        some version) :
    versions.get? id = some version := by
  induction order generalizing versions with
  | nil => exact found
  | cons old rest inductionHypothesis =>
    rw [dropOldVersions] at found
    split at found
    · have kept := inductionHypothesis found
      split at kept
      · rw [OrderedMap.get?_delete] at kept
        split at kept
        · cases kept
        · exact kept
      · exact kept
    · exact found

/-! ## Stored objects -/

theorem Stored.internGraph {store : PersistentGraphStore}
    {version : GraphVersionMeta} (stored : Stored store version)
    (graph : CallGraph) :
    Stored (internGraph store graph) version := by
  refine ⟨?_, ?_, ?_⟩
  · intro hash member
    exact (OrderedMap.mem_keys_setAllNew _ _ _).mpr
      (Or.inl (stored.1 hash member))
  · intro hash member
    exact (OrderedMap.mem_keys_setAllNew _ _ _).mpr
      (Or.inl (stored.2.1 hash member))
  · exact (OrderedMap.mem_keys_setNew _ _ _ _).mpr (Or.inr stored.2.2)

theorem stored_versionMeta (sha256 : String → String)
    (store : PersistentGraphStore) (request : CommitRequest) :
    Stored (internGraph store request.graph)
      (versionMeta sha256 store request) := by
  refine ⟨?_, ?_, ?_⟩
  · intro hash member
    rw [versionMeta, uniqueNodes, uniq, List.mem_eraseDups] at member
    refine (OrderedMap.mem_keys_setAllNew _ _ _).mpr (Or.inr ?_)
    rw [List.map_map]
    exact member
  · intro hash member
    rw [versionMeta, uniqueEdges, uniq, List.mem_eraseDups] at member
    refine (OrderedMap.mem_keys_setAllNew _ _ _).mpr (Or.inr ?_)
    rw [List.map_map]
    exact member
  · exact (OrderedMap.mem_keys_setNew _ _ _ _).mpr (Or.inl rfl)

theorem Stored.gcUnreferenced {store : PersistentGraphStore}
    {version : GraphVersionMeta} (stored : Stored store version)
    (retained : version ∈ store.versions.values) :
    Stored (gcUnreferenced store) version := by
  refine ⟨?_, ?_, ?_⟩
  · intro hash member
    refine (OrderedMap.mem_keys_filterKeys _ _ _).mpr
      ⟨stored.1 hash member, ?_⟩
    exact decide_eq_true
      (List.mem_flatMap.mpr ⟨version, retained, member⟩)
  · intro hash member
    refine (OrderedMap.mem_keys_filterKeys _ _ _).mpr
      ⟨stored.2.1 hash member, ?_⟩
    exact decide_eq_true
      (List.mem_flatMap.mpr ⟨version, retained, member⟩)
  · refine (OrderedMap.mem_keys_filterKeys _ _ _).mpr ⟨stored.2.2, ?_⟩
    exact decide_eq_true (List.mem_map.mpr ⟨version, retained, rfl⟩)

/-! ## One commit -/

section Commit

variable (sha256 : String → String)

theorem versionIdOf_ne_empty (request : CommitRequest) :
    versionIdOf sha256 request ≠ "" := by
  intro empty
  have lengths := congrArg (fun text => text.toList.length) empty
  simp [versionIdOf] at lengths

theorem commit_window (store : PersistentGraphStore)
    (request : CommitRequest) :
    ((commit sha256 store request).versionOrder,
        (commit sha256 store request).versions) =
      dropOldVersions store.maxVersions
        (some (versionIdOf sha256 request))
        (store.versionOrder ++ [versionIdOf sha256 request])
        (store.versions.set (versionIdOf sha256 request)
          (versionMeta sha256 store request)) := rfl

theorem commit_maxVersions (store : PersistentGraphStore)
    (request : CommitRequest) :
    (commit sha256 store request).maxVersions = store.maxVersions := rfl

variable {store : PersistentGraphStore}

theorem commit_stored (index : VersionIndex store) (request : CommitRequest)
    {id : String} {version : GraphVersionMeta}
    (found : (commit sha256 store request).versions.get? id = some version) :
    Stored (commit sha256 store request) version := by
  have known := get?_of_dropOldVersions found
  have interned : Stored (internGraph store request.graph) version := by
    change (store.versions.set (versionIdOf sha256 request)
      (versionMeta sha256 store request)).get? id = some version at known
    rw [OrderedMap.get?_set] at known
    split at known
    · cases known
      exact stored_versionMeta sha256 store request
    · exact (index.stored id version known).internGraph request.graph
  exact Stored.gcUnreferenced interned
    ((OrderedMap.mem_values_iff _ _).mpr ⟨id, found⟩)

theorem commit_fits (request : CommitRequest)
    (room : store.versionOrder.length < store.maxVersions) :
    (commit sha256 store request).versionOrder =
        store.versionOrder ++ [versionIdOf sha256 request] ∧
      (commit sha256 store request).versions =
        store.versions.set (versionIdOf sha256 request)
          (versionMeta sha256 store request) := by
  have window := commit_window sha256 store request
  rw [dropOldVersions_fits _ _ _
    (by simpa using Nat.succ_le_of_lt room)] at window
  exact Prod.ext_iff.mp window

theorem commit_over (request : CommitRequest) {old : String}
    {rest : List String} (order : store.versionOrder = old :: rest)
    (full : store.versionOrder.length = store.maxVersions) (named : old ≠ "") :
    (commit sha256 store request).versionOrder =
        rest ++ [versionIdOf sha256 request] ∧
      (commit sha256 store request).versions =
        (if versionIdOf sha256 request = old then
          store.versions.set (versionIdOf sha256 request)
            (versionMeta sha256 store request)
        else
          (store.versions.set (versionIdOf sha256 request)
            (versionMeta sha256 store request)).delete old) := by
  have window := commit_window sha256 store request
  rw [order, List.cons_append,
    dropOldVersions_over _ _ (by simpa [order] using full)] at window
  obtain ⟨newOrder, newVersions⟩ := Prod.ext_iff.mp window
  refine ⟨newOrder, newVersions.trans ?_⟩
  by_cases same : versionIdOf sha256 request = old <;> simp [same, named]

theorem versionIdFree_of_distinct (index : VersionIndex store)
    (request : CommitRequest)
    (distinct : (commit sha256 store request).versionOrder.Nodup) :
    VersionIdFree sha256 store request := by
  by_cases taken : versionIdOf sha256 request ∈ store.versionOrder
  · right
    rcases Nat.lt_or_eq_of_le index.bounded with room | full
    · rw [(commit_fits sha256 request room).1, List.nodup_append] at distinct
      exact (distinct.2.2 _ taken _ (by simp) rfl).elim
    · refine ⟨full, ?_⟩
      cases order : store.versionOrder with
      | nil =>
        rw [order] at taken
        cases taken
      | cons old rest =>
        have named : old ≠ "" := by
          rintro rfl
          exact index.named (by simp [order])
        rw [(commit_over sha256 request order full named).1,
          List.nodup_append] at distinct
        rw [order] at taken
        rcases List.mem_cons.mp taken with same | later
        · rw [List.head?_cons, same]
        · exact (distinct.2.2 _ later _ (by simp) rfl).elim
  · exact Or.inl taken

theorem commit_versionIndex (index : VersionIndex store)
    (request : CommitRequest) (free : VersionIdFree sha256 store request) :
    VersionIndex (commit sha256 store request) := by
  have notEmpty := versionIdOf_ne_empty sha256 request
  have stored : ∀ id version,
      (commit sha256 store request).versions.get? id = some version →
        Stored (commit sha256 store request) version :=
    fun _ _ found => commit_stored sha256 index request found
  rcases Nat.lt_or_eq_of_le index.bounded with room | full
  · obtain ⟨order, versions⟩ := commit_fits sha256 request room
    have fresh : versionIdOf sha256 request ∉ store.versionOrder := by
      rcases free with fresh | ⟨full, _⟩
      · exact fresh
      · omega
    constructor
    · exact index.windowed
    · rw [order]
      simp [index.named, notEmpty.symm]
    · rw [order]
      exact List.Nodup.append index.distinct (List.nodup_singleton _)
        (List.disjoint_singleton.mpr fresh)
    · intro id
      rw [order, versions, OrderedMap.mem_keys_set, List.mem_append,
        List.mem_singleton, index.listed]
      exact or_comm
    · rw [order, commit_maxVersions]
      simpa using Nat.succ_le_of_lt room
    · exact stored
  · cases orderShape : store.versionOrder with
    | nil =>
      have windowed := index.windowed
      rw [← full, orderShape] at windowed
      simp at windowed
    | cons old rest =>
      have named : old ≠ "" := by
        rintro rfl
        exact index.named (by simp [orderShape])
      obtain ⟨order, versions⟩ :=
        commit_over sha256 request orderShape full named
      have distinct := index.distinct
      rw [orderShape, List.nodup_cons] at distinct
      have restNamed : "" ∉ rest := fun member =>
        index.named (by simp [orderShape, member])
      have fresh : versionIdOf sha256 request ∉ rest := by
        rcases free with fresh | ⟨_, head⟩
        · exact fun member => fresh (by simp [orderShape, member])
        · rw [orderShape, List.head?_cons, Option.some.injEq] at head
          rw [← head]
          exact distinct.1
      have listed := index.listed
      simp only [orderShape, List.mem_cons] at listed
      constructor
      · exact index.windowed
      · rw [order]
        simp [restNamed, notEmpty.symm]
      · rw [order]
        exact List.Nodup.append distinct.2 (List.nodup_singleton _)
          (List.disjoint_singleton.mpr fresh)
      · intro id
        rw [order, versions, List.mem_append, List.mem_singleton]
        split
        · rename_i same
          rw [OrderedMap.mem_keys_set, ← listed, same]
          tauto
        · rename_i different
          rw [OrderedMap.mem_keys_delete, OrderedMap.mem_keys_set,
            ← listed]
          constructor
          · rintro (member | rfl)
            · refine ⟨Or.inr (Or.inr member), ?_⟩
              rintro rfl
              exact distinct.1 member
            · exact ⟨Or.inl rfl, different⟩
          · rintro ⟨rfl | rfl | member, notOld⟩
            · exact Or.inr rfl
            · exact (notOld rfl).elim
            · exact Or.inl member
      · rw [order, commit_maxVersions]
        rw [orderShape] at full
        simpa using Nat.le_of_eq full
      · exact stored

theorem retained_of_versionIndex (index : VersionIndex store)
    (current : ∃ id ∈ store.versionOrder, store.currentVersionId = some id) :
    Retained store where
  distinct := index.distinct
  listed := index.listed
  bounded := index.bounded
  current := current
  stored := fun id _ version found => index.stored id version found

theorem commit_lists_current (index : VersionIndex store)
    (request : CommitRequest) :
    ∃ id ∈ (commit sha256 store request).versionOrder,
      (commit sha256 store request).currentVersionId = some id := by
  refine ⟨versionIdOf sha256 request, ?_, rfl⟩
  rcases Nat.lt_or_eq_of_le index.bounded with room | full
  · rw [(commit_fits sha256 request room).1]
    simp
  · cases order : store.versionOrder with
    | nil =>
      have windowed := index.windowed
      rw [← full, order] at windowed
      simp at windowed
    | cons old rest =>
      have named : old ≠ "" := by
        rintro rfl
        exact index.named (by simp [order])
      rw [(commit_over sha256 request order full named).1]
      simp

theorem commit_retained_iff (index : VersionIndex store)
    (request : CommitRequest) :
    Retained (commit sha256 store request) ↔
      VersionIdFree sha256 store request := by
  constructor
  · intro retained
    exact versionIdFree_of_distinct sha256 index request retained.distinct
  · intro free
    exact retained_of_versionIndex
      (commit_versionIndex sha256 index request free)
      (commit_lists_current sha256 index request)

theorem createPersistentStore_versionIndex {maxVersions : Option Nat}
    (windowed : 1 ≤ maxVersions.getD 8) :
    VersionIndex (createPersistentStore maxVersions) := by
  constructor
  · exact windowed
  · simp [createPersistentStore]
  · simp [createPersistentStore]
  · intro id
    simp [createPersistentStore, EmptyCollection.emptyCollection]
  · simp [createPersistentStore]
  · intro id version found
    cases found

/--
The window keeps its promise after every commit of a run exactly when every
commit of the run finds its version identifier free.
-/
theorem retained_throughout_iff
    (maxVersions : Option Nat) (windowed : 1 ≤ maxVersions.getD 8)
    (requests : List CommitRequest) :
    Run.Throughout (commit sha256) Retained
        (createPersistentStore maxVersions) requests ↔
      Run.Along (commit sha256) (VersionIdFree sha256)
        (createPersistentStore maxVersions) requests := by
  refine Run.throughout_iff_along ?_ ?_
    (createPersistentStore_versionIndex windowed) requests
  · intro store request index retained
    exact commit_versionIndex sha256 index request
      ((commit_retained_iff sha256 index request).mp retained)
  · intro store request index
    exact commit_retained_iff sha256 index request

end Commit

/-! ## A repeated commit -/

/-- The call graph of a repository without functions. -/
def blankGraph : CallGraph where
  repoRoot := "/repo"
  algorithm := .hybrid
  nodes := ∅
  edges := []
  outEdges := ∅
  inEdges := ∅
  byName := ∅
  hierarchy := emptyHierarchy
  stats := ⟨0, 0, 0, 0⟩

/-- The SHA-256 digest of the blank graph's root text, for every text. -/
def fixedDigest : String → String := fun _ =>
  "70f1071a41f24293eb483f349cbadf0dbca58b75d1d2c6ef99a44f067be6accf"

/-- A commit of the blank graph at a millisecond of the epoch. -/
def blankCommit (now : Nat) : CommitRequest where
  graph := blankGraph
  now := now
  createdAt := "1970-01-01T00:00:00.000Z"

/-- The characterisation on a run of two commits a millisecond apart. -/
theorem retained_throughout_iff_two :
    Run.Throughout (commit fixedDigest) Retained
        (createPersistentStore (some 2)) [blankCommit 0, blankCommit 1] ↔
      Run.Along (commit fixedDigest) (VersionIdFree fixedDigest)
        (createPersistentStore (some 2)) [blankCommit 0, blankCommit 1] :=
  retained_throughout_iff fixedDigest (some 2) (by decide)
    [blankCommit 0, blankCommit 1]

/--
Committing a graph twice in one millisecond lists its version twice; the next
commit then evicts the version while the window still lists it.
-/
theorem repeated_commit_loses_version :
    ¬ Retained
        (Run.run (commit fixedDigest) (createPersistentStore (some 2))
          [blankCommit 0, blankCommit 0]) ∧
      (let store :=
        Run.run (commit fixedDigest) (createPersistentStore (some 2))
          [blankCommit 0, blankCommit 0, blankCommit 1]
      store.versionOrder = ["v-0-70f1071a", "v-1-70f1071a"] ∧
        store.versions.get? "v-0-70f1071a" = none) := by
  constructor
  · intro retained
    exact absurd retained.distinct (by decide)
  · decide

end Mendpoint.Calls
