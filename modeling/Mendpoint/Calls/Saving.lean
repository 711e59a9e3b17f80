import Mendpoint.Calls.Disk
import Mendpoint.Calls.VersionIndex

/-!
# Saving and loading stores

Saving never removes a file, so that a directory holds the overlay of every
store which has been saved to it, and loading returns that overlay.
-/

namespace Mendpoint.Calls

open Mendpoint.Library
open Mendpoint.Library.Written
open Mendpoint.Library.JsonDirectory

/-! ## Stores with libraries -/

structure LibraryRef where
  id : String
  rootHash : String
  label : Option String

namespace LibraryRef

def fields (ref : LibraryRef) : List (String × Option Written) :=
  [("id", some (Codec.text.write ref.id)),
    ("rootHash", some (Codec.text.write ref.rootHash)),
    ("label", ref.label.map Codec.text.write)]

theorem nodup_fields (ref : LibraryRef) :
    (ref.fields.map Prod.fst).Nodup := by
  rw [fields]
  simp

def read (value : Written) : Option LibraryRef := do
  let id ← required Codec.text value "id"
  let rootHash ← required Codec.text value "rootHash"
  let label ← optional Codec.text value "label"
  return ⟨id, rootHash, label⟩

theorem read_write (arrangement : Arrangement) (ref : LibraryRef) :
    read (arrangement.apply (record ref.fields)) = some ref := by
  have distinct := ref.nodup_fields
  unfold read
  rw [required_record _ _ distinct ref.id (by simp [fields]),
    required_record _ _ distinct ref.rootHash (by simp [fields]),
    optional_record _ _ distinct ref.label (by simp [fields])]
  rfl

/-- An entry of the map of libraries, which is written as a pair. -/
def readPair : Written → Option (String × LibraryRef)
  | .arr [key, value] => do
      let name ← Codec.text.read key
      let ref ← read value
      return (name, ref)
  | _ => none

theorem readPair_write (arrangement : Arrangement)
    (entry : String × LibraryRef) :
    readPair (arrangement.apply
        (.arr [Codec.text.write entry.1, record entry.2.fields])) =
      some entry := by
  rw [arrangement.apply_arr, List.map_cons, List.map_singleton, readPair,
    Codec.text.read_write, read_write]
  rfl

def pairCodec : Codec (String × LibraryRef) where
  write entry := .arr [Codec.text.write entry.1, record entry.2.fields]
  read := readPair
  read_write := readPair_write

end LibraryRef

/-- A store as it is kept in memory. -/
structure LibraryStore extends PersistentGraphStore where
  libraries : OrderedMap String LibraryRef

def createLibraryStore (maxVersions : Option Nat) : LibraryStore where
  toPersistentGraphStore := createPersistentStore maxVersions
  libraries := OrderedMap.empty

def registerLibrary (store : LibraryStore) (ref : LibraryRef) :
    LibraryStore :=
  { store with libraries := store.libraries.set ref.id ref }

def tagVersion (store : LibraryStore) (versionId tag : String) :
    Except String LibraryStore :=
  match store.versions.get? versionId with
  | none => .error ("Unknown version " ++ versionId)
  | some version =>
    if tag ∈ version.tags then .ok store
    else .ok { store with
      versions := store.versions.set versionId
        { version with tags := version.tags ++ [tag] } }

/-! ## The directory -/

/-- A directory: the files of its four subdirectories, and two of its own. -/
structure StoreDir where
  nodes : OrderedMap String String
  edges : OrderedMap String String
  hierarchies : OrderedMap String String
  versions : OrderedMap String String
  head : Option String
  libraries : Option String

def StoreDir.empty : StoreDir where
  nodes := OrderedMap.empty
  edges := OrderedMap.empty
  hierarchies := OrderedMap.empty
  versions := OrderedMap.empty
  head := none
  libraries := none

/-- What `HEAD.json` holds. -/
def headFields (store : LibraryStore) : List (String × Option Written) :=
  [("currentVersionId", store.currentVersionId.map Codec.text.write),
    ("versionOrder", some (texts.write store.versionOrder)),
    ("maxVersions", some (Codec.nat.write store.maxVersions))]

/-- What `libraries.json` holds. -/
def librariesText (store : LibraryStore) : String :=
  ((Codec.list LibraryRef.pairCodec).write store.libraries.entries).stringify

/-- `saveStoreToDisk`, which makes the directory if it is not there. -/
def saveStoreToDisk (store : LibraryStore) (dir : Option StoreDir) :
    StoreDir :=
  let into := dir.getD StoreDir.empty
  { nodes := writeFiles StoredNodePayload.codec.write into.nodes store.nodes
    edges := writeFiles StoredEdgePayload.codec.write into.edges store.edges
    hierarchies :=
      writeFiles TypeHierarchy.write into.hierarchies store.hierarchies
    versions :=
      writeFiles GraphVersionMeta.codec.write into.versions store.versions
    head := some (record (headFields store)).stringify
    libraries := some (librariesText store) }

/-- Take over what `HEAD.json` holds. -/
def readHead (head : Option String) (store : LibraryStore) :
    Option LibraryStore :=
  match head with
  | none => some store
  | some text => do
      let value ← parse? text
      let current ← optional Codec.text value "currentVersionId"
      let order ← optional texts value "versionOrder"
      let most ← optional Codec.nat value "maxVersions"
      return { store with
        currentVersionId := current
        versionOrder := order.getD store.versions.keys
        maxVersions := most.getD store.maxVersions }

/-- Take over what `libraries.json` holds. -/
def readLibraries (libraries : Option String) (store : LibraryStore) :
    Option LibraryStore :=
  match libraries with
  | none => some store
  | some text => do
      let value ← parse? text
      let entries ← (Codec.list LibraryRef.pairCodec).read value
      return { store with libraries := OrderedMap.ofList entries }

/-- The objects and versions of a directory. -/
def readObjects (dir : StoreDir) : Option LibraryStore := do
  let nodes ← readFiles StoredNodePayload.codec.read (fun hash _ => hash)
    dir.nodes.entries OrderedMap.empty
  let edges ← readFiles StoredEdgePayload.codec.read (fun hash _ => hash)
    dir.edges.entries OrderedMap.empty
  let hierarchies ← readFiles TypeHierarchy.read (fun hash _ => hash)
    dir.hierarchies.entries OrderedMap.empty
  let versions ← readFiles GraphVersionMeta.codec.read
    (fun _ version => version.versionId) dir.versions.entries OrderedMap.empty
  return { createLibraryStore none with
    nodes := nodes
    edges := edges
    hierarchies := hierarchies
    versions := versions }

def loadStoreFromDisk (dir : Option StoreDir) : Option LibraryStore :=
  match dir with
  | none => some (createLibraryStore none)
  | some dir => do
      let objects ← readObjects dir
      let headed ← readHead dir.head objects
      readLibraries dir.libraries headed

/-! ## Overlays -/

/-- The directory which holds a store, and nothing else. -/
def dirOf (store : LibraryStore) : StoreDir where
  nodes := directoryOf StoredNodePayload.codec.write store.nodes
  edges := directoryOf StoredEdgePayload.codec.write store.edges
  hierarchies := directoryOf TypeHierarchy.write store.hierarchies
  versions := directoryOf GraphVersionMeta.codec.write store.versions
  head := some (record (headFields store)).stringify
  libraries := some (librariesText store)

/-- A store over the objects and versions of another one. -/
def overlay (under store : LibraryStore) : LibraryStore :=
  { store with
    nodes := under.nodes.setAll store.nodes.entries
    edges := under.edges.setAll store.edges.entries
    hierarchies := under.hierarchies.setAll store.hierarchies.entries
    versions := under.versions.setAll store.versions.entries }

/-- The overlay of stores, the latest on top. -/
def layered (stores : List LibraryStore) : LibraryStore :=
  stores.foldl overlay (createLibraryStore none)

/-- Every version is kept under its id. -/
def VersionsKeyed (store : LibraryStore) : Prop :=
  ∀ id version, store.versions.get? id = some version →
    version.versionId = id

theorem saveStoreToDisk_dirOf (under store : LibraryStore) :
    saveStoreToDisk store (some (dirOf under)) =
      dirOf (overlay under store) := by
  rw [saveStoreToDisk, dirOf, dirOf]
  dsimp only [Option.getD_some]
  rw [writeFiles_directoryOf, writeFiles_directoryOf, writeFiles_directoryOf,
    writeFiles_directoryOf]
  rfl

theorem saveStoreToDisk_none (store : LibraryStore) :
    saveStoreToDisk store none = dirOf (layered [store]) :=
  saveStoreToDisk_dirOf (createLibraryStore none) store

theorem layered_concat (stores : List LibraryStore) (store : LibraryStore) :
    layered (stores ++ [store]) = overlay (layered stores) store :=
  List.foldl_concat _ _ _ _

/-! ## Loading what has been saved -/

theorem optional_unchanged {α : Type} (codec : Codec α)
    {fields : List (String × Option Written)}
    (distinct : (fields.map Prod.fst).Nodup) (value : Option α)
    {name : String} (member : (name, value.map codec.write) ∈ fields) :
    optional codec (record fields) name = some value :=
  optional_record codec .unchanged distinct value member

theorem readHead_head (store other : LibraryStore) :
    readHead (dirOf store).head other =
      some { other with
        currentVersionId := store.currentVersionId
        versionOrder := store.versionOrder
        maxVersions := store.maxVersions } := by
  have distinct : ((headFields store).map Prod.fst).Nodup := by
    rw [headFields]
    simp
  rw [dirOf, readHead, parse?_stringify, Option.bind_eq_bind, Option.bind_some,
    optional_unchanged _ distinct store.currentVersionId
      (by simp [headFields]),
    optional_unchanged _ distinct (some store.versionOrder)
      (by simp [headFields]),
    optional_unchanged _ distinct (some store.maxVersions)
      (by simp [headFields])]
  rfl

theorem readLibraries_libraries (store other : LibraryStore) :
    readLibraries (dirOf store).libraries other =
      some { other with libraries := store.libraries } := by
  have entries := (Codec.list LibraryRef.pairCodec).read_write .unchanged
    store.libraries.entries
  rw [dirOf, readLibraries, librariesText, parse?_stringify, Option.bind_eq_bind, Option.bind_some,
    Option.bind_eq_bind]
  change ((Codec.list LibraryRef.pairCodec).read
    ((Codec.list LibraryRef.pairCodec).write store.libraries.entries)) = _
    at entries
  rw [entries, Option.bind_some, OrderedMap.ofList_entries]
  rfl

theorem loadStoreFromDisk_dirOf {store : LibraryStore}
    (keyed : VersionsKeyed store) :
    loadStoreFromDisk (some (dirOf store)) = some store := by
  have nodes : readFiles StoredNodePayload.codec.read (fun hash _ => hash)
      (dirOf store).nodes.entries OrderedMap.empty = some store.nodes :=
    readFiles_directoryOf (StoredNodePayload.codec.read_write .unchanged)
      store.nodes fun _ _ => rfl
  have edges : readFiles StoredEdgePayload.codec.read (fun hash _ => hash)
      (dirOf store).edges.entries OrderedMap.empty = some store.edges :=
    readFiles_directoryOf (StoredEdgePayload.codec.read_write .unchanged)
      store.edges fun _ _ => rfl
  have hierarchies : readFiles TypeHierarchy.read (fun hash _ => hash)
      (dirOf store).hierarchies.entries OrderedMap.empty =
        some store.hierarchies :=
    readFiles_directoryOf TypeHierarchy.read_write store.hierarchies
      fun _ _ => rfl
  have versions : readFiles GraphVersionMeta.codec.read
      (fun _ version => version.versionId) (dirOf store).versions.entries
      OrderedMap.empty = some store.versions :=
    readFiles_directoryOf (GraphVersionMeta.codec.read_write .unchanged)
      store.versions fun entry member =>
        keyed entry.1 entry.2 ((OrderedMap.mem_entries_iff _ _ _).mp member)
  have objects : readObjects (dirOf store) = some
      { createLibraryStore none with
        nodes := store.nodes
        edges := store.edges
        hierarchies := store.hierarchies
        versions := store.versions } := by
    unfold readObjects
    rw [nodes, edges, hierarchies, versions]
    rfl
  rw [loadStoreFromDisk, objects, Option.bind_eq_bind, Option.bind_some,
    readHead_head, Option.bind_some, readLibraries_libraries]

/-! ## Runs -/

inductive DiskAct where
  | commit (request : CommitRequest)
  | registerLibrary (ref : LibraryRef)
  | tagVersion (versionId tag : String)
  | save

/-- A store, its directory, and the stores which have been saved. -/
structure DiskState where
  store : LibraryStore
  dir : Option StoreDir
  saved : List LibraryStore

section Run

variable (sha256 : String → String)

def commitLibrary (store : LibraryStore) (request : CommitRequest) :
    LibraryStore :=
  { store with
    toPersistentGraphStore :=
      commit sha256 store.toPersistentGraphStore request }

/-- One act; to tag a version which there is not fails. -/
def diskStep (state : DiskState) : DiskAct → DiskState
  | .commit request =>
    { state with store := commitLibrary sha256 state.store request }
  | .registerLibrary ref =>
    { state with store := registerLibrary state.store ref }
  | .tagVersion versionId tag =>
    match tagVersion state.store versionId tag with
    | .error _ => state
    | .ok store => { state with store := store }
  | .save =>
    { state with
      dir := some (saveStoreToDisk state.store state.dir)
      saved := state.saved ++ [state.store] }

/-- The state after acts on a new store, without a directory. -/
def diskRun (maxVersions : Option Nat) (acts : List DiskAct) : DiskState :=
  Run.run (diskStep sha256)
    { store := createLibraryStore maxVersions
      dir := none
      saved := [] } acts

end Run

variable {sha256 : String → String}

/-- The directory holds the overlay of the saved stores. -/
structure Tracks (state : DiskState) : Prop where
  keyed : VersionsKeyed state.store
  savedKeyed : ∀ store ∈ state.saved, VersionsKeyed store
  dir : (state.saved = [] ∧ state.dir = none) ∨
    state.dir = some (dirOf (layered state.saved))

theorem VersionsKeyed.commit {store : LibraryStore}
    (keyed : VersionsKeyed store) (request : CommitRequest) :
    VersionsKeyed (commitLibrary sha256 store request) := by
  intro id version found
  have recorded := get?_of_dropOldVersions found
  rw [recordVersion, OrderedMap.get?_set] at recorded
  split at recorded
  · rename_i same
    rw [Option.some_inj] at recorded
    exact recorded ▸ same
  · exact keyed id version recorded

theorem VersionsKeyed.tag {store after : LibraryStore}
    (keyed : VersionsKeyed store) {versionId tag : String}
    (tagged : tagVersion store versionId tag = .ok after) :
    VersionsKeyed after := by
  rw [tagVersion] at tagged
  cases found : store.versions.get? versionId with
  | none =>
    rw [found] at tagged
    cases tagged
  | some version =>
    rw [found] at tagged
    dsimp only at tagged
    split at tagged
    · cases tagged
      exact keyed
    · cases tagged
      intro id other present
      rw [OrderedMap.get?_set] at present
      split at present
      · rename_i same
        rw [Option.some_inj] at present
        rw [← present, ← same]
        exact keyed versionId version found
      · exact keyed id other present

theorem VersionsKeyed.overlay {under store : LibraryStore}
    (underKeyed : VersionsKeyed under) (keyed : VersionsKeyed store) :
    VersionsKeyed (overlay under store) := by
  intro id version found
  rw [Calls.overlay, OrderedMap.get?_setAll_entries,
    Option.or_eq_some_iff] at found
  rcases found with new | ⟨_, old⟩
  · exact keyed id version new
  · exact underKeyed id version old

theorem versionsKeyed_layered {stores : List LibraryStore}
    (keyed : ∀ store ∈ stores, VersionsKeyed store) :
    VersionsKeyed (layered stores) := by
  induction stores using List.reverseRecOn with
  | nil =>
    intro id version found
    cases found
  | append_singleton init last inductionHypothesis =>
    rw [layered_concat]
    rw [List.forall_mem_append] at keyed
    exact (inductionHypothesis keyed.1).overlay
      (keyed.2 last List.mem_cons_self)

theorem Tracks.step {state : DiskState} (tracks : Tracks state)
    (act : DiskAct) : Tracks (diskStep sha256 state act) := by
  cases act with
  | commit request =>
    exact ⟨tracks.keyed.commit request, tracks.savedKeyed, tracks.dir⟩
  | registerLibrary ref =>
    exact ⟨tracks.keyed, tracks.savedKeyed, tracks.dir⟩
  | tagVersion versionId tag =>
    rw [diskStep]
    cases tagged : tagVersion state.store versionId tag with
    | error message => exact tracks
    | ok store =>
      exact ⟨tracks.keyed.tag tagged, tracks.savedKeyed, tracks.dir⟩
  | save =>
    refine ⟨tracks.keyed, ?_, .inr ?_⟩
    · rw [diskStep, List.forall_mem_append]
      refine ⟨tracks.savedKeyed, ?_⟩
      intro store member
      rw [List.mem_singleton] at member
      exact member ▸ tracks.keyed
    · rw [diskStep]
      rcases tracks.dir with ⟨none, missing⟩ | held
      · rw [none, missing, saveStoreToDisk_none, List.nil_append]
      · rw [held, saveStoreToDisk_dirOf, layered_concat]

theorem tracks_diskRun (maxVersions : Option Nat) (acts : List DiskAct) :
    Tracks (diskRun sha256 maxVersions acts) := by
  refine Run.run_invariant (fun state act tracks => tracks.step act) ?_ acts
  refine ⟨?_, List.forall_mem_nil _, .inl ⟨rfl, rfl⟩⟩
  intro id version found
  cases found

theorem load_diskRun (maxVersions : Option Nat) (acts : List DiskAct)
    (some : (diskRun sha256 maxVersions acts).saved ≠ []) :
    loadStoreFromDisk (diskRun sha256 maxVersions acts).dir =
      .some (layered (diskRun sha256 maxVersions acts).saved) := by
  have tracks := @tracks_diskRun sha256 maxVersions acts
  rcases tracks.dir with ⟨none, _⟩ | held
  · exact absurd none some
  · rw [held, loadStoreFromDisk_dirOf
      (versionsKeyed_layered tracks.savedKeyed)]

/-! ## What is loaded -/

/-- Two stores with the same versions, order, libraries and object maps. -/
structure SameStore (loaded store : LibraryStore) : Prop where
  nodes : ∀ hash, loaded.nodes.get? hash = store.nodes.get? hash
  edges : ∀ hash, loaded.edges.get? hash = store.edges.get? hash
  hierarchies : ∀ hash,
    loaded.hierarchies.get? hash = store.hierarchies.get? hash
  versions : ∀ id, loaded.versions.get? id = store.versions.get? id
  versionOrder : loaded.versionOrder = store.versionOrder
  currentVersionId : loaded.currentVersionId = store.currentVersionId
  maxVersions : loaded.maxVersions = store.maxVersions
  libraries : loaded.libraries = store.libraries

/-- No object and no version of a store is missing from a later one. -/
structure KeysKept (earlier later : LibraryStore) : Prop where
  nodes : earlier.nodes.keys ⊆ later.nodes.keys
  edges : earlier.edges.keys ⊆ later.edges.keys
  hierarchies : earlier.hierarchies.keys ⊆ later.hierarchies.keys
  versions : earlier.versions.keys ⊆ later.versions.keys

theorem overlaid_iff {β : Type} (under map : OrderedMap String β) :
    (∀ key, (under.setAll map.entries).get? key = map.get? key) ↔
      under.keys ⊆ map.keys := by
  constructor
  · intro same key member
    by_contra absent
    rw [OrderedMap.not_mem_keys_iff] at absent
    have found := same key
    rw [OrderedMap.get?_setAll_entries, absent, Option.none_or,
      ← OrderedMap.not_mem_keys_iff] at found
    exact found member
  · intro kept key
    rw [OrderedMap.get?_setAll_entries]
    cases found : map.get? key with
    | some value => rfl
    | none =>
      rw [Option.none_or, ← OrderedMap.not_mem_keys_iff]
      rw [← OrderedMap.not_mem_keys_iff] at found
      exact fun member => found (kept member)

theorem sameStore_overlay_iff (under store : LibraryStore) :
    SameStore (overlay under store) store ↔ KeysKept under store := by
  constructor
  · intro same
    exact ⟨(overlaid_iff _ _).mp same.nodes, (overlaid_iff _ _).mp same.edges,
      (overlaid_iff _ _).mp same.hierarchies,
      (overlaid_iff _ _).mp same.versions⟩
  · intro kept
    exact ⟨(overlaid_iff _ _).mpr kept.nodes,
      (overlaid_iff _ _).mpr kept.edges,
      (overlaid_iff _ _).mpr kept.hierarchies,
      (overlaid_iff _ _).mpr kept.versions, rfl, rfl, rfl, rfl⟩

theorem keys_setAll_subset {β : Type} (under map : OrderedMap String β)
    (keys : List String) :
    (under.setAll map.entries).keys ⊆ keys ↔
      under.keys ⊆ keys ∧ map.keys ⊆ keys := by
  constructor
  · intro within
    refine ⟨fun key member => within ?_, fun key member => within ?_⟩
    · exact (OrderedMap.mem_keys_setAll _ _ _).mpr (.inl member)
    · exact (OrderedMap.mem_keys_setAll _ _ _).mpr (.inr member)
  · rintro ⟨underWithin, within⟩ key member
    rcases (OrderedMap.mem_keys_setAll _ _ _).mp member with old | new
    · exact underWithin old
    · exact within new

theorem keysKept_overlay_iff (under store later : LibraryStore) :
    KeysKept (overlay under store) later ↔
      KeysKept under later ∧ KeysKept store later := by
  constructor
  · intro kept
    have nodes := (keys_setAll_subset _ _ _).mp kept.nodes
    have edges := (keys_setAll_subset _ _ _).mp kept.edges
    have hierarchies := (keys_setAll_subset _ _ _).mp kept.hierarchies
    have versions := (keys_setAll_subset _ _ _).mp kept.versions
    exact ⟨⟨nodes.1, edges.1, hierarchies.1, versions.1⟩,
      nodes.2, edges.2, hierarchies.2, versions.2⟩
  · rintro ⟨underKept, kept⟩
    exact ⟨(keys_setAll_subset _ _ _).mpr ⟨underKept.nodes, kept.nodes⟩,
      (keys_setAll_subset _ _ _).mpr ⟨underKept.edges, kept.edges⟩,
      (keys_setAll_subset _ _ _).mpr
        ⟨underKept.hierarchies, kept.hierarchies⟩,
      (keys_setAll_subset _ _ _).mpr ⟨underKept.versions, kept.versions⟩⟩

theorem keysKept_layered_iff (stores : List LibraryStore)
    (later : LibraryStore) :
    KeysKept (layered stores) later ↔
      ∀ store ∈ stores, KeysKept store later := by
  induction stores using List.reverseRecOn with
  | nil =>
    refine ⟨fun _ => List.forall_mem_nil _, fun _ => ?_⟩
    exact ⟨List.nil_subset _, List.nil_subset _, List.nil_subset _,
      List.nil_subset _⟩
  | append_singleton init last inductionHypothesis =>
    rw [layered_concat, keysKept_overlay_iff, inductionHypothesis,
      List.forall_mem_append, List.forall_mem_singleton]

theorem KeysKept.refl (store : LibraryStore) : KeysKept store store :=
  ⟨List.Subset.refl _, List.Subset.refl _, List.Subset.refl _,
    List.Subset.refl _⟩

/--
What is loaded is the store of the last save exactly when nothing which has
been saved is missing from it.
-/
theorem load_same_iff (maxVersions : Option Nat) (acts : List DiskAct)
    {last : LibraryStore}
    (saved : (diskRun sha256 maxVersions acts).saved.getLast? = some last) :
    (∃ loaded,
        loadStoreFromDisk (diskRun sha256 maxVersions acts).dir =
          some loaded ∧ SameStore loaded last) ↔
      ∀ earlier ∈ (diskRun sha256 maxVersions acts).saved,
        KeysKept earlier last := by
  obtain ⟨init, split⟩ := List.getLast?_eq_some_iff.mp saved
  have filled : (diskRun sha256 maxVersions acts).saved ≠ [] := by
    rw [split]
    exact List.concat_ne_nil _ _
  have loads := load_diskRun maxVersions acts filled
  rw [loads, split, layered_concat, List.forall_mem_append,
    List.forall_mem_singleton, ← keysKept_layered_iff,
    ← sameStore_overlay_iff]
  constructor
  · rintro ⟨loaded, same, kept⟩
    cases same
    exact ⟨kept, KeysKept.refl last⟩
  · rintro ⟨same, _⟩
    exact ⟨_, rfl, same⟩

/-- Two commits to a window of one version, each of them saved. -/
def savedTwice : List DiskAct :=
  [.commit (blankCommit 0), .save, .commit (blankCommit 1), .save]

theorem load_same_iff_savedTwice :
    (∃ loaded,
        loadStoreFromDisk (diskRun fixedDigest (some 1) savedTwice).dir =
          some loaded ∧
        SameStore loaded
          (diskRun fixedDigest (some 1) savedTwice).store) ↔
      ∀ earlier ∈ (diskRun fixedDigest (some 1) savedTwice).saved,
        KeysKept earlier (diskRun fixedDigest (some 1) savedTwice).store :=
  load_same_iff (some 1) savedTwice rfl

/-- A version which has left the window is loaded again. -/
theorem savedTwice_loads_dropped_version :
    ¬ ∃ loaded,
      loadStoreFromDisk (diskRun fixedDigest (some 1) savedTwice).dir =
        some loaded ∧
      SameStore loaded (diskRun fixedDigest (some 1) savedTwice).store := by
  rintro ⟨loaded, loads, same⟩
  rw [load_diskRun (some 1) savedTwice (List.cons_ne_nil _ _),
    Option.some_inj] at loads
  subst loads
  have dropped := same.versions "v-0-70f1071a"
  have gone : ((diskRun fixedDigest (some 1)
      savedTwice).store.versions.get? "v-0-70f1071a").isSome = false := by
    decide
  have there : ((layered (diskRun fixedDigest (some 1)
      savedTwice).saved).versions.get? "v-0-70f1071a").isSome = true := by
    decide
  rw [dropped, gone] at there
  cases there

end Mendpoint.Calls
