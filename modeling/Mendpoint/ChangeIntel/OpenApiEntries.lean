import Mendpoint.ChangeIntel.OpenApiDiff

/-!
# Which entries belong to an operation

The entries of an operation which both documents have on one path are those of
its request fields followed by those of its response fields.  The traversal
threads two resolvers, but what it emits depends on the two documents alone.
-/

namespace Mendpoint.ChangeIntel

open Mendpoint.Library

/-! ## Readings of one operation -/

theorem requestBodySchema_root (operation : Option Json)
    (resolver : SchemaResolver) :
    (requestBodySchema operation resolver).2.root = resolver.root := by
  simp only [requestBodySchema, SchemaResolver.deref_root]

variable {left right : SchemaResolver}

theorem requestBodySchema_fst (operation : Option Json)
    (same : left.root = right.root) :
    (requestBodySchema operation left).1 =
      (requestBodySchema operation right).1 := by
  simp only [requestBodySchema, SchemaResolver.deref_fst same]

theorem responseSchema_root (operation : Option Json)
    (resolver : SchemaResolver) :
    (responseSchema operation resolver).2.root = resolver.root := by
  simp only [responseSchema, SchemaResolver.deref_root]

theorem responseSchema_fst (operation : Option Json)
    (same : left.root = right.root) :
    (responseSchema operation left).1 =
      (responseSchema operation right).1 := by
  simp only [responseSchema, SchemaResolver.deref_fst same]

theorem readRequest_root (operation : Option Json)
    (resolver : SchemaResolver) :
    (readRequest operation resolver).2.root = resolver.root := by
  rw [readRequest, SchemaResolver.properties_root, requestBodySchema_root]

theorem readRequest_fst (operation : Option Json)
    (same : left.root = right.root) :
    (readRequest operation left).1 = (readRequest operation right).1 := by
  have roots : (requestBodySchema operation left).2.root =
      (requestBodySchema operation right).2.root := by
    rw [requestBodySchema_root, requestBodySchema_root, same]
  rw [readRequest, readRequest, requestBodySchema_fst operation same,
    SchemaResolver.properties_fst roots]

theorem readResponse_root (operation : Option Json)
    (resolver : SchemaResolver) :
    (readResponse operation resolver).2.root = resolver.root := by
  rw [readResponse, SchemaResolver.properties_root, responseSchema_root]

theorem readResponse_fst (operation : Option Json)
    (same : left.root = right.root) :
    (readResponse operation left).1 = (readResponse operation right).1 := by
  have roots : (responseSchema operation left).2.root =
      (responseSchema operation right).2.root := by
    rw [responseSchema_root, responseSchema_root, same]
  rw [readResponse, readResponse, responseSchema_fst operation same,
    SchemaResolver.properties_fst roots]

/-! ## Threading the resolvers -/

/-- Two pairs of resolvers which read the same two documents. -/
def Resolvers.SameRoots (left right : Resolvers) : Prop :=
  left.old.root = right.old.root ∧ left.new.root = right.new.root

theorem Resolvers.SameRoots.trans {first second third : Resolvers}
    (left : first.SameRoots second) (right : second.SameRoots third) :
    first.SameRoots third :=
  ⟨left.1.trans right.1, left.2.trans right.2⟩

/--
A traversal which emits what the documents determine, and keeps the documents,
emits the entries of its items in order.
-/
theorem foldl_entries {ι : Type}
    (visit : ι → Resolvers → List DiffEntry × Resolvers)
    (stable : ∀ item left right, Resolvers.SameRoots left right →
      (visit item left).1 = (visit item right).1)
    (kept : ∀ item resolvers, (visit item resolvers).2.SameRoots resolvers)
    (items : List ι) (entries : List DiffEntry) (resolvers : Resolvers) :
    (items.foldl (fun state item =>
        (state.1 ++ (visit item state.2).1, (visit item state.2).2))
      (entries, resolvers)).1 =
        entries ++ items.flatMap (fun item => (visit item resolvers).1) ∧
      (items.foldl (fun state item =>
          (state.1 ++ (visit item state.2).1, (visit item state.2).2))
        (entries, resolvers)).2.SameRoots resolvers := by
  induction items generalizing entries resolvers with
  | nil => simp [Resolvers.SameRoots]
  | cons item rest inductionHypothesis =>
    rcases inductionHypothesis (entries ++ (visit item resolvers).1)
      (visit item resolvers).2 with ⟨emitted, roots⟩
    rw [List.foldl_cons]
    constructor
    · rw [emitted, List.flatMap_cons, List.append_assoc]
      congr 2
      apply congrArg List.flatten
      apply List.map_congr_left
      intro other _
      exact stable other _ _ (kept item resolvers)
    · exact roots.trans (kept item resolvers)

variable (toLowerCase : String → String)

theorem diffOperation_fst (path method : String)
    (oldOperation newOperation : Option Json) {left right : Resolvers}
    (same : left.SameRoots right) :
    (diffOperation toLowerCase path method oldOperation newOperation
        left).1 =
      (diffOperation toLowerCase path method oldOperation newOperation
        right).1 := by
  have oldRoots : (readRequest oldOperation left.old).2.root =
      (readRequest oldOperation right.old).2.root := by
    rw [readRequest_root, readRequest_root, same.1]
  have newRoots : (readRequest newOperation left.new).2.root =
      (readRequest newOperation right.new).2.root := by
    rw [readRequest_root, readRequest_root, same.2]
  simp only [diffOperation, readRequest_fst _ same.1,
    readRequest_fst _ same.2, readResponse_fst _ oldRoots,
    readResponse_fst _ newRoots]

theorem diffOperation_roots (path method : String)
    (oldOperation newOperation : Option Json) (resolvers : Resolvers) :
    (diffOperation toLowerCase path method oldOperation newOperation
      resolvers).2.SameRoots resolvers := by
  simp only [Resolvers.SameRoots, diffOperation, readResponse_root,
    readRequest_root, and_self]

theorem diffPathOperations_spec (oldPathItem newPathItem : Option Json)
    (path : String) (resolvers : Resolvers) :
    (diffPathOperations toLowerCase oldPathItem newPathItem path
        resolvers).1 =
        (((getMethods oldPathItem).keys.filter fun method =>
            !(getMethods newPathItem).has method).map
              (methodRemovedEntry path) ++
          ((getMethods newPathItem).keys.filter fun method =>
            !(getMethods oldPathItem).has method).map
              (methodAddedEntry path)) ++
        ((getMethods oldPathItem).keys.filter
            (getMethods newPathItem).has).flatMap (fun method =>
          (diffOperation toLowerCase path method
            ((getMethods oldPathItem).get? method)
            ((getMethods newPathItem).get? method) resolvers).1) ∧
      (diffPathOperations toLowerCase oldPathItem newPathItem path
        resolvers).2.SameRoots resolvers :=
  foldl_entries
    (fun method => diffOperation toLowerCase path method
      ((getMethods oldPathItem).get? method)
      ((getMethods newPathItem).get? method))
    (fun _ _ _ same => diffOperation_fst toLowerCase _ _ _ _ same)
    (fun _ _ => diffOperation_roots toLowerCase _ _ _ _ _) _ _ _

theorem diffPathOperations_fst (oldPathItem newPathItem : Option Json)
    (path : String) {left right : Resolvers}
    (same : left.SameRoots right) :
    (diffPathOperations toLowerCase oldPathItem newPathItem path left).1 =
      (diffPathOperations toLowerCase oldPathItem newPathItem path
        right).1 := by
  rw [(diffPathOperations_spec _ _ _ _ left).1,
    (diffPathOperations_spec _ _ _ _ right).1]
  simp only [diffOperation_fst toLowerCase _ _ _ _ same]

/-! ## The entries of the whole diff -/

/-- The path item of a document, if it has the path. -/
def pathItem (spec : Json) (path : String) : Option Json :=
  (getPaths (asObj (some spec))).get? path

/-- The operation of a document under a path and method. -/
def operationOf (spec : Json) (path method : String) : Option Json :=
  (getMethods (pathItem spec path)).get? method

/-- Whether a document has an operation. -/
def HasOperation (spec : Json) (path method : String) : Prop :=
  method ∈ (getMethods (pathItem spec path)).keys

instance (spec : Json) (path method : String) :
    Decidable (HasOperation spec path method) :=
  inferInstanceAs (Decidable (_ ∈ _))

/-- The paths of one document which another lacks. -/
def pathsMissingFrom (spec other : Json) : List String :=
  (getPaths (asObj (some spec))).keys.filter fun path =>
    !(getPaths (asObj (some other))).members.has path

/-- The paths which two documents share. -/
def sharedPaths (spec other : Json) : List String :=
  (getPaths (asObj (some spec))).keys.filter
    (getPaths (asObj (some other))).members.has

/-- The resolvers with which a diff starts. -/
def freshResolvers (oldSpec newSpec : Json) : Resolvers where
  old := SchemaResolver.new (asObj (some oldSpec))
  new := SchemaResolver.new (asObj (some newSpec))

theorem diffOpenApi_entries (oldSpec newSpec : Json) :
    (diffOpenApi toLowerCase oldSpec newSpec).entries =
      ((pathsMissingFrom oldSpec newSpec).map pathRemovedEntry ++
        (pathsMissingFrom newSpec oldSpec).map pathAddedEntry) ++
      ((sharedPaths oldSpec newSpec).map (fun path => (path, path)) ++
          versionedPairs (pathsMissingFrom oldSpec newSpec)
            (pathsMissingFrom newSpec oldSpec)).flatMap fun pair =>
        (diffPathOperations toLowerCase (pathItem oldSpec pair.1)
          (pathItem newSpec pair.2) pair.1
          (freshResolvers oldSpec newSpec)).1 :=
  (foldl_entries
    (fun pair : String × String =>
      diffPathOperations toLowerCase (pathItem oldSpec pair.1)
        (pathItem newSpec pair.2) pair.1)
    (fun _ _ _ same => diffPathOperations_fst toLowerCase _ _ _ same)
    (fun _ _ => (diffPathOperations_spec toLowerCase _ _ _ _).2)
    _ _ (freshResolvers oldSpec newSpec)).1

/-! ## The entries of one operation -/

/-- The entries which name a path and a method. -/
def operationEntries (path method : String) (entries : List DiffEntry) :
    List DiffEntry :=
  entries.filter fun entry =>
    decide (entry.path = some path) && decide (entry.method = some method)

theorem operationEntries_append (path method : String)
    (left right : List DiffEntry) :
    operationEntries path method (left ++ right) =
      operationEntries path method left ++
        operationEntries path method right :=
  List.filter_append _ _

theorem operationEntries_flatMap {ι : Type} (path method : String)
    (items : List ι) (visit : ι → List DiffEntry) :
    operationEntries path method (items.flatMap visit) =
      items.flatMap fun item => operationEntries path method (visit item) :=
  List.filter_flatMap

variable {path method : String}

theorem operationEntries_eq_nil {entries : List DiffEntry}
    (foreign : ∀ entry ∈ entries, entry.path = some path → entry.method ≠
      some method) : operationEntries path method entries = [] := by
  rw [operationEntries, List.filter_eq_nil_iff]
  intro entry member
  rw [Bool.and_eq_true, decide_eq_true_eq, decide_eq_true_eq, not_and]
  exact foreign entry member

theorem operationEntries_eq_self {entries : List DiffEntry}
    (own : ∀ entry ∈ entries, entry.path = some path ∧ entry.method = some
      method) : operationEntries path method entries = entries := by
  rw [operationEntries, List.filter_eq_self]
  intro entry member
  rw [Bool.and_eq_true, decide_eq_true_eq, decide_eq_true_eq]
  exact own entry member

theorem flatMap_eq_of_unique {ι κ : Type} {items : List ι} {item : ι}
    (distinct : items.Nodup) (member : item ∈ items) (visit : ι → List κ)
    (silent : ∀ other ∈ items, other ≠ item → visit other = []) :
    items.flatMap visit = visit item := by
  rcases List.append_of_mem member with ⟨before, after, rfl⟩
  rw [List.nodup_append, List.nodup_cons] at distinct
  have silentBefore : before.flatMap visit = [] := by
    rw [List.flatMap_eq_nil_iff]
    intro other inside
    apply silent other (List.mem_append_left _ inside)
    exact distinct.2.2 other inside item List.mem_cons_self
  have silentAfter : after.flatMap visit = [] := by
    rw [List.flatMap_eq_nil_iff]
    intro other inside
    apply silent other
    · exact List.mem_append_right _ (List.mem_cons_of_mem _ inside)
    · rintro rfl
      exact distinct.2.1.1 inside
  rw [List.flatMap_append, List.flatMap_cons, silentBefore, silentAfter,
    List.nil_append, List.append_nil]

theorem fieldEntries_own (path method : String)
    (oldReq newReq oldRes newRes : FlattenedSchema) (entry : DiffEntry)
    (member : entry ∈
      diffRequestFields toLowerCase path method oldReq newReq ++
        diffResponseFields toLowerCase path method oldRes newRes) :
    entry.path = some path ∧ entry.method = some method := by
  simp only [diffRequestFields, diffResponseFields, List.mem_append,
    List.mem_map] at member
  rcases member with
    (((⟨_, _, rfl⟩ | ⟨_, _, rfl⟩) | ⟨_, _, rfl⟩) | ⟨_, _, rfl⟩) |
      ((⟨_, _, rfl⟩ | ⟨_, _, rfl⟩) | ⟨_, _, rfl⟩)
  case inl.inr =>
    rw [requestAdditionEntry]
    split <;> exact ⟨rfl, rfl⟩
  all_goals exact ⟨rfl, rfl⟩

theorem diffOperation_own (path method : String)
    (oldOperation newOperation : Option Json) (resolvers : Resolvers)
    (entry : DiffEntry)
    (member : entry ∈
      (diffOperation toLowerCase path method oldOperation newOperation
        resolvers).1) :
    entry.path = some path ∧ entry.method = some method :=
  fieldEntries_own toLowerCase path method _ _ _ _ entry member

theorem diffPathOperations_path (oldPathItem newPathItem : Option Json)
    (path : String) (resolvers : Resolvers) (entry : DiffEntry)
    (member : entry ∈
      (diffPathOperations toLowerCase oldPathItem newPathItem path
        resolvers).1) :
    entry.path = some path := by
  rw [(diffPathOperations_spec _ _ _ _ _).1, List.mem_append,
    List.mem_append, List.mem_map, List.mem_map, List.mem_flatMap] at member
  rcases member with (⟨_, _, rfl⟩ | ⟨_, _, rfl⟩) | ⟨method, _, inside⟩
  · rfl
  · rfl
  · exact (diffOperation_own toLowerCase _ _ _ _ _ _ inside).1

theorem operationEntries_diffPathOperations
    (oldPathItem newPathItem : Option Json) (path method : String)
    (resolvers : Resolvers)
    (onOld : method ∈ (getMethods oldPathItem).keys)
    (onNew : method ∈ (getMethods newPathItem).keys) :
    operationEntries path method
        (diffPathOperations toLowerCase oldPathItem newPathItem path
          resolvers).1 =
      (diffOperation toLowerCase path method
        ((getMethods oldPathItem).get? method)
        ((getMethods newPathItem).get? method) resolvers).1 := by
  have shared : method ∈ (getMethods oldPathItem).keys.filter
      (getMethods newPathItem).has :=
    List.mem_filter.mpr ⟨onOld, (OrderedMap.has_iff _ _).mpr onNew⟩
  have changed : operationEntries path method
      (((getMethods oldPathItem).keys.filter fun method =>
          !(getMethods newPathItem).has method).map
            (methodRemovedEntry path) ++
        ((getMethods newPathItem).keys.filter fun method =>
          !(getMethods oldPathItem).has method).map
            (methodAddedEntry path)) = [] := by
    apply operationEntries_eq_nil
    intro entry member _ named
    rw [List.mem_append, List.mem_map, List.mem_map] at member
    rcases member with ⟨other, absent, rfl⟩ | ⟨other, absent, rfl⟩
    · have same : other = method := Option.some.inj named
      rw [same, List.mem_filter, (OrderedMap.has_iff _ _).mpr onNew]
        at absent
      exact Bool.false_ne_true absent.2
    · have same : other = method := Option.some.inj named
      rw [same, List.mem_filter, (OrderedMap.has_iff _ _).mpr onOld]
        at absent
      exact Bool.false_ne_true absent.2
  rw [(diffPathOperations_spec _ _ _ _ _).1, operationEntries_append,
    changed, List.nil_append, operationEntries_flatMap,
    flatMap_eq_of_unique ((OrderedMap.nodup_keys _).filter _) shared]
  · apply operationEntries_eq_self
    exact fun entry member =>
      diffOperation_own toLowerCase _ _ _ _ _ entry member
  · intro other _ different
    apply operationEntries_eq_nil
    intro entry member _ named
    have own := (diffOperation_own toLowerCase _ _ _ _ _ entry member).2
    exact different (Option.some.inj (own.symm.trans named))

theorem getMethods_none_keys : (getMethods none).keys = [] := rfl

theorem hasOperation_path {spec : Json}
    (present : HasOperation spec path method) :
    path ∈ (getPaths (asObj (some spec))).keys := by
  by_contra absent
  have missing : pathItem spec path = none :=
    (OrderedMap.not_mem_keys_iff _ _).mp absent
  rw [HasOperation, missing, getMethods_none_keys] at present
  cases present

theorem fst_mem_of_mem_versionedPairs {removedPaths addedPaths : List String}
    {pair : String × String}
    (member : pair ∈ versionedPairs removedPaths addedPaths) :
    pair.1 ∈ removedPaths := by
  rw [versionedPairs, List.mem_filterMap] at member
  rcases member with ⟨⟨stripped, paths⟩, entry, chosen⟩
  split at chosen
  · next oldPath newPath single _ =>
      cases chosen
      have listed : oldPath ∈
          (byStrippedPath removedPaths).getD stripped [] := by
        rw [OrderedMap.getD, (OrderedMap.mem_entries_iff _ _ _).mp entry]
        change oldPath ∈ paths
        rw [show paths = [oldPath] from single]
        exact List.mem_singleton_self oldPath
      rw [byStrippedPath, OrderedMap.getD_collect] at listed
      simp only [List.mem_map, List.mem_filter] at listed
      rcases listed with ⟨_, ⟨⟨path, ⟨inside, _⟩, rfl⟩, _⟩, rfl⟩
      exact inside
  · cases chosen

/-- The flattened request schema of an operation of a document. -/
def requestFields (spec : Json) (path method : String) : FlattenedSchema :=
  (readRequest (operationOf spec path method)
    (SchemaResolver.new (asObj (some spec)))).1

/-- The flattened response schema of an operation of a document. -/
def responseFields (spec : Json) (path method : String) :
    FlattenedSchema :=
  (readResponse (operationOf spec path method)
    (SchemaResolver.new (asObj (some spec)))).1

/--
The entries of an operation which both documents have: those of its request
fields, then those of its response fields.
-/
theorem operationEntries_diffOpenApi (oldSpec newSpec : Json)
    (path method : String)
    (onOld : HasOperation oldSpec path method)
    (onNew : HasOperation newSpec path method) :
    operationEntries path method
        (diffOpenApi toLowerCase oldSpec newSpec).entries =
      diffRequestFields toLowerCase path method
          (requestFields oldSpec path method)
          (requestFields newSpec path method) ++
        diffResponseFields toLowerCase path method
          (responseFields oldSpec path method)
          (responseFields newSpec path method) := by
  have pathOnOld := hasOperation_path onOld
  have pathOnNew := hasOperation_path onNew
  have shared : path ∈ sharedPaths oldSpec newSpec :=
    List.mem_filter.mpr ⟨pathOnOld, (OrderedMap.has_iff _ _).mpr pathOnNew⟩
  have distinct : (sharedPaths oldSpec newSpec).Nodup :=
    (OrderedMap.nodup_keys _).filter _
  have changed : operationEntries path method
      ((pathsMissingFrom oldSpec newSpec).map pathRemovedEntry ++
        (pathsMissingFrom newSpec oldSpec).map pathAddedEntry) = [] := by
    apply operationEntries_eq_nil
    intro entry member _ named
    rw [List.mem_append, List.mem_map, List.mem_map] at member
    rcases member with ⟨_, _, rfl⟩ | ⟨_, _, rfl⟩ <;> cases named
  have versioned : operationEntries path method
      ((versionedPairs (pathsMissingFrom oldSpec newSpec)
          (pathsMissingFrom newSpec oldSpec)).flatMap fun pair =>
        (diffPathOperations toLowerCase (pathItem oldSpec pair.1)
          (pathItem newSpec pair.2) pair.1
          (freshResolvers oldSpec newSpec)).1) = [] := by
    apply operationEntries_eq_nil
    intro entry member named _
    rcases List.mem_flatMap.mp member with ⟨pair, chosen, inside⟩
    have own := diffPathOperations_path toLowerCase _ _ _ _ entry inside
    have removed := fst_mem_of_mem_versionedPairs chosen
    rw [Option.some.inj (own.symm.trans named), pathsMissingFrom,
      List.mem_filter, (OrderedMap.has_iff _ _).mpr pathOnNew] at removed
    exact Bool.false_ne_true removed.2
  rw [diffOpenApi_entries, operationEntries_append, changed,
    List.nil_append, List.flatMap_append, operationEntries_append,
    versioned, List.append_nil, List.flatMap_map, operationEntries_flatMap,
    flatMap_eq_of_unique distinct shared]
  · rw [operationEntries_diffPathOperations toLowerCase _ _ _ _ _ onOld
      onNew, diffOperation]
    have oldRoot : (readRequest (operationOf oldSpec path method)
          (SchemaResolver.new (asObj (some oldSpec)))).2.root =
        (SchemaResolver.new (asObj (some oldSpec))).root :=
      readRequest_root _ _
    have newRoot : (readRequest (operationOf newSpec path method)
          (SchemaResolver.new (asObj (some newSpec)))).2.root =
        (SchemaResolver.new (asObj (some newSpec))).root :=
      readRequest_root _ _
    rw [responseFields, responseFields, ← readResponse_fst _ oldRoot,
      ← readResponse_fst _ newRoot]
    rfl
  · intro other _ different
    apply operationEntries_eq_nil
    intro entry member named _
    have own := diffPathOperations_path toLowerCase _ _ _ _ entry member
    exact different (Option.some.inj (own.symm.trans named))

end Mendpoint.ChangeIntel
