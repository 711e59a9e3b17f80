import Mendpoint.ChangeIntel.OpenApiEntries

/-!
# What the diff says about request fields

Every removed and every added request field of a shared operation should be
reported in one way only, and every newly required field should make the
change breaking.  Both hold on part of the inputs, and this module says on
which.
-/

namespace Mendpoint.ChangeIntel

open Mendpoint.Library

/-! ## Reading the entries -/

/-- The names which the entries of one kind give. -/
def namedBy (op : DiffOp) (names : DiffEntry → List String)
    (entries : List DiffEntry) : List String :=
  (entries.filter fun entry => decide (entry.op = op)).flatMap names

def renameSources : List DiffEntry → List String :=
  namedBy .requestFieldRenamed fun entry => entry.fromField.toList

def renameTargets : List DiffEntry → List String :=
  namedBy .requestFieldRenamed fun entry => entry.toField.toList

def ambiguousSources : List DiffEntry → List String :=
  namedBy .requestFieldAmbiguous fun entry => entry.fromField.toList

def ambiguousCandidates : List DiffEntry → List String :=
  namedBy .requestFieldAmbiguous fun entry => entry.candidates.getD []

def removedFields : List DiffEntry → List String :=
  namedBy .requestFieldRemoved fun entry => entry.field.toList

def addedFields : List DiffEntry → List String :=
  namedBy .requestFieldAdded fun entry => entry.field.toList

def addedRequiredFields : List DiffEntry → List String :=
  namedBy .requestFieldAddedRequired fun entry => entry.field.toList

theorem namedBy_append (op : DiffOp) (names : DiffEntry → List String)
    (left right : List DiffEntry) :
    namedBy op names (left ++ right) =
      namedBy op names left ++ namedBy op names right := by
  rw [namedBy, List.filter_append, List.flatMap_append]
  rfl

theorem namedBy_map {ι : Type} (op : DiffOp)
    (names : DiffEntry → List String) (items : List ι)
    (make : ι → DiffEntry) :
    namedBy op names (items.map make) =
      (items.filter fun item => decide ((make item).op = op)).flatMap
        fun item => names (make item) := by
  rw [namedBy, List.filter_map, List.flatMap_map]
  rfl

section Fields

variable (toLowerCase : String → String) (path method : String)
variable (oldReq newReq oldRes newRes : FlattenedSchema)

/-- The entries of an operation, from its four flattened schemas. -/
def fieldEntries : List DiffEntry :=
  diffRequestFields toLowerCase path method oldReq newReq ++
    diffResponseFields toLowerCase path method oldRes newRes

/-- What the differ finds of the request fields. -/
def requestChanges : FieldChanges :=
  detectFieldChanges toLowerCase oldReq.props newReq.props

theorem namedBy_fieldEntries (op : DiffOp)
    (names : DiffEntry → List String)
    (request : op ∈ [DiffOp.requestFieldRenamed,
      .requestFieldAmbiguous, .requestFieldRemoved, .requestFieldAdded,
      .requestFieldAddedRequired]) :
    namedBy op names
        (fieldEntries toLowerCase path method oldReq newReq oldRes
          newRes) =
      namedBy op names
        (diffRequestFields toLowerCase path method oldReq newReq) := by
  rw [fieldEntries, namedBy_append]
  have silent : namedBy op names
      (diffResponseFields toLowerCase path method oldRes newRes) = [] := by
    simp only [List.mem_cons, List.not_mem_nil, or_false] at request
    rcases request with rfl | rfl | rfl | rfl | rfl <;>
      simp [diffResponseFields, namedBy_append, namedBy_map,
        responseAmbiguityEntry, responseRemovedEntry, responseAddedEntry,
        fieldEntry]
  rw [silent, List.append_nil]

@[simp]
theorem requestAdditionEntry_op (field : String) :
    (requestAdditionEntry path method oldReq newReq field).op =
      if field ∈ newReq.required ∧ field ∉ oldReq.required then
        .requestFieldAddedRequired
      else .requestFieldAdded := by
  rw [requestAdditionEntry]
  split <;> rfl

@[simp]
theorem requestAdditionEntry_field (field : String) :
    (requestAdditionEntry path method oldReq newReq field).field =
      some field := by
  rw [requestAdditionEntry]
  split <;> rfl

theorem namedBy_requestAdditionEntry_eq_nil (op : DiffOp)
    (names : DiffEntry → List String) (fields : List String)
    (other : op ≠ .requestFieldAdded)
    (different : op ≠ .requestFieldAddedRequired) :
    namedBy op names
      (fields.map (requestAdditionEntry path method oldReq newReq)) =
        [] := by
  rw [namedBy_map, List.flatMap_eq_nil_iff]
  intro field member
  rw [List.mem_filter, requestAdditionEntry_op, decide_eq_true_eq] at member
  rcases member with ⟨_, same⟩
  split at same
  · exact absurd same.symm different
  · exact absurd same.symm other

theorem namedBy_renamed (names : DiffEntry → List String) :
    namedBy .requestFieldRenamed names
        (fieldEntries toLowerCase path method oldReq newReq oldRes
          newRes) =
      (requestChanges toLowerCase oldReq newReq).renames.flatMap
        fun rename => names (renameEntry path method rename) := by
  rw [namedBy_fieldEntries _ _ _ _ _ _ _ _ _ (by simp),
    diffRequestFields, namedBy_append,
    namedBy_requestAdditionEntry_eq_nil _ _ _ _ _ _ _ (by simp) (by simp)]
  simp [requestChanges, namedBy_append, namedBy_map, renameEntry,
    requestAmbiguityEntry, requestRemovedEntry, fieldEntry]

theorem namedBy_ambiguous (names : DiffEntry → List String) :
    namedBy .requestFieldAmbiguous names
        (fieldEntries toLowerCase path method oldReq newReq oldRes
          newRes) =
      (requestChanges toLowerCase oldReq newReq).ambiguities.flatMap
        fun ambiguity =>
          names (requestAmbiguityEntry path method ambiguity) := by
  rw [namedBy_fieldEntries _ _ _ _ _ _ _ _ _ (by simp),
    diffRequestFields, namedBy_append,
    namedBy_requestAdditionEntry_eq_nil _ _ _ _ _ _ _ (by simp) (by simp)]
  simp [requestChanges, namedBy_append, namedBy_map, renameEntry,
    requestAmbiguityEntry, requestRemovedEntry, fieldEntry]

theorem renameSources_fieldEntries :
    renameSources
        (fieldEntries toLowerCase path method oldReq newReq oldRes
          newRes) =
      (requestChanges toLowerCase oldReq newReq).renames.map
        FieldRename.fromField :=
  (namedBy_renamed toLowerCase path method oldReq newReq oldRes newRes
    _).trans List.map_eq_flatMap.symm

theorem renameTargets_fieldEntries :
    renameTargets
        (fieldEntries toLowerCase path method oldReq newReq oldRes
          newRes) =
      (requestChanges toLowerCase oldReq newReq).renames.map
        FieldRename.toField :=
  (namedBy_renamed toLowerCase path method oldReq newReq oldRes newRes
    _).trans List.map_eq_flatMap.symm

theorem ambiguousSources_fieldEntries :
    ambiguousSources
        (fieldEntries toLowerCase path method oldReq newReq oldRes
          newRes) =
      (requestChanges toLowerCase oldReq newReq).ambiguities.map
        FieldAmbiguity.fromField :=
  (namedBy_ambiguous toLowerCase path method oldReq newReq oldRes newRes
    _).trans List.map_eq_flatMap.symm

theorem ambiguousCandidates_fieldEntries :
    ambiguousCandidates
        (fieldEntries toLowerCase path method oldReq newReq oldRes
          newRes) =
      (requestChanges toLowerCase oldReq newReq).ambiguities.flatMap
        FieldAmbiguity.candidates :=
  namedBy_ambiguous toLowerCase path method oldReq newReq oldRes newRes _

theorem mem_keysMissingFrom (props others : OrderedMap String Json)
    (field : String) :
    field ∈ keysMissingFrom props others ↔
      field ∈ props.keys ∧ field ∉ others.keys := by
  rw [keysMissingFrom, List.mem_filter, Bool.not_eq_true',
    ← Bool.not_eq_true, OrderedMap.has_iff]

theorem mem_removedFields_fieldEntries (field : String) :
    field ∈ removedFields
        (fieldEntries toLowerCase path method oldReq newReq oldRes
          newRes) ↔
      field ∈ keysMissingFrom oldReq.props newReq.props ∧
        field ∉ (requestChanges toLowerCase oldReq newReq).renames.map
          FieldRename.fromField ∧
        field ∉ (requestChanges toLowerCase oldReq newReq).ambiguities.map
          FieldAmbiguity.fromField := by
  rw [removedFields, namedBy_fieldEntries _ _ _ _ _ _ _ _ _ (by simp),
    diffRequestFields, namedBy_append,
    namedBy_requestAdditionEntry_eq_nil _ _ _ _ _ _ _ (by simp)
      (by simp), keysMissingFrom, List.mem_filter]
  simp [requestChanges, namedBy_append, namedBy_map, renameEntry,
    requestAmbiguityEntry, requestRemovedEntry, fieldEntry, and_assoc]

/-- The added fields which no rename and no ambiguity accounts for. -/
def plainAdditions : List String :=
  newReq.props.keys.filter fun field =>
    !(oldReq.props.has field ||
      decide (field ∈
        (requestChanges toLowerCase oldReq newReq).renames.map
          FieldRename.toField) ||
      decide (field ∈
        (requestChanges toLowerCase oldReq newReq).ambiguities.flatMap
          FieldAmbiguity.candidates))

theorem mem_plainAdditions (field : String) :
    field ∈ plainAdditions toLowerCase oldReq newReq ↔
      field ∈ keysMissingFrom newReq.props oldReq.props ∧
        field ∉ (requestChanges toLowerCase oldReq newReq).renames.map
          FieldRename.toField ∧
        field ∉
          (requestChanges toLowerCase oldReq newReq).ambiguities.flatMap
            FieldAmbiguity.candidates := by
  rw [plainAdditions, keysMissingFrom, List.mem_filter, List.mem_filter]
  simp only [Bool.not_or, Bool.and_eq_true, Bool.not_eq_true',
    decide_eq_false_iff_not, and_assoc]

theorem namedBy_addition (op : DiffOp)
    (addition : op = .requestFieldAdded ∨ op = .requestFieldAddedRequired)
    (field : String) :
    field ∈ namedBy op (fun entry => entry.field.toList)
        (fieldEntries toLowerCase path method oldReq newReq oldRes
          newRes) ↔
      field ∈ plainAdditions toLowerCase oldReq newReq ∧
        (requestAdditionEntry path method oldReq newReq field).op = op := by
  have others : namedBy op (fun entry => entry.field.toList)
      ((requestChanges toLowerCase oldReq newReq).renames.map
          (renameEntry path method) ++
        (requestChanges toLowerCase oldReq newReq).ambiguities.map
          (requestAmbiguityEntry path method) ++
        (oldReq.props.keys.filter fun field =>
          !newReq.props.has field &&
            decide (field ∉
              (requestChanges toLowerCase oldReq newReq).renames.map
                FieldRename.fromField) &&
            decide (field ∉
              (requestChanges toLowerCase oldReq newReq).ambiguities.map
                FieldAmbiguity.fromField)).map
          (requestRemovedEntry path method)) = [] := by
    rcases addition with rfl | rfl <;>
      simp [namedBy_append, namedBy_map, renameEntry,
        requestAmbiguityEntry, requestRemovedEntry, fieldEntry]
  have request : op ∈ [DiffOp.requestFieldRenamed,
      .requestFieldAmbiguous, .requestFieldRemoved, .requestFieldAdded,
      .requestFieldAddedRequired] := by
    rcases addition with rfl | rfl <;> simp
  have split : diffRequestFields toLowerCase path method oldReq newReq =
      _ ++ (plainAdditions toLowerCase oldReq newReq).map
        (requestAdditionEntry path method oldReq newReq) := rfl
  rw [namedBy_fieldEntries _ _ _ _ _ _ _ _ _ request, split,
    namedBy_append]
  erw [others]
  rw [List.nil_append, namedBy_map]
  simp only [requestAdditionEntry_field, Option.toList_some,
    List.mem_flatMap, List.mem_filter, List.mem_singleton,
    decide_eq_true_eq]
  constructor
  · rintro ⟨other, both, rfl⟩
    exact both
  · exact fun both => ⟨field, both, rfl⟩

end Fields

/-! ## One report for each field -/

/-- A name is in one group of names and in no other. -/
def InExactlyOne (name : String) (groups : List (List String)) : Prop :=
  (groups.filter fun group => decide (name ∈ group)).length = 1

theorem inExactlyOne_of_mem {name : String} {group : List String}
    {others : List (List String)} (member : name ∈ group)
    (absent : ∀ other ∈ others, name ∉ other) :
    InExactlyOne name (group :: others) := by
  have nowhere :
      (others.filter fun other => decide (name ∈ other)) = [] := by
    rw [List.filter_eq_nil_iff]
    intro other inside
    simpa using absent other inside
  simp [InExactlyOne, member, nowhere]

theorem inExactlyOne_of_not_mem {name : String} {group : List String}
    {others : List (List String)} (absent : name ∉ group)
    (elsewhere : InExactlyOne name others) :
    InExactlyOne name (group :: others) := by
  have skipped : ¬ decide (name ∈ group) = true := by simpa using absent
  rw [InExactlyOne, List.filter_cons, if_neg skipped]
  exact elsewhere

/--
Every removed and every added field of an operation is accounted for once, no
two renames share a target, and no candidate is also asserted as a target.
-/
structure RequestFieldsSettled (entries : List DiffEntry)
    (oldProps newProps : OrderedMap String Json) : Prop where
  removedOnce :
    ∀ field ∈ keysMissingFrom oldProps newProps,
      InExactlyOne field
        [renameSources entries, ambiguousSources entries,
          removedFields entries]
  addedOnce :
    ∀ field ∈ keysMissingFrom newProps oldProps,
      InExactlyOne field
        [renameTargets entries, ambiguousCandidates entries,
          addedFields entries, addedRequiredFields entries]
  targetsDistinct : (renameTargets entries).Nodup
  candidatesKept :
    ∀ field ∈ ambiguousCandidates entries, field ∉ renameTargets entries

section Settled

variable (toLowerCase : String → String) (path method : String)
variable (oldReq newReq oldRes newRes : FlattenedSchema)

theorem removed_once (field : String)
    (removed : field ∈ keysMissingFrom oldReq.props newReq.props) :
    InExactlyOne field
      [renameSources (fieldEntries toLowerCase path method oldReq newReq
          oldRes newRes),
        ambiguousSources (fieldEntries toLowerCase path method oldReq
          newReq oldRes newRes),
        removedFields (fieldEntries toLowerCase path method oldReq newReq
          oldRes newRes)] := by
  have plain := mem_removedFields_fieldEntries toLowerCase path method
    oldReq newReq oldRes newRes field
  rw [renameSources_fieldEntries, ambiguousSources_fieldEntries]
  by_cases ambiguous : field ∈
      (requestChanges toLowerCase oldReq newReq).ambiguities.map
        FieldAmbiguity.fromField
  · have kept : field ∉
        (requestChanges toLowerCase oldReq newReq).renames.map
          FieldRename.fromField :=
      not_renamed_of_ambiguous toLowerCase oldReq.props newReq.props
        ambiguous
    apply inExactlyOne_of_not_mem kept
    apply inExactlyOne_of_mem ambiguous
    intro other single
    rw [List.mem_singleton.mp single, plain]
    exact fun both => both.2.2 ambiguous
  · by_cases renamed : field ∈
        (requestChanges toLowerCase oldReq newReq).renames.map
          FieldRename.fromField
    · apply inExactlyOne_of_mem renamed
      intro other member
      rcases List.mem_cons.mp member with rfl | single
      · exact ambiguous
      · rw [List.mem_singleton.mp single, plain]
        exact fun both => both.2.1 renamed
    · apply inExactlyOne_of_not_mem renamed
      apply inExactlyOne_of_not_mem ambiguous
      apply inExactlyOne_of_mem (plain.mpr ⟨removed, renamed, ambiguous⟩)
      intro other none
      cases none

theorem mem_addedFields_fieldEntries (field : String) :
    field ∈ addedFields
        (fieldEntries toLowerCase path method oldReq newReq oldRes
          newRes) ↔
      field ∈ plainAdditions toLowerCase oldReq newReq ∧
        ¬ (field ∈ newReq.required ∧ field ∉ oldReq.required) := by
  rw [addedFields, namedBy_addition _ _ _ _ _ _ _ _ (Or.inl rfl),
    requestAdditionEntry_op]
  split <;> simp [*]

theorem mem_addedRequiredFields_fieldEntries (field : String) :
    field ∈ addedRequiredFields
        (fieldEntries toLowerCase path method oldReq newReq oldRes
          newRes) ↔
      field ∈ plainAdditions toLowerCase oldReq newReq ∧
        (field ∈ newReq.required ∧ field ∉ oldReq.required) := by
  rw [addedRequiredFields, namedBy_addition _ _ _ _ _ _ _ _ (Or.inr rfl),
    requestAdditionEntry_op]
  split <;> simp [*]

theorem added_once (field : String)
    (added : field ∈ keysMissingFrom newReq.props oldReq.props)
    (apart : field ∈
        (requestChanges toLowerCase oldReq newReq).ambiguities.flatMap
          FieldAmbiguity.candidates →
      field ∉ (requestChanges toLowerCase oldReq newReq).renames.map
        FieldRename.toField) :
    InExactlyOne field
      [renameTargets (fieldEntries toLowerCase path method oldReq newReq
          oldRes newRes),
        ambiguousCandidates (fieldEntries toLowerCase path method oldReq
          newReq oldRes newRes),
        addedFields (fieldEntries toLowerCase path method oldReq newReq
          oldRes newRes),
        addedRequiredFields (fieldEntries toLowerCase path method oldReq
          newReq oldRes newRes)] := by
  have optional := mem_addedFields_fieldEntries toLowerCase path method
    oldReq newReq oldRes newRes field
  have required := mem_addedRequiredFields_fieldEntries toLowerCase path
    method oldReq newReq oldRes newRes field
  rw [renameTargets_fieldEntries, ambiguousCandidates_fieldEntries]
  by_cases plain : field ∈ plainAdditions toLowerCase oldReq newReq
  · have unnamed := (mem_plainAdditions _ _ _ _).mp plain
    apply inExactlyOne_of_not_mem unnamed.2.1
    apply inExactlyOne_of_not_mem unnamed.2.2
    by_cases demanded : field ∈ newReq.required ∧ field ∉ oldReq.required
    · apply inExactlyOne_of_not_mem fun inside =>
        (optional.mp inside).2 demanded
      apply inExactlyOne_of_mem (required.mpr ⟨plain, demanded⟩)
      intro other none
      cases none
    · apply inExactlyOne_of_mem (optional.mpr ⟨plain, demanded⟩)
      intro other single inside
      rw [List.mem_singleton.mp single, required] at inside
      exact demanded inside.2
  · have neither : ∀ other ∈
        [addedFields (fieldEntries toLowerCase path method oldReq newReq
            oldRes newRes),
          addedRequiredFields (fieldEntries toLowerCase path method oldReq
            newReq oldRes newRes)],
        field ∉ other := by
      intro other member inside
      rcases List.mem_cons.mp member with rfl | single
      · exact plain (optional.mp inside).1
      · rw [List.mem_singleton.mp single, required] at inside
        exact plain inside.1
    by_cases candidate : field ∈
        (requestChanges toLowerCase oldReq newReq).ambiguities.flatMap
          FieldAmbiguity.candidates
    · apply inExactlyOne_of_not_mem (apart candidate)
      exact inExactlyOne_of_mem candidate neither
    · have target : field ∈
          (requestChanges toLowerCase oldReq newReq).renames.map
            FieldRename.toField := by
        by_contra untaken
        exact plain ((mem_plainAdditions _ _ _ _).mpr
          ⟨added, untaken, candidate⟩)
      apply inExactlyOne_of_mem target
      intro other member
      rcases List.mem_cons.mp member with rfl | rest
      · exact candidate
      · exact neither other rest

theorem fieldEntries_settled_iff :
    RequestFieldsSettled
        (fieldEntries toLowerCase path method oldReq newReq oldRes newRes)
        oldReq.props newReq.props ↔
      Undisputed toLowerCase oldReq.props newReq.props := by
  rw [undisputed_iff_candidates_kept]
  constructor
  · intro settled
    have kept := settled.candidatesKept
    rw [ambiguousCandidates_fieldEntries, renameTargets_fieldEntries]
      at kept
    exact kept
  · intro kept
    constructor
    · exact removed_once toLowerCase path method oldReq newReq oldRes newRes
    · intro field added
      exact added_once toLowerCase path method oldReq newReq oldRes newRes
        field added (kept field)
    · rw [renameTargets_fieldEntries, requestChanges, renames_map_toField]
      exact GreedyMatching.nodup_taken _ _
    · rw [ambiguousCandidates_fieldEntries, renameTargets_fieldEntries]
      exact kept

end Settled

/-- A document with one operation, whose request fields are given. -/
def singleOperation (path method : String)
    (properties : List (String × Json)) (required : List String) : Json :=
  .obj [("paths", .obj [(path, .obj [(method, .obj [("requestBody",
    .obj [("content", .obj [("application/json", .obj [("schema",
      .obj [("properties", .obj properties),
        ("required", .arr (required.map .str))])])])])])])])]

/-- A schema of a primitive type. -/
def primitive (type : String) : Json :=
  .obj [("type", .str type)]

/-- A card, and the identifier of something else. -/
def cardsV1 : Json :=
  singleOperation "/charges" "post"
    [("card", primitive "object"), ("id", primitive "integer")] []

/-- Two fields which could each succeed the card. -/
def cardsV2 : Json :=
  singleOperation "/charges" "post"
    [("card_id", primitive "string"), ("card_number", primitive "number")]
    []

/-- The kinds of entry which concern a request field. -/
def requestFieldOps : List DiffOp :=
  [.requestFieldRenamed, .requestFieldAmbiguous, .requestFieldRemoved,
    .requestFieldAdded, .requestFieldAddedRequired]

/-- The fields which an entry names. -/
def DiffEntry.names (entry : DiffEntry) : List String :=
  entry.field.toList ++ entry.fromField.toList ++ entry.toField.toList ++
    entry.candidates.getD []

/-- Some entry says that a request field breaks an operation. -/
def ReportsBreaking (entries : List DiffEntry)
    (path method field : String) : Prop :=
  ∃ entry ∈ operationEntries path method entries,
    entry.op ∈ requestFieldOps ∧ entry.breaking = true ∧
      field ∈ entry.names

theorem classifyRisk_of_breaking {entries : List DiffEntry}
    {entry : DiffEntry} (member : entry ∈ entries)
    (breaking : entry.breaking = true) :
    classifyRisk entries = .breaking := by
  have some : entries.any DiffEntry.breaking = true :=
    List.any_eq_true.mpr ⟨entry, member, breaking⟩
  rw [classifyRisk, if_pos some]

section Required

variable (toLowerCase : String → String) (path method : String)
variable (oldReq newReq oldRes newRes : FlattenedSchema)

variable {field : String}

theorem names_of_breaking {entry : DiffEntry}
    (member : entry ∈ fieldEntries toLowerCase path method oldReq newReq
      oldRes newRes) (request : entry.op ∈ requestFieldOps)
    (named : field ∈ entry.names) :
    field ∈ keysMissingFrom oldReq.props newReq.props ∨
      field ∈ keysMissingFrom newReq.props oldReq.props := by
  rw [fieldEntries, List.mem_append] at member
  rcases member with inRequest | inResponse
  · simp only [diffRequestFields, List.mem_append] at inRequest
    rcases inRequest with ((inside | inside) | inside) | inside
    · rcases List.mem_map.mp inside with ⟨rename, found, rfl⟩
      simp [DiffEntry.names, renameEntry] at named
      rcases named with rfl | rfl | rfl
      · exact Or.inr (rename_added _ _ _ found)
      · exact Or.inl (rename_removed _ _ _ found)
      · exact Or.inr (rename_added _ _ _ found)
    · rcases List.mem_map.mp inside with ⟨ambiguity, found, rfl⟩
      simp [DiffEntry.names, requestAmbiguityEntry] at named
      rcases named with rfl | candidate
      · exact Or.inl (ambiguity_removed _ _ _ found)
      · exact Or.inr (candidate_added _ _ _
          (List.mem_flatMap.mpr ⟨ambiguity, found, candidate⟩))
    · rcases List.mem_map.mp inside with ⟨removed, found, rfl⟩
      simp [DiffEntry.names, requestRemovedEntry, fieldEntry] at named
      rw [List.mem_filter, Bool.and_eq_true, Bool.and_eq_true] at found
      rw [named]
      exact Or.inl (List.mem_filter.mpr ⟨found.1, found.2.1.1⟩)
    · rcases List.mem_map.mp inside with ⟨added, found, rfl⟩
      have own : field = added := by
        rw [requestAdditionEntry] at named
        split at named <;>
          simpa [DiffEntry.names, requestAddedRequiredEntry,
            requestAddedEntry, fieldEntry] using named
      rw [own]
      exact Or.inr ((mem_plainAdditions toLowerCase oldReq newReq
        added).mp found).1
  · simp only [diffResponseFields, List.mem_append, List.mem_map]
      at inResponse
    rcases inResponse with
      (⟨_, _, rfl⟩ | ⟨_, _, rfl⟩) | ⟨_, _, rfl⟩ <;>
      simp [requestFieldOps, responseAmbiguityEntry, responseRemovedEntry,
        responseAddedEntry, fieldEntry] at request

theorem breaking_of_op {entry : DiffEntry}
    (member : entry ∈
      fieldEntries toLowerCase path method oldReq newReq oldRes newRes)
    (request : entry.op ∈ requestFieldOps)
    (demanding : entry.op ≠ .requestFieldAdded) :
    entry.breaking = true := by
  rw [fieldEntries, List.mem_append] at member
  rcases member with inRequest | inResponse
  · simp only [diffRequestFields, List.mem_append, List.mem_map]
      at inRequest
    rcases inRequest with
      ((⟨_, _, rfl⟩ | ⟨_, _, rfl⟩) | ⟨_, _, rfl⟩) | ⟨_, _, rfl⟩
    · rfl
    · rfl
    · rfl
    · rw [requestAdditionEntry] at demanding ⊢
      split at demanding
      · next newly =>
          rw [if_pos newly]
          rfl
      · exact absurd rfl demanding
  · simp only [diffResponseFields, List.mem_append, List.mem_map]
      at inResponse
    rcases inResponse with
      (⟨_, _, rfl⟩ | ⟨_, _, rfl⟩) | ⟨_, _, rfl⟩ <;>
      simp [requestFieldOps, responseAmbiguityEntry, responseRemovedEntry,
        responseAddedEntry, fieldEntry] at request

theorem mem_namedBy (op : DiffOp) (names : DiffEntry → List String)
    (entries : List DiffEntry) (name : String) :
    name ∈ namedBy op names entries ↔
      ∃ entry ∈ entries, entry.op = op ∧ name ∈ names entry := by
  simp only [namedBy, List.mem_flatMap, List.mem_filter,
    decide_eq_true_eq, and_assoc]

theorem exists_breaking_of_namedBy {op : DiffOp}
    {names : DiffEntry → List String} (request : op ∈ requestFieldOps)
    (demanding : op ≠ .requestFieldAdded)
    (shown : ∀ entry, field ∈ names entry → field ∈ entry.names)
    (named : field ∈ namedBy op names (fieldEntries toLowerCase path method
      oldReq newReq oldRes newRes)) :
    ∃ entry ∈
        fieldEntries toLowerCase path method oldReq newReq oldRes newRes,
      entry.op ∈ requestFieldOps ∧ entry.breaking = true ∧
        field ∈ entry.names := by
  rcases (mem_namedBy _ _ _ _).mp named with ⟨entry, member, rfl, inside⟩
  exact ⟨entry, member, request,
    breaking_of_op toLowerCase path method oldReq newReq oldRes newRes
      member request demanding,
    shown entry inside⟩

theorem removed_breaking
    (removed : field ∈ keysMissingFrom oldReq.props newReq.props) :
    ∃ entry ∈
        fieldEntries toLowerCase path method oldReq newReq oldRes newRes,
      entry.op ∈ requestFieldOps ∧ entry.breaking = true ∧
        field ∈ entry.names := by
  by_cases renamed : field ∈ renameSources
      (fieldEntries toLowerCase path method oldReq newReq oldRes newRes)
  · apply exists_breaking_of_namedBy toLowerCase path method oldReq newReq
      oldRes newRes (by simp [requestFieldOps]) (by simp) _ renamed
    intro entry inside
    simp only [DiffEntry.names, List.mem_append]
    exact Or.inl (Or.inl (Or.inr inside))
  · by_cases ambiguous : field ∈ ambiguousSources
        (fieldEntries toLowerCase path method oldReq newReq oldRes newRes)
    · apply exists_breaking_of_namedBy toLowerCase path method oldReq newReq
        oldRes newRes (by simp [requestFieldOps]) (by simp) _ ambiguous
      intro entry inside
      simp only [DiffEntry.names, List.mem_append]
      exact Or.inl (Or.inl (Or.inr inside))
    · rw [renameSources_fieldEntries] at renamed
      rw [ambiguousSources_fieldEntries] at ambiguous
      apply exists_breaking_of_namedBy toLowerCase path method oldReq newReq
        oldRes newRes (by simp [requestFieldOps]) (by simp) _
        ((mem_removedFields_fieldEntries toLowerCase path method oldReq
          newReq oldRes newRes field).mpr ⟨removed, renamed, ambiguous⟩)
      intro entry inside
      simp only [DiffEntry.names, List.mem_append]
      exact Or.inl (Or.inl (Or.inl inside))

theorem added_breaking
    (added : field ∈ keysMissingFrom newReq.props oldReq.props)
    (required : field ∈ newReq.required) (optional : field ∉ oldReq.required) :
    ∃ entry ∈
        fieldEntries toLowerCase path method oldReq newReq oldRes newRes,
      entry.op ∈ requestFieldOps ∧ entry.breaking = true ∧
        field ∈ entry.names := by
  by_cases target : field ∈ renameTargets
      (fieldEntries toLowerCase path method oldReq newReq oldRes newRes)
  · apply exists_breaking_of_namedBy toLowerCase path method oldReq newReq
      oldRes newRes (by simp [requestFieldOps]) (by simp) _ target
    intro entry inside
    simp only [DiffEntry.names, List.mem_append]
    exact Or.inl (Or.inr inside)
  · by_cases candidate : field ∈ ambiguousCandidates
        (fieldEntries toLowerCase path method oldReq newReq oldRes newRes)
    · apply exists_breaking_of_namedBy toLowerCase path method oldReq newReq
        oldRes newRes (by simp [requestFieldOps]) (by simp) _ candidate
      intro entry inside
      simp only [DiffEntry.names, List.mem_append]
      exact Or.inr inside
    · rw [renameTargets_fieldEntries] at target
      rw [ambiguousCandidates_fieldEntries] at candidate
      have plain := (mem_plainAdditions toLowerCase oldReq newReq field).mpr
        ⟨added, target, candidate⟩
      apply exists_breaking_of_namedBy toLowerCase path method oldReq newReq
        oldRes newRes (by simp [requestFieldOps]) (by simp) _
        ((mem_addedRequiredFields_fieldEntries toLowerCase path method
          oldReq newReq oldRes newRes field).mpr
            ⟨plain, required, optional⟩)
      intro entry inside
      simp only [DiffEntry.names, List.mem_append]
      exact Or.inl (Or.inl (Or.inl inside))

end Required

/--
Whatever the two documents are, a newly required field of a shared operation is
reported as breaking exactly when one of the two request schemas declares it
as a property and the other does not.
-/
theorem newlyRequired_reported_iff (toLowerCase : String → String)
    (oldSpec newSpec : Json) (path method field : String)
    (onOld : HasOperation oldSpec path method)
    (onNew : HasOperation newSpec path method)
    (required : field ∈ (requestFields newSpec path method).required)
    (optional : field ∉ (requestFields oldSpec path method).required) :
    (ReportsBreaking (diffOpenApi toLowerCase oldSpec newSpec).entries path
          method field ∧
        (diffOpenApi toLowerCase oldSpec newSpec).risk = .breaking) ↔
      (field ∈ (requestFields oldSpec path method).props.keys ↔
        field ∉ (requestFields newSpec path method).props.keys) := by
  have own := operationEntries_diffOpenApi toLowerCase oldSpec newSpec path
    method onOld onNew
  constructor
  · rintro ⟨⟨entry, member, request, _, named⟩, _⟩
    rw [own] at member
    rcases names_of_breaking toLowerCase path method _ _ _ _ member request
      named with removed | added
    · rw [mem_keysMissingFrom] at removed
      exact iff_of_true removed.1 removed.2
    · rw [mem_keysMissingFrom] at added
      exact iff_of_false added.2 (not_not_intro added.1)
  · intro exactlyOne
    have reported : ReportsBreaking
        (diffOpenApi toLowerCase oldSpec newSpec).entries path method
        field := by
      rw [ReportsBreaking, own]
      by_cases old : field ∈ (requestFields oldSpec path method).props.keys
      · exact removed_breaking toLowerCase path method _ _ _ _
          ((mem_keysMissingFrom _ _ _).mpr ⟨old, exactlyOne.mp old⟩)
      · have new : field ∈
            (requestFields newSpec path method).props.keys := by
          by_contra missing
          exact old (exactlyOne.mpr missing)
        exact added_breaking toLowerCase path method _ _ _ _
          ((mem_keysMissingFrom _ _ _).mpr ⟨new, old⟩) required optional
    rcases reported with ⟨entry, member, request, breaking, named⟩
    constructor
    · exact ⟨entry, member, request, breaking, named⟩
    · exact classifyRisk_of_breaking (List.mem_of_mem_filter member) breaking

/-- A charge whose currency may be left out. -/
def currencyOptional : Json :=
  singleOperation "/charges" "post" [("currency", primitive "string")] []

/-- A charge whose currency is required. -/
def currencyRequired : Json :=
  singleOperation "/charges" "post" [("currency", primitive "string")]
    ["currency"]

theorem newlyRequired_reported_iff_currency :
    (ReportsBreaking
          (diffOpenApi Text.lowerCase currencyOptional
            currencyRequired).entries "/charges" "post" "currency" ∧
        (diffOpenApi Text.lowerCase currencyOptional
          currencyRequired).risk = .breaking) ↔
      ("currency" ∈
          (requestFields currencyOptional "/charges" "post").props.keys ↔
        "currency" ∉
          (requestFields currencyRequired "/charges" "post").props.keys) :=
  newlyRequired_reported_iff Text.lowerCase currencyOptional
    currencyRequired "/charges" "post" "currency" (by decide)
    (by decide) (by decide) (by decide)

/-- A kept field which becomes required is not reported at all. -/
theorem kept_field_required_unreported :
    HasOperation currencyOptional "/charges" "post" ∧
      HasOperation currencyRequired "/charges" "post" ∧
      "currency" ∈
        (requestFields currencyRequired "/charges" "post").required ∧
      "currency" ∉
        (requestFields currencyOptional "/charges" "post").required ∧
      ¬ ReportsBreaking
        (diffOpenApi Text.lowerCase currencyOptional
          currencyRequired).entries "/charges" "post" "currency" ∧
      (diffOpenApi Text.lowerCase currencyOptional
        currencyRequired).risk = .nonBreaking := by
  unfold ReportsBreaking
  decide

end Mendpoint.ChangeIntel
