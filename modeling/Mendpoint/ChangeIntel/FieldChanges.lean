import Mendpoint.Library.GreedyMatching
import Mendpoint.ChangeIntel.SpecRef

/-!
# Removed and added fields

How the differ pairs the fields which a schema lost with those it gained: the
evidence that one field succeeds another, and the loop which asserts a lone
strong successor as a rename and leaves several successors open.  The loop is
the greedy matching of the library at this evidence.

The case folding of the host is a parameter, `toLowerCase`.
-/

namespace Mendpoint.ChangeIntel

open Mendpoint.Library

/-! ## Evidence -/

/-- Structural equality of raw schema fragments. -/
def schemaDeepEqual (left right : Json) : Bool :=
  Json.deepEqual left right

def fieldType (schema : Json) : Option String :=
  ((asObj (some schema)).get? "type").bind Json.text?

/-- Same primitive type, or lenient when either side omits it. -/
def typeCompatible (left right : Json) : Bool :=
  match fieldType left, fieldType right with
  | some leftType, some rightType => decide (leftType = rightType)
  | _, _ => true

/-- Both fields carry the same example value. -/
def sharedExample (left right : Json) : Bool :=
  match (asObj (some left)).get? "example",
      (asObj (some right)).get? "example" with
  | some leftExample, some rightExample =>
    schemaDeepEqual leftExample rightExample
  | _, _ => false

/-- The cells of a row of the edit distance table, from the row above. -/
def levenshteinCells (unit : Nat) :
    List Nat → List Nat → Nat → List Nat
  | other :: others, diagonal :: above :: previous, before =>
    let cost := if unit = other then 0 else 1
    let cell := min (min (above + 1) (before + 1)) (diagonal + cost)
    cell :: levenshteinCells unit others (above :: previous) cell
  | _, _, _ => []

/-- The edit distance of two texts, on their code units. -/
def levenshtein (left right : String) : Nat :=
  let rows := (Text.codeUnits left).zipIdx.foldl
    (fun previous entry =>
      (entry.2 + 1) ::
        levenshteinCells entry.1 (Text.codeUnits right) previous
          (entry.2 + 1))
    (List.range ((Text.codeUnits right).length + 1))
  rows.getLast?.getD 0

/-- Within one edit for three units of the shorter name, and three edits. -/
def lexicallyClose (left right : String) : Bool :=
  let minLen :=
    min (Text.codeUnits left).length (Text.codeUnits right).length
  decide (levenshtein left right ≤ min 3 (minLen / 3))

/-- The place between a small letter or digit and a capital. -/
def camelBoundary (before : Option Char) (char : Char) : Bool :=
  match before with
  | some other =>
    (('a' ≤ other && other ≤ 'z') || ('0' ≤ other && other ≤ '9')) &&
      ('A' ≤ char && char ≤ 'Z')
  | none => false

/-- Split at `_`, `.` and `-`, and before a capital in camel case. -/
def splitTokens :
    Option Char → List Char → List Char → List String
  | _, token, [] => [String.ofList token.reverse]
  | before, token, char :: rest =>
    if char = '_' ∨ char = '.' ∨ char = '-' then
      String.ofList token.reverse :: splitTokens (some char) [] rest
    else if camelBoundary before char then
      String.ofList token.reverse :: splitTokens (some char) [char] rest
    else splitTokens (some char) (char :: token) rest

/-- Whether a name occurs in another as a whole token. -/
def containsToken (toLowerCase : String → String)
    (haystack needle : String) : Bool :=
  if needle = "" then false
  else
    (((splitTokens none [] haystack.toList).map toLowerCase).filter
      fun token => decide (token ≠ "")).contains (toLowerCase needle)

/-- A schema with more than a bare type. -/
def isDistinctiveSchema (schema : Json) : Bool :=
  (asObj (some schema)).keys.any fun key => decide (key ≠ "type")

/-- A name without a final `_cents`. -/
def withoutCents (name : String) : String :=
  if Text.endsWith name "_cents" then
    String.ofList (name.toList.take (name.toList.length - 6))
  else name

/-- Whether an added field is a plausible successor of a removed one. -/
def isPlausibleSuccessor (fromField : String) (fromSchema : Json)
    (toField : String) (toSchema : Json) : Bool :=
  (Text.includes fromField toField ||
    Text.includes toField fromField ||
    decide (withoutCents fromField = toField) ||
    decide (withoutCents toField = fromField) ||
    lexicallyClose fromField toField) ||
  schemaDeepEqual fromSchema toSchema ||
  (typeCompatible fromSchema toSchema &&
    sharedExample fromSchema toSchema)

/-- Whether a lone candidate is strong enough to assert as a rename. -/
def isConfidentSuccessor (toLowerCase : String → String)
    (fromField : String) (fromSchema : Json)
    (toField : String) (toSchema : Json) : Bool :=
  (decide (withoutCents fromField = toField) ||
    decide (withoutCents toField = fromField)) ||
  (containsToken toLowerCase fromField toField ||
    containsToken toLowerCase toField fromField) ||
  lexicallyClose fromField toField ||
  (isDistinctiveSchema fromSchema &&
    schemaDeepEqual fromSchema toSchema) ||
  (typeCompatible fromSchema toSchema &&
    sharedExample fromSchema toSchema)

/-! ## The loop over removed fields -/

/-- A removed field and its asserted successor. -/
structure FieldRename where
  fromField : String
  toField : String

/-- A removed field and its plausible successors. -/
structure FieldAmbiguity where
  fromField : String
  candidates : List String

/-- What the loop has found, and the targets of its renames. -/
structure FieldChanges where
  renames : List FieldRename
  ambiguities : List FieldAmbiguity
  usedTo : List String

/-- The keys of one map which are missing from another. -/
def keysMissingFrom (props others : OrderedMap String Json) :
    List String :=
  props.keys.filter fun key => !others.has key

/-- The schema of a field; every field asked for is a key. -/
def schemaOf (props : OrderedMap String Json) (field : String) : Json :=
  props.getD field (.obj [])

section Detection

variable (toLowerCase : String → String)
variable (oldProps newProps : OrderedMap String Json)

/-- The unused added fields which plausibly succeed a removed one. -/
def successorCandidates (usedTo : List String) (fromField : String) :
    List String :=
  (keysMissingFrom newProps oldProps).filter fun toField =>
    decide (toField ∉ usedTo) &&
      isPlausibleSuccessor fromField (schemaOf oldProps fromField)
        toField (schemaOf newProps toField)

/-- One turn of the loop over the removed fields. -/
def detectFieldChange (changes : FieldChanges) (fromField : String) :
    FieldChanges :=
  match successorCandidates oldProps newProps changes.usedTo fromField with
  | [] => changes
  | [toField] =>
    if isConfidentSuccessor toLowerCase fromField
        (schemaOf oldProps fromField) toField
        (schemaOf newProps toField) then
      { changes with
        renames := changes.renames ++ [⟨fromField, toField⟩]
        usedTo := changes.usedTo ++ [toField] }
    else changes
  | first :: second :: rest =>
    { changes with
      ambiguities := changes.ambiguities ++
        [⟨fromField, first :: second :: rest⟩] }

/-- Pair the removed fields with the added ones. -/
def detectFieldChanges : FieldChanges :=
  (keysMissingFrom oldProps newProps).foldl
    (detectFieldChange toLowerCase oldProps newProps)
    { renames := [], ambiguities := [], usedTo := [] }

/-! ## The loop is a greedy matching -/

/-- The added fields, and the evidence for each as a successor. -/
def fieldMatching : GreedyMatching String String where
  targets := keysMissingFrom newProps oldProps
  admits fromField toField :=
    isPlausibleSuccessor fromField (schemaOf oldProps fromField)
      toField (schemaOf newProps toField)
  confident fromField toField :=
    isConfidentSuccessor toLowerCase fromField
      (schemaOf oldProps fromField) toField (schemaOf newProps toField)

/-- The rename which a ruling asserts, if any. -/
def assertedRename (ruling : String × GreedyMatching.Verdict String) :
    Option FieldRename :=
  ruling.2.target?.map fun toField => ⟨ruling.1, toField⟩

/-- The ambiguity which a ruling reports, if any. -/
def reportedAmbiguity (ruling : String × GreedyMatching.Verdict String) :
    Option FieldAmbiguity :=
  ruling.2.offered?.map fun candidates => ⟨ruling.1, candidates⟩

theorem detectFieldChange_eq (changes : FieldChanges)
    (fromField : String) :
    detectFieldChange toLowerCase oldProps newProps changes fromField =
      match (fieldMatching toLowerCase oldProps newProps).verdict
          changes.usedTo fromField with
      | .abstains => changes
      | .takes toField =>
        { changes with
          renames := changes.renames ++ [⟨fromField, toField⟩]
          usedTo := changes.usedTo ++ [toField] }
      | .leftOpen candidates =>
        { changes with
          ambiguities := changes.ambiguities ++
            [⟨fromField, candidates⟩] } := by
  have offered :
      (fieldMatching toLowerCase oldProps newProps).offers changes.usedTo
          fromField =
        successorCandidates oldProps newProps changes.usedTo fromField :=
    rfl
  rw [detectFieldChange, GreedyMatching.verdict, offered]
  cases successorCandidates oldProps newProps changes.usedTo fromField with
  | nil => rfl
  | cons first rest =>
    cases rest with
    | nil =>
      cases strong : isConfidentSuccessor toLowerCase fromField
          (schemaOf oldProps fromField) first
          (schemaOf newProps first) with
      | false => simp [fieldMatching, strong]
      | true => simp [fieldMatching, strong]
    | cons second rest => rfl

theorem detectFieldChange_foldl (sources : List String) :
    sources.foldl (detectFieldChange toLowerCase oldProps newProps)
        { renames := [], ambiguities := [], usedTo := [] } =
      { renames :=
          ((fieldMatching toLowerCase oldProps newProps).rulings
            sources).filterMap assertedRename
        ambiguities :=
          ((fieldMatching toLowerCase oldProps newProps).rulings
            sources).filterMap reportedAmbiguity
        usedTo :=
          (fieldMatching toLowerCase oldProps newProps).taken sources } := by
  induction sources using List.reverseRecOn with
  | nil => rfl
  | append_singleton earlier source inductionHypothesis =>
    rw [List.foldl_append, inductionHypothesis, List.foldl_cons,
      List.foldl_nil, detectFieldChange_eq,
      GreedyMatching.rulings_append_single,
      GreedyMatching.taken_append_single, GreedyMatching.advance,
      List.filterMap_append, List.filterMap_append]
    cases (fieldMatching toLowerCase oldProps newProps).verdict
        ((fieldMatching toLowerCase oldProps newProps).taken earlier)
        source with
    | abstains =>
      simp [assertedRename, reportedAmbiguity,
        GreedyMatching.Verdict.target?, GreedyMatching.Verdict.offered?]
    | takes toField =>
      simp [assertedRename, reportedAmbiguity,
        GreedyMatching.Verdict.target?, GreedyMatching.Verdict.offered?]
    | leftOpen candidates =>
      simp [assertedRename, reportedAmbiguity,
        GreedyMatching.Verdict.target?, GreedyMatching.Verdict.offered?]

theorem mem_renames_iff (rename : FieldRename) :
    rename ∈ (detectFieldChanges toLowerCase oldProps newProps).renames ↔
      (rename.fromField, GreedyMatching.Verdict.takes rename.toField) ∈
        (fieldMatching toLowerCase oldProps newProps).rulings
          (keysMissingFrom oldProps newProps) := by
  rw [detectFieldChanges, detectFieldChange_foldl]
  simp only [List.mem_filterMap]
  constructor
  · rintro ⟨⟨source, verdict⟩, member, asserted⟩
    rw [assertedRename, Option.map_eq_some_iff] at asserted
    rcases asserted with ⟨toField, chosen, rfl⟩
    rw [GreedyMatching.Verdict.target?_eq_some_iff] at chosen
    change verdict = _ at chosen
    rw [chosen] at member
    exact member
  · intro member
    exact ⟨_, member, rfl⟩

theorem mem_ambiguities_iff (ambiguity : FieldAmbiguity) :
    ambiguity ∈
        (detectFieldChanges toLowerCase oldProps newProps).ambiguities ↔
      (ambiguity.fromField,
          GreedyMatching.Verdict.leftOpen ambiguity.candidates) ∈
        (fieldMatching toLowerCase oldProps newProps).rulings
          (keysMissingFrom oldProps newProps) := by
  rw [detectFieldChanges, detectFieldChange_foldl]
  simp only [List.mem_filterMap]
  constructor
  · rintro ⟨⟨source, verdict⟩, member, reported⟩
    rw [reportedAmbiguity, Option.map_eq_some_iff] at reported
    rcases reported with ⟨candidates, chosen, rfl⟩
    rw [GreedyMatching.Verdict.offered?_eq_some_iff] at chosen
    change verdict = _ at chosen
    rw [chosen] at member
    exact member
  · intro member
    exact ⟨_, member, rfl⟩

theorem renames_map_toField :
    (detectFieldChanges toLowerCase oldProps newProps).renames.map
        FieldRename.toField =
      (fieldMatching toLowerCase oldProps newProps).taken
        (keysMissingFrom oldProps newProps) := by
  rw [detectFieldChanges, detectFieldChange_foldl,
    GreedyMatching.taken_eq_filterMap, List.map_filterMap]
  congr 1
  funext ruling
  rw [assertedRename, Option.map_map]
  cases ruling.2.target? <;> rfl

theorem mem_renameSources_iff (field : String) :
    field ∈ (detectFieldChanges toLowerCase oldProps newProps).renames.map
        FieldRename.fromField ↔
      ∃ target, (field, GreedyMatching.Verdict.takes target) ∈
        (fieldMatching toLowerCase oldProps newProps).rulings
          (keysMissingFrom oldProps newProps) := by
  rw [List.mem_map]
  constructor
  · rintro ⟨rename, member, rfl⟩
    exact ⟨rename.toField, (mem_renames_iff _ _ _ _).mp member⟩
  · rintro ⟨target, ruled⟩
    exact ⟨⟨field, target⟩, (mem_renames_iff _ _ _ _).mpr ruled, rfl⟩

theorem mem_ambiguousSources_iff (field : String) :
    field ∈
        (detectFieldChanges toLowerCase oldProps newProps).ambiguities.map
          FieldAmbiguity.fromField ↔
      ∃ offered, (field, GreedyMatching.Verdict.leftOpen offered) ∈
        (fieldMatching toLowerCase oldProps newProps).rulings
          (keysMissingFrom oldProps newProps) := by
  rw [List.mem_map]
  constructor
  · rintro ⟨ambiguity, member, rfl⟩
    exact ⟨ambiguity.candidates, (mem_ambiguities_iff _ _ _ _).mp member⟩
  · rintro ⟨offered, ruled⟩
    exact ⟨⟨field, offered⟩, (mem_ambiguities_iff _ _ _ _).mpr ruled, rfl⟩

theorem mem_candidates_iff (field : String) :
    field ∈
        (detectFieldChanges toLowerCase oldProps
          newProps).ambiguities.flatMap FieldAmbiguity.candidates ↔
      ∃ source offered, field ∈ offered ∧
        (source, GreedyMatching.Verdict.leftOpen offered) ∈
          (fieldMatching toLowerCase oldProps newProps).rulings
            (keysMissingFrom oldProps newProps) := by
  rw [List.mem_flatMap]
  constructor
  · rintro ⟨ambiguity, member, inside⟩
    exact ⟨ambiguity.fromField, ambiguity.candidates, inside,
      (mem_ambiguities_iff _ _ _ _).mp member⟩
  · rintro ⟨source, offered, inside, ruled⟩
    exact ⟨⟨source, offered⟩, (mem_ambiguities_iff _ _ _ _).mpr ruled,
      inside⟩

theorem not_renamed_of_ambiguous {field : String}
    (ambiguous : field ∈
      (detectFieldChanges toLowerCase oldProps newProps).ambiguities.map
        FieldAmbiguity.fromField) :
    field ∉ (detectFieldChanges toLowerCase oldProps newProps).renames.map
      FieldRename.fromField := by
  intro renamed
  rcases (mem_ambiguousSources_iff _ _ _ _).mp ambiguous with
    ⟨offered, leftOpen⟩
  rcases (mem_renameSources_iff _ _ _ _).mp renamed with ⟨target, takes⟩
  have distinct : (keysMissingFrom oldProps newProps).Nodup :=
    (OrderedMap.nodup_keys oldProps).filter _
  have same := GreedyMatching.ruling_unique _ distinct leftOpen takes
  cases same

theorem rename_removed {rename : FieldRename}
    (member : rename ∈
      (detectFieldChanges toLowerCase oldProps newProps).renames) :
    rename.fromField ∈ keysMissingFrom oldProps newProps :=
  GreedyMatching.mem_sources_of_ruling _
    ((mem_renames_iff _ _ _ _).mp member)

theorem rename_added {rename : FieldRename}
    (member : rename ∈
      (detectFieldChanges toLowerCase oldProps newProps).renames) :
    rename.toField ∈ keysMissingFrom newProps oldProps :=
  GreedyMatching.mem_targets_of_takes _
    ((mem_renames_iff _ _ _ _).mp member)

theorem ambiguity_removed {ambiguity : FieldAmbiguity}
    (member : ambiguity ∈
      (detectFieldChanges toLowerCase oldProps newProps).ambiguities) :
    ambiguity.fromField ∈ keysMissingFrom oldProps newProps :=
  GreedyMatching.mem_sources_of_ruling _
    ((mem_ambiguities_iff _ _ _ _).mp member)

theorem candidate_added {field : String}
    (candidate : field ∈
      (detectFieldChanges toLowerCase oldProps
        newProps).ambiguities.flatMap FieldAmbiguity.candidates) :
    field ∈ keysMissingFrom newProps oldProps := by
  rcases (mem_candidates_iff _ _ _ _).mp candidate with
    ⟨source, offered, inside, ruled⟩
  exact GreedyMatching.mem_targets_of_leftOpen _ ruled inside

/-- Whether no rename takes a field which an earlier one left open. -/
def Undisputed : Prop :=
  (fieldMatching toLowerCase oldProps newProps).Undisputed
    (keysMissingFrom oldProps newProps)

theorem undisputed_iff_candidates_kept :
    Undisputed toLowerCase oldProps newProps ↔
      ∀ field ∈ (detectFieldChanges toLowerCase oldProps
          newProps).ambiguities.flatMap FieldAmbiguity.candidates,
        field ∉
          (detectFieldChanges toLowerCase oldProps newProps).renames.map
            FieldRename.toField := by
  rw [Undisputed, GreedyMatching.undisputed_iff, renames_map_toField]
  constructor
  · intro separate field candidate
    rcases (mem_candidates_iff _ _ _ _).mp candidate with
      ⟨source, offered, inside, ruled⟩
    exact separate source offered ruled field inside
  · intro separate source offered ruled field inside
    apply separate field
    rw [mem_candidates_iff]
    exact ⟨source, offered, inside, ruled⟩

end Detection

end Mendpoint.ChangeIntel
