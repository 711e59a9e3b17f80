import Mathlib.Data.List.DropRight
import Mendpoint.Library.Delimited

/-!
# POSIX paths

Resolution of slash-separated paths against an absolute root.  A canonical
relative path, which has no empty, `.` or `..` segment, resolves to itself.
-/

namespace Mendpoint.Library.PosixPath

/-- The segments of a path. -/
def segments (path : String) : List String :=
  Text.splitOn '/' path

/-- Follow one segment from a directory. -/
def follow (directory : List String) (segment : String) : List String :=
  if segment = "" ∨ segment = "." then directory
  else if segment = ".." then directory.dropLast
  else directory ++ [segment]

/-- Follow the segments of a path from a directory. -/
def resolveFrom (directory : List String) (path : String) : List String :=
  (segments path).foldl follow directory

/-- The segments of an absolute path once it is resolved. -/
def absolute (path : String) : List String :=
  resolveFrom [] path

/-- A path relative to a directory which contains it. -/
def below (directory full : List String) : Option String :=
  if directory.isPrefixOf full then
    some (Text.join "/" (full.drop directory.length))
  else none

/-- `resolve(join(root, path))`, relative to the root. -/
def joined (root path : String) : Option String :=
  below (absolute root) (resolveFrom (absolute root) path)

/-- `resolve(root, path)`, relative to the root. -/
def resolved (root path : String) : Option String :=
  if Text.startsWith path "/" then below (absolute root) (absolute path)
  else joined root path

/-- A relative path without empty, `.` and `..` segments. -/
def Canonical (path : String) : Prop :=
  ∀ segment ∈ segments path,
    segment ≠ "" ∧ segment ≠ "." ∧ segment ≠ ".."

instance (path : String) : Decidable (Canonical path) :=
  inferInstanceAs (Decidable (∀ segment ∈ segments path,
    segment ≠ "" ∧ segment ≠ "." ∧ segment ≠ ".."))

theorem foldl_follow {path : List String}
    (plain : ∀ segment ∈ path,
      segment ≠ "" ∧ segment ≠ "." ∧ segment ≠ "..")
    (directory : List String) :
    path.foldl follow directory = directory ++ path := by
  induction path generalizing directory with
  | nil => simp
  | cons segment rest inductionHypothesis =>
    obtain ⟨notEmpty, notDot, notDots⟩ := plain segment (by simp)
    have step : follow directory segment = directory ++ [segment] := by
      simp [follow, notEmpty, notDot, notDots]
    rw [List.foldl_cons, step,
      inductionHypothesis fun other member =>
        plain other (by simp [member])]
    simp

theorem join_segments (path : String) :
    Text.join "/" (segments path) = path := by
  have slash : String.ofList ['/'] = "/" := by decide
  apply String.toList_inj.mp
  rw [← slash, Delimited.toList_join, segments, Text.splitOn, List.map_map]
  have same : (String.toList ∘ String.ofList) = id := by
    funext text
    exact String.toList_ofList
  rw [same, List.map_id, Delimited.joinChars_eq_intercalate,
    List.intercalate_splitOn]

variable {path : String}

theorem joined_canonical (root : String) (canonical : Canonical path) :
    joined root path = some path := by
  have full : resolveFrom (absolute root) path =
      absolute root ++ segments path :=
    foldl_follow canonical _
  rw [joined, below, full, if_pos (by simp), List.drop_left,
    join_segments]

theorem not_startsWith_slash (canonical : Canonical path) :
    Text.startsWith path "/" = false := by
  cases shape : path.toList with
  | nil => simp [Text.startsWith, shape]
  | cons char chars =>
    by_cases slash : char = '/'
    · subst slash
      have first : "" ∈ segments path := by
        rw [segments, Text.splitOn, shape]
        have split : ('/' :: chars).splitOn '/' =
            [] :: chars.splitOn '/' := by
          simp [List.splitOn, List.splitOnP_cons_eq_if_modifyHead]
        rw [split]
        simp
      exact absurd rfl (canonical "" first).1
    · have different : ¬ ('/' = char) := fun same => slash same.symm
      change ['/'].isPrefixOf path.toList = false
      rw [shape, List.isPrefixOf, beq_eq_false_iff_ne.mpr different,
        Bool.false_and]

theorem resolved_canonical (root : String) (canonical : Canonical path) :
    resolved root path = some path := by
  rw [resolved, not_startsWith_slash canonical]
  exact joined_canonical root canonical

/-! ## Names in paths -/

theorem of_mem_splitOn {separator : Char} {chars part : List Char}
    (member : part ∈ chars.splitOn separator) :
    separator ∉ part ∧ ∀ char ∈ part, char ∈ chars := by
  induction chars generalizing part with
  | nil =>
    rw [List.splitOn_nil, List.mem_singleton] at member
    subst member
    exact ⟨List.not_mem_nil, fun _ impossible => by cases impossible⟩
  | cons char chars inductionHypothesis =>
    rw [List.splitOn_cons_eq_if_modifyHead] at member
    split at member
    · rcases List.mem_cons.mp member with rfl | later
      · exact ⟨List.not_mem_nil, fun _ impossible => by cases impossible⟩
      · rcases inductionHypothesis later with ⟨absent, kept⟩
        exact ⟨absent, fun other inside =>
          List.mem_cons_of_mem _ (kept other inside)⟩
    · next different =>
        cases parts : chars.splitOn separator with
        | nil => exact absurd parts (List.splitOn_ne_nil separator chars)
        | cons first rest =>
          rw [parts] at member inductionHypothesis
          rcases List.mem_cons.mp member with rfl | later
          · rcases inductionHypothesis (List.mem_cons_self ..) with
              ⟨absent, kept⟩
            constructor
            · intro inside
              rcases List.mem_cons.mp inside with rfl | inside
              · exact different (beq_self_eq_true separator)
              · exact absent inside
            · intro other inside
              rcases List.mem_cons.mp inside with rfl | inside
              · exact List.mem_cons_self ..
              · exact List.mem_cons_of_mem _ (kept other inside)
          · rcases inductionHypothesis
              (List.mem_cons_of_mem _ later) with ⟨absent, kept⟩
            exact ⟨absent, fun other inside =>
              List.mem_cons_of_mem _ (kept other inside)⟩

theorem of_mem_segments {segment : String} (member : segment ∈ segments path) :
    '/' ∉ segment.toList ∧ ∀ char ∈ segment.toList, char ∈ path.toList := by
  rw [segments, Text.splitOn] at member
  rcases List.mem_map.mp member with ⟨part, inside, rfl⟩
  rw [String.toList_ofList]
  exact of_mem_splitOn inside

theorem segments_join {parts : List String} (nonempty : parts ≠ [])
    (noSlash : ∀ part ∈ parts, '/' ∉ part.toList) :
    segments (Text.join "/" parts) = parts := by
  have slash : "/" = String.ofList ['/'] := by decide
  have notNil : parts.map String.toList ≠ [] := by
    rwa [ne_eq, List.map_eq_nil_iff]
  have absent : ∀ part ∈ parts.map String.toList, '/' ∉ part := by
    intro part member
    rcases List.mem_map.mp member with ⟨text, inside, rfl⟩
    exact noSlash text inside
  rw [segments, Text.splitOn, slash, Delimited.toList_join,
    Delimited.joinChars_eq_intercalate,
    List.splitOn_intercalate '/' absent notNil, List.map_map]
  have same : (String.ofList ∘ String.toList) = id := by
    funext text
    exact String.ofList_toList
  rw [same, List.map_id]

end Mendpoint.Library.PosixPath

/-!
## Relative paths

A path relative to an unknown directory is resolved by dropping its empty and
`.` segments and by going back over a name at `..`; where there is no name to
go back over, the `..` stays.  Whether one path starts with another on a
boundary of segments is read off the texts.
-/

namespace Mendpoint.Library.RelativePath

open PosixPath

/-! ## Resolution -/

/-- Follow one segment from where a relative path has led. -/
def step (names : List String) (segment : String) : List String :=
  if segment = "" ∨ segment = "." then names
  else if segment = ".." then
    match names.getLast? with
    | none => names ++ [segment]
    | some last => if last = ".." then names ++ [segment] else names.dropLast
  else names ++ [segment]

/-- Where the segments of a relative path lead. -/
def resolve (path : List String) : List String :=
  path.foldl step []

/-! ## Boundaries of segments -/

theorem segments_ofList_cons_append (front back : List Char) :
    segments (String.ofList (front ++ '/' :: back)) =
      segments (String.ofList front) ++ segments (String.ofList back) := by
  rw [segments, segments, segments, Text.splitOn, Text.splitOn, Text.splitOn,
    String.toList_ofList, String.toList_ofList, String.toList_ofList,
    List.splitOn_append_cons_self, List.map_append]

theorem segments_injective : Function.Injective segments := by
  intro left right same
  rw [← join_segments left, same, join_segments]

theorem noSlash_of_mem_segments {path segment : String}
    (member : segment ∈ segments path) : '/' ∉ segment.toList :=
  (of_mem_segments member).1

theorem segments_prefix_iff {zone path : String} :
    segments zone <+: segments path ↔
      path = zone ∨ Text.startsWith path (zone ++ "/") = true := by
  rw [Text.startsWith, List.isPrefixOf_iff_prefix, String.toList_append]
  constructor
  · rintro ⟨rest, split⟩
    cases rest with
    | nil =>
      rw [List.append_nil] at split
      exact .inl (segments_injective split.symm)
    | cons first others =>
      right
      have inPath : ∀ segment ∈ first :: others, '/' ∉ segment.toList := by
        intro segment member
        apply @noSlash_of_mem_segments path
        rw [← split]
        exact List.mem_append_right _ member
      have whole : path = String.ofList (zone.toList ++ '/' ::
          (Text.join "/" (first :: others)).toList) := by
        apply segments_injective
        rw [segments_ofList_cons_append, String.ofList_toList,
          String.ofList_toList, segments_join (List.cons_ne_nil _ _) inPath,
          split]
      refine ⟨(Text.join "/" (first :: others)).toList, ?_⟩
      have text := congrArg String.toList whole
      rw [String.toList_ofList] at text
      rw [text, List.append_assoc]
      rfl
  · rintro (rfl | ⟨rest, split⟩)
    · exact List.prefix_refl _
    · have whole : path = String.ofList (zone.toList ++ '/' :: rest) := by
        apply String.toList_inj.mp
        rw [String.toList_ofList, ← split, List.append_assoc]
        rfl
      rw [whole, segments_ofList_cons_append, String.ofList_toList]
      exact List.prefix_append _ _

/-! ## Outer slashes -/

end Mendpoint.Library.RelativePath
