import Mathlib.Data.Set.Basic
import Mendpoint.Library.Collation

/-!
# What a change of a GraphQL type allows

The values of a type reference are a set: those of a named type, and null; the
lists over the values of its elements, and null; or what another reference has
but null.  A change of type is safe exactly when one set holds the other.
-/

namespace Mendpoint.ChangeIntel

open Mendpoint.Library

/-- A GraphQL name. -/
structure GraphQLName where
  text : String
  word : Text.isWord text = true
  nonempty : text ≠ ""
  deriving DecidableEq

/-- A type reference; its lists and non-null marks nest freely. -/
inductive TypeNode where
  | named (name : GraphQLName)
  | list (type : TypeNode)
  | nonNull (type : TypeNode)

def safeOutputTypeChange : TypeNode → TypeNode → Bool
  | .nonNull old, .nonNull new => safeOutputTypeChange old new
  | .nonNull _, _ => false
  | old, .nonNull new => safeOutputTypeChange old new
  | .list old, .list new => safeOutputTypeChange old new
  | .list _, .named _ => false
  | .named old, .named new => decide (old = new)
  | .named _, .list _ => false

def safeInputTypeChange : TypeNode → TypeNode → Bool
  | .nonNull old, .nonNull new => safeInputTypeChange old new
  | _, .nonNull _ => false
  | .nonNull old, new => safeInputTypeChange old new
  | .list old, .list new => safeInputTypeChange old new
  | .named _, .list _ => false
  | .named old, .named new => decide (old = new)
  | .list _, .named _ => false

/-! ## The values of a type reference -/

/--
A value.  The values of a named type are opaque; they belong to no other type.
-/
inductive GraphQLValue (content : GraphQLName → Type) where
  | null
  | leaf (name : GraphQLName) (value : content name)
  | list (items : List (GraphQLValue content))

variable {content : GraphQLName → Type}

/-- A value which a type reference allows. -/
def TypeNode.Allows : TypeNode → GraphQLValue content → Prop
  | .named name, value => value = .null ∨ ∃ leaf, value = .leaf name leaf
  | .list type, value =>
    value = .null ∨
      ∃ items, value = .list items ∧ ∀ item ∈ items, type.Allows item
  | .nonNull type, value => value ≠ .null ∧ type.Allows value

/-- The values which a type reference allows. -/
def TypeNode.values (content : GraphQLName → Type) (type : TypeNode) :
    Set (GraphQLValue content) :=
  {value | type.Allows value}

/-- The reference has no non-null mark outside. -/
def TypeNode.Nullable : TypeNode → Prop
  | .nonNull _ => False
  | _ => True

/-- A non-null mark stands on a name or on a list, as the grammar has it. -/
def TypeNode.Grammatical : TypeNode → Prop
  | .named _ => True
  | .list type => type.Grammatical
  | .nonNull type => type.Nullable ∧ type.Grammatical

/-- A reference of the grammar. -/
structure TypeReference where
  node : TypeNode
  grammatical : node.Grammatical

namespace TypeNode

variable {type old new : TypeNode}

theorem nullable_of_unmarked
    (unmarked : ∀ inner, type = nonNull inner → False) : type.Nullable := by
  cases type with
  | named name => trivial
  | list inner => trivial
  | nonNull inner => exact (unmarked inner rfl).elim

/-! ## Sets of values -/

theorem null_mem (nullable : type.Nullable) :
    (.null : GraphQLValue content) ∈ type.values content := by
  cases type with
  | named name => exact .inl rfl
  | list type => exact .inl rfl
  | nonNull type => exact nullable.elim

theorem mem_nonNull {value : GraphQLValue content} :
    value ∈ (nonNull type).values content ↔
      value ≠ .null ∧ value ∈ type.values content :=
  Iff.rfl

theorem list_mem {items : List (GraphQLValue content)} :
    .list items ∈ (list type).values content ↔
      ∀ item ∈ items, item ∈ type.values content := by
  constructor
  · rintro (impossible | ⟨others, same, allowed⟩)
    · cases impossible
    · cases same
      exact allowed
  · exact fun allowed => .inr ⟨items, rfl, allowed⟩

theorem leaf_mem_iff {name other : GraphQLName} {value : content other} :
    .leaf other value ∈ (named name).values content ↔ other = name := by
  constructor
  · rintro (impossible | ⟨leaf, same⟩)
    · cases impossible
    · cases same
      rfl
  · rintro rfl
    exact .inr ⟨value, rfl⟩

theorem nonNull_subset_iff (nullable : old.Nullable) :
    (nonNull new).values content ⊆ old.values content ↔
      new.values content ⊆ old.values content := by
  constructor
  · intro smaller value allowed
    by_cases isNull : value = .null
    · exact isNull ▸ null_mem nullable
    · exact smaller (mem_nonNull.mpr ⟨isNull, allowed⟩)
  · exact fun smaller value allowed => smaller allowed.2

theorem nonNull_subset_nonNull_iff (nullable : old.Nullable) :
    (nonNull new).values content ⊆ (nonNull old).values content ↔
      new.values content ⊆ old.values content := by
  rw [← nonNull_subset_iff nullable]
  constructor
  · exact fun smaller value allowed => (smaller allowed).2
  · exact fun smaller value allowed => ⟨allowed.1, smaller allowed⟩

theorem not_subset_nonNull (nullable : new.Nullable) :
    ¬ new.values content ⊆ (nonNull old).values content :=
  fun smaller => (smaller (null_mem nullable)).1 rfl

theorem list_subset_list_iff :
    (list new).values content ⊆ (list old).values content ↔
      new.values content ⊆ old.values content := by
  constructor
  · intro smaller value allowed
    have single : GraphQLValue.list [value] ∈ (list new).values content :=
      list_mem.mpr (List.forall_mem_singleton.mpr allowed)
    exact List.forall_mem_singleton.mp (list_mem.mp (smaller single))
  · rintro smaller value (rfl | ⟨items, rfl, allowed⟩)
    · exact .inl rfl
    · exact list_mem.mpr fun item member => smaller (allowed item member)

theorem not_list_subset_named {name : GraphQLName} :
    ¬ (list new).values content ⊆ (named name).values content := by
  intro smaller
  have empty : GraphQLValue.list [] ∈ (list new).values content :=
    list_mem.mpr (List.forall_mem_nil _)
  rcases smaller empty with impossible | ⟨leaf, impossible⟩
  · cases impossible
  · cases impossible

variable [inhabited : ∀ name, Inhabited (content name)]

theorem not_named_subset_list {old : TypeNode} {name : GraphQLName} :
    ¬ (named name).values content ⊆ (list old).values content := by
  intro smaller
  have leaf : GraphQLValue.leaf name (inhabited name).default ∈
      (named name).values content := leaf_mem_iff.mpr rfl
  rcases smaller leaf with impossible | ⟨items, impossible, _⟩
  · cases impossible
  · cases impossible

theorem named_subset_named_iff {old new : GraphQLName} :
    (named new).values content ⊆ (named old).values content ↔ old = new := by
  constructor
  · intro smaller
    have leaf : GraphQLValue.leaf new (inhabited new).default ∈
        (named new).values content := leaf_mem_iff.mpr rfl
    exact (leaf_mem_iff.mp (smaller leaf)).symm
  · rintro rfl
    exact subset_rfl

end TypeNode

/-! ## Changes -/

section Changes

variable [inhabited : ∀ name, Inhabited (content name)]

theorem safeOutputTypeChange_iff {old new : TypeNode}
    (grammatical : old.Grammatical) (grammaticalNew : new.Grammatical) :
    safeOutputTypeChange old new = true ↔
      new.values content ⊆ old.values content := by
  fun_induction safeOutputTypeChange old new with
  | case1 old new inductionHypothesis =>
    rw [TypeNode.nonNull_subset_nonNull_iff grammatical.1]
    exact inductionHypothesis grammatical.2 grammaticalNew.2
  | case2 new old unmarked =>
    exact iff_of_false Bool.false_ne_true
      (TypeNode.not_subset_nonNull (TypeNode.nullable_of_unmarked unmarked))
  | case3 old new unmarked inductionHypothesis =>
    rw [TypeNode.nonNull_subset_iff (TypeNode.nullable_of_unmarked unmarked)]
    exact inductionHypothesis grammatical grammaticalNew.2
  | case4 old new inductionHypothesis =>
    rw [TypeNode.list_subset_list_iff]
    exact inductionHypothesis grammatical grammaticalNew
  | case5 old new =>
    exact iff_of_false Bool.false_ne_true TypeNode.not_named_subset_list
  | case6 old new =>
    rw [TypeNode.named_subset_named_iff, decide_eq_true_iff]
  | case7 old new =>
    exact iff_of_false Bool.false_ne_true TypeNode.not_list_subset_named

end Changes

theorem safeInputTypeChange_eq (old new : TypeNode) :
    safeInputTypeChange old new = safeOutputTypeChange new old := by
  fun_induction safeInputTypeChange old new with
  | case1 old new inductionHypothesis =>
    rw [safeOutputTypeChange, inductionHypothesis]
  | case2 old new unmarked =>
    cases old with
    | nonNull inner => exact (unmarked inner rfl).elim
    | named name => rfl
    | list inner => rfl
  | case3 old new unmarked inductionHypothesis =>
    rw [inductionHypothesis]
    cases new with
    | nonNull inner => exact (unmarked inner rfl).elim
    | named name => rfl
    | list inner => rfl
  | case4 old new inductionHypothesis =>
    rw [safeOutputTypeChange, inductionHypothesis]
  | case5 old new => rfl
  | case6 old new =>
    rw [safeOutputTypeChange]
    exact decide_eq_decide.mpr eq_comm
  | case7 old new => rfl

/--
A change of type is safe for an output exactly when it brings no value, and for
an input exactly when it refuses none; the two are dual, and each is reflexive
and transitive.
-/
theorem safeTypeChanges_exact [∀ name, Inhabited (content name)]
    (old new : TypeReference) :
    (safeOutputTypeChange old.node new.node = true ↔
        new.node.values content ⊆ old.node.values content) ∧
      (safeInputTypeChange old.node new.node = true ↔
        old.node.values content ⊆ new.node.values content) ∧
      safeInputTypeChange old.node new.node =
        safeOutputTypeChange new.node old.node ∧
      safeOutputTypeChange old.node old.node = true ∧
      safeInputTypeChange old.node old.node = true ∧
      ∀ later : TypeReference,
        (safeOutputTypeChange old.node new.node = true →
          safeOutputTypeChange new.node later.node = true →
          safeOutputTypeChange old.node later.node = true) ∧
        (safeInputTypeChange old.node new.node = true →
          safeInputTypeChange new.node later.node = true →
          safeInputTypeChange old.node later.node = true) := by
  have exactly : ∀ one two : TypeReference,
      safeOutputTypeChange one.node two.node = true ↔
        two.node.values content ⊆ one.node.values content :=
    fun one two => safeOutputTypeChange_iff one.grammatical two.grammatical
  have reflexive : ∀ one : TypeReference,
      safeOutputTypeChange one.node one.node = true :=
    fun one => (exactly one one).mpr subset_rfl
  have transitive : ∀ one two three : TypeReference,
      safeOutputTypeChange one.node two.node = true →
        safeOutputTypeChange two.node three.node = true →
          safeOutputTypeChange one.node three.node = true := by
    intro one two three first second
    rw [exactly] at first second ⊢
    exact second.trans first
  simp only [safeInputTypeChange_eq]
  exact ⟨exactly old new, exactly new old, trivial, reflexive old,
    reflexive old, fun later => ⟨transitive old new later,
      fun first second => transitive later new old second first⟩⟩

end Mendpoint.ChangeIntel
