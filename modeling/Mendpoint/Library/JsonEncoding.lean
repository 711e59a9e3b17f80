import Mendpoint.Library.CanonicalJson

/-!
# Encodings of values as JSON

How values are written as JSON values which tell them apart, whatever the
order of the members of objects, and so do their canonical texts.
-/

namespace Mendpoint.Library

universe u

/-- A way to write values which keeps them apart. -/
structure Encoding (α : Type u) where
  write : α → Json
  injective : Function.Injective fun value => (write value).sorted

namespace Encoding

variable {α : Type u}

theorem canonical_inj (encoding : Encoding α) {numerals : Numerals}
    {left right : α}
    (same : (encoding.write left).canonical numerals =
      (encoding.write right).canonical numerals) : left = right :=
  encoding.injective (Json.canonical_eq_iff.mp same)

/-! ## Values without members -/

def text : Encoding String where
  write := .str
  injective _ _ same := Json.str.inj same

/-- The encoding of an enumeration by its texts. -/
def named (name : α → String) (all : List α)
    (distinct : (all.map name).Nodup) (every : ∀ value, value ∈ all) :
    Encoding α where
  write value := .str (name value)
  injective left right same := List.inj_on_of_nodup_map distinct
    (every left) (every right) (Json.str.inj same)

/-! ## Lists and records -/

theorem sortedItems_eq_map (items : List Json) :
    Json.sortedItems items = items.map Json.sorted := by
  induction items with
  | nil => rfl
  | cons first rest inductionHypothesis =>
    rw [Json.sortedItems, List.map_cons, inductionHypothesis]

def list (encoding : Encoding α) : Encoding (List α) where
  write values := .arr (values.map encoding.write)
  injective left right same := by
    have items := Json.arr.inj same
    rw [sortedItems_eq_map, sortedItems_eq_map, List.map_map, List.map_map]
      at items
    exact List.map_injective_iff.mpr encoding.injective items

/-- A value or null, for values which are not written as null. -/
def nullable (encoding : Encoding α)
    (present : ∀ value, (encoding.write value).sorted ≠ .null) :
    Encoding (Option α) where
  write value := (value.map encoding.write).getD .null
  injective left right same := by
    cases left with
    | none =>
      cases right with
      | none => rfl
      | some value => exact absurd same.symm (present value)
    | some value =>
      cases right with
      | none => exact absurd same (present value)
      | some other => exact congrArg some (encoding.injective same)

/-- The encoding of a record whose members tell its values apart. -/
def record (names : List String) (members : List (α → Json))
    (distinct : names.Nodup) (full : members.length = names.length)
    (determined : ∀ left right,
      (members.map fun member => (member left).sorted) =
        (members.map fun member => (member right).sorted) → left = right) :
    Encoding α where
  write value := .record names (members.map fun member => some (member value))
  injective left right same := by
    refine determined left right ?_
    have sorted := Json.record_sorted_inj distinct
      (by rw [List.length_map, full]) (by rw [List.length_map, full]) same
    rw [List.map_map, List.map_map] at sorted
    refine List.map_injective_iff.mpr (Option.some_injective Json) ?_
    rw [List.map_map, List.map_map]
    exact sorted

end Encoding

end Mendpoint.Library
