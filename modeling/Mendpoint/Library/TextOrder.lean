import Mathlib.Data.List.Infix
import Mathlib.Tactic.Common
import Mendpoint.Library.Collation
import Mendpoint.Library.Text

/-!
# Sorting by code units

The order of code units tells all texts apart, so items with distinct texts
have one sorted order, whatever order they come in.
-/

namespace Mendpoint.Library.Text

universe u

/-! ## Texts from their code units -/

theorem utf16Units_append_inj {left right : Char} {rest other : List Nat}
    (same : utf16Units left ++ rest = utf16Units right ++ other) :
    left = right ∧ rest = other := by
  have plain : ∀ char : Char, char.toNat < 0xd800 ∨
      (0xdfff < char.toNat ∧ char.toNat < 0x110000) := fun char => char.valid
  have here := plain left
  have there := plain right
  rw [utf16Units, utf16Units] at same
  split at same
  · next small =>
      split at same
      · obtain ⟨codes, rests⟩ := List.cons.inj same
        exact ⟨Char.toNat_inj.mp codes, rests⟩
      · next large =>
          have first := (List.cons.inj same).1
          omega
  · next large =>
      split at same
      · next small =>
          have first := (List.cons.inj same).1
          omega
      · next largeToo =>
          obtain ⟨high, lows⟩ := List.cons.inj same
          obtain ⟨low, rests⟩ := List.cons.inj lows
          refine ⟨Char.toNat_inj.mp ?_, rests⟩
          omega

theorem codeUnits_injective : Function.Injective codeUnits := by
  intro left right same
  apply String.toList_inj.mp
  rw [codeUnits, codeUnits] at same
  generalize left.toList = chars at same ⊢
  generalize right.toList = others at same ⊢
  have nonempty : ∀ char, utf16Units char ≠ [] := by
    intro char
    rw [utf16Units]
    split
    · exact List.cons_ne_nil _ _
    · exact List.cons_ne_nil _ _
  induction chars generalizing others with
  | nil =>
    cases others with
    | nil => rfl
    | cons first rest =>
      rw [List.flatMap_nil, List.flatMap_cons] at same
      exact absurd (List.append_eq_nil_iff.mp same.symm).1
        (nonempty first)
  | cons char chars inductionHypothesis =>
    cases others with
    | nil =>
      rw [List.flatMap_nil, List.flatMap_cons] at same
      exact absurd (List.append_eq_nil_iff.mp same).1 (nonempty char)
    | cons first rest =>
      rw [List.flatMap_cons, List.flatMap_cons] at same
      obtain ⟨rfl, rests⟩ := utf16Units_append_inj same
      rw [inductionHypothesis rest rests]

theorem codeUnitLe_antisymm {left right : String}
    (forth : codeUnitLe left right = true)
    (back : codeUnitLe right left = true) : left = right :=
  codeUnits_injective (unitsLe_antisymm _ _ forth back)

/-! ## Items sorted by a text -/

section Sorting

variable {α : Type u} (key : α → String)

/-- Comparison of two items by the code units of a text of each. -/
def Before (left right : α) : Prop :=
  codeUnitLe (key left) (key right) = true

instance : DecidableRel (Before key) := fun _ _ =>
  inferInstanceAs (Decidable (_ = true))

instance : Std.Total (Before key) where
  total _ _ := unitsLe_total _ _

instance : IsTrans α (Before key) where
  trans _ _ _ first second := unitsLe_trans _ _ _ first second

/-- `[...items].sort((a, b) => compareCodeUnits(key(a), key(b)))` -/
def sortBy (items : List α) : List α :=
  items.insertionSort (Before key)

theorem sortBy_perm (items : List α) : (sortBy key items).Perm items :=
  List.perm_insertionSort _ items

theorem sortBy_pairwise (items : List α) :
    (sortBy key items).Pairwise (Before key) :=
  List.pairwise_insertionSort _ items

variable {items : List α}

@[simp]
theorem mem_sortBy {item : α} : item ∈ sortBy key items ↔ item ∈ items :=
  (sortBy_perm key items).mem_iff

@[simp]
theorem length_sortBy (items : List α) :
    (sortBy key items).length = items.length :=
  (sortBy_perm key items).length_eq

theorem nodup_map_sortBy :
    ((sortBy key items).map key).Nodup ↔ (items.map key).Nodup :=
  ((sortBy_perm key items).map key).nodup_iff

theorem sortBy_of_pairwise (sorted : items.Pairwise (Before key)) :
    sortBy key items = items :=
  sorted.insertionSort_eq

theorem sortBy_sortBy (items : List α) :
    sortBy key (sortBy key items) = sortBy key items :=
  sortBy_of_pairwise key (sortBy_pairwise key items)

variable {key}

theorem sortBy_eq_of_perm {items others : List α}
    (distinct : (items.map key).Nodup) (permuted : items.Perm others) :
    sortBy key items = sortBy key others := by
  refine List.Perm.eq_of_pairwise ?_ (sortBy_pairwise key items)
    (sortBy_pairwise key others)
    ((sortBy_perm key items).trans
      (permuted.trans (sortBy_perm key others).symm))
  intro left right inside within forth back
  rw [mem_sortBy] at inside within
  exact List.inj_on_of_nodup_map distinct inside
    (permuted.mem_iff.mpr within) (codeUnitLe_antisymm forth back)

end Sorting

/-! ## Sorted texts -/

theorem sortTexts_perm (texts : List String) :
    (sortTexts texts).Perm texts :=
  sortBy_perm id texts

theorem sortTexts_sortTexts (texts : List String) :
    sortTexts (sortTexts texts) = sortTexts texts :=
  sortBy_sortBy id texts

theorem sortTexts_eq_of_perm {texts others : List String}
    (permuted : texts.Perm others) : sortTexts texts = sortTexts others := by
  refine List.Perm.eq_of_pairwise ?_ (sortBy_pairwise id texts)
    (sortBy_pairwise id others)
    ((sortBy_perm id texts).trans
      (permuted.trans (sortBy_perm id others).symm))
  intro left right _ _ forth back
  exact codeUnitLe_antisymm forth back

end Mendpoint.Library.Text

/-!
## Texts in SQL

The functions of SQLite on texts, which count characters from one, beside the
operations of ECMAScript which do the same.  Texts hold no NUL character, for
which SQLite leaves its functions undefined.
-/

namespace Mendpoint.Library.SqlText

/-- `length(text)`. -/
def length (text : String) : Nat :=
  text.toList.length

/-- `substr(text, start, count)` for a start of one or more. -/
def substr (text : String) (start count : Nat) : String :=
  String.ofList ((text.toList.drop (start - 1)).take count)

/-- `substr(text, start)` for a start of one or more. -/
def substrFrom (text : String) (start : Nat) : String :=
  String.ofList (text.toList.drop (start - 1))

/-- `instr(text, char)`: the place of the first, or zero. -/
def instr (text : String) (char : Char) : Nat :=
  if char ∈ text.toList then text.toList.idxOf char + 1 else 0

theorem substr_eq_iff_startsWith (text start : String) :
    substr text 1 (length start) = start ↔
      Text.startsWith text start = true := by
  rw [substr, length, Nat.sub_self, List.drop_zero, Text.startsWith,
    List.isPrefixOf_iff_prefix]
  constructor
  · intro same
    have chars := congrArg String.toList same
    rw [String.toList_ofList] at chars
    rw [← chars]
    exact List.take_prefix _ _
  · intro front
    rw [← List.prefix_iff_eq_take.mp front, String.ofList_toList]

theorem length_append (left right : String) :
    length (left ++ right) = length left + length right := by
  rw [length, String.toList_append, List.length_append]
  rfl

end Mendpoint.Library.SqlText

/-!
## Patterns of identifiers

The regular expressions of names and of hexadecimal texts, as tests.
-/

namespace Mendpoint.Library.Pattern

/-- `[A-Za-z0-9]` -/
def isAlphanumeric (char : Char) : Bool :=
  char.isAlpha || char.isDigit

/-- `[a-f0-9]` -/
def isHex (char : Char) : Bool :=
  char.isDigit || ('a' ≤ char && char ≤ 'f')

/-- A first letter or digit, and then at most so many allowed characters. -/
def isName (allowed : List Char) (more : Nat) (text : String) : Bool :=
  match text.toList with
  | [] => false
  | first :: rest =>
    isAlphanumeric first &&
      rest.all (fun char => isAlphanumeric char || char ∈ allowed) &&
      decide (rest.length ≤ more)

/-- So many hexadecimal digits, and nothing else. -/
def isHexText (count : Nat) (chars : List Char) : Bool :=
  decide (chars.length = count) && chars.all isHex

/-- `/^sha256:[a-f0-9]{64}$/` -/
def isDigest (text : String) : Bool :=
  decide (text.toList.take 7 = "sha256:".toList) &&
    isHexText 64 (text.toList.drop 7)

end Mendpoint.Library.Pattern
