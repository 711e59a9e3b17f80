import Mathlib.Data.List.Sort
import Mendpoint.Library.Text

/-!
# Sorting by a collation

The order in which a host compares texts for people is not the order of their
code units.  What a program relies on is that it is a total preorder which
tells words apart, and then sorting by distinct words leaves one possible
order.
-/

namespace Mendpoint.Library

universe u v w

/-- Characters of words: letters and digits of ASCII, and the underscore. -/
def Text.isWordChar (char : Char) : Bool :=
  char.isAlphanum || char = '_'

/-- A text of word characters. -/
def Text.isWord (text : String) : Bool :=
  text.toList.all Text.isWordChar

/-- `left.localeCompare(right) <= 0`, as a total preorder telling words apart. -/
structure Collation where
  le : String → String → Bool
  total : ∀ left right, le left right = true ∨ le right left = true
  trans : ∀ first second third, le first second = true →
    le second third = true → le first third = true
  antisymm : ∀ left right, Text.isWord left = true →
    Text.isWord right = true → le left right = true →
    le right left = true → left = right

namespace Collation

variable (collation : Collation)

/-- Comparison of two items by the text under which each is known. -/
def ordered {α : Type u} (key : α → String) (left right : α) : Prop :=
  collation.le (key left) (key right) = true

instance {α : Type u} (key : α → String) :
    DecidableRel (collation.ordered key) := fun _ _ =>
  inferInstanceAs (Decidable (_ = true))

instance {α : Type u} (key : α → String) :
    Std.Total (collation.ordered key) :=
  ⟨fun left right => collation.total (key left) (key right)⟩

instance {α : Type u} (key : α → String) :
    IsTrans α (collation.ordered key) :=
  ⟨fun first second third =>
    collation.trans (key first) (key second) (key third)⟩

/-- Stable sort by a text. -/
def sortBy {α : Type u} (key : α → String) (items : List α) : List α :=
  items.insertionSort (collation.ordered key)

/-- Comparison by one text, and by another where the first compare equal. -/
def orderedThen {α : Type u} (first second : α → String)
    (left right : α) : Prop :=
  (if collation.le (first left) (first right) &&
      collation.le (first right) (first left) then
    collation.le (second left) (second right)
  else collation.le (first left) (first right)) = true

instance {α : Type u} (first second : α → String) :
    DecidableRel (collation.orderedThen first second) := fun _ _ =>
  inferInstanceAs (Decidable (_ = true))

/-- Stable sort by one text and then by another. -/
def sortByThen {α : Type u} (first second : α → String)
    (items : List α) : List α :=
  items.insertionSort (collation.orderedThen first second)

variable {α : Type u}

theorem perm_sortBy (key : α → String) (items : List α) :
    (collation.sortBy key items).Perm items :=
  List.perm_insertionSort _ _

theorem perm_sortByThen (first second : α → String) (items : List α) :
    (collation.sortByThen first second items).Perm items :=
  List.perm_insertionSort _ _

theorem sorted_sortBy (key : α → String) (items : List α) :
    (collation.sortBy key items).Pairwise (collation.ordered key) :=
  List.pairwise_insertionSort _ _

end Collation

/-! ## The order of code points -/

theorem Text.unitsLe_total (left right : List Nat) :
    Text.unitsLe left right = true ∨ Text.unitsLe right left = true := by
  induction left generalizing right with
  | nil => exact Or.inl rfl
  | cons first rest inductionHypothesis =>
    cases right with
    | nil => exact Or.inr rfl
    | cons other others =>
      rw [Text.unitsLe, Text.unitsLe]
      by_cases same : first = other
      · rw [if_pos same, if_pos same.symm]
        exact inductionHypothesis others
      · rw [if_neg same, if_neg fun back => same back.symm,
          decide_eq_true_iff, decide_eq_true_iff]
        omega

theorem Text.unitsLe_trans (left middle right : List Nat)
    (forth : Text.unitsLe left middle = true)
    (onward : Text.unitsLe middle right = true) :
    Text.unitsLe left right = true := by
  induction left generalizing middle right with
  | nil => rfl
  | cons first rest inductionHypothesis =>
    cases middle with
    | nil => cases forth
    | cons second seconds =>
      cases right with
      | nil => cases onward
      | cons third thirds =>
        rw [Text.unitsLe] at forth onward ⊢
        split at forth
        next same =>
          subst same
          split at onward
          next again =>
            rw [if_pos again]
            exact inductionHypothesis seconds thirds forth onward
          next different =>
            rw [if_neg different]
            exact onward
        next different =>
          rw [decide_eq_true_iff] at forth
          have below : first < third := by
            split at onward
            next same => omega
            next _ =>
              rw [decide_eq_true_iff] at onward
              omega
          rw [if_neg (by omega), decide_eq_true_iff]
          exact below

theorem Text.unitsLe_antisymm (left right : List Nat)
    (forth : Text.unitsLe left right = true)
    (back : Text.unitsLe right left = true) : left = right := by
  induction left generalizing right with
  | nil =>
    cases right with
    | nil => rfl
    | cons other others => cases back
  | cons first rest inductionHypothesis =>
    cases right with
    | nil => cases forth
    | cons other others =>
      rw [Text.unitsLe] at forth back
      by_cases same : first = other
      · rw [if_pos same] at forth
        rw [if_pos same.symm] at back
        rw [same, inductionHypothesis others forth back]
      · rw [if_neg same, decide_eq_true_iff] at forth
        rw [if_neg fun turned => same turned.symm, decide_eq_true_iff]
          at back
        omega

/-- The code points of a text. -/
def Text.codePoints (text : String) : List Nat :=
  text.toList.map Char.toNat

theorem Text.codePoints_injective : Function.Injective Text.codePoints := by
  intro left right same
  have characters := List.map_injective_iff.mpr
    (fun _ _ same => Char.toNat_inj.mp same) same
  exact String.toList_inj.mp characters

/-- The order of code points, which tells all texts apart. -/
def Collation.ordinal : Collation where
  le left right := Text.unitsLe (Text.codePoints left) (Text.codePoints right)
  total _ _ := Text.unitsLe_total _ _
  trans _ _ _ := Text.unitsLe_trans _ _ _
  antisymm _ _ _ _ forth back :=
    Text.codePoints_injective (Text.unitsLe_antisymm _ _ forth back)

/-! ## Sorted lists with the same keys -/

end Mendpoint.Library

/-!
## A collation with ties

A letter may be written as one character or as a base letter with a combining
mark, and a comparison for people does not tell the two apart.  The collation
here composes one such letter and compares code points.
-/

namespace Mendpoint.Library

/-- Put a character before others, composing an `e` with an acute accent. -/
def Text.composeChar (char : Char) (rest : List Char) : List Char :=
  if char = 'e' ∧ rest.head? = some '\u0301' then 'é' :: rest.tail
  else char :: rest

/-- The text with its `e` and acute accents composed. -/
def Text.compose (text : String) : String :=
  String.ofList (text.toList.foldr Text.composeChar [])

theorem Text.compose_of_plain {text : String}
    (plain : '\u0301' ∉ text.toList) : Text.compose text = text := by
  apply String.toList_inj.mp
  rw [Text.compose, String.toList_ofList]
  generalize text.toList = chars at plain ⊢
  induction chars with
  | nil => rfl
  | cons first rest inductionHypothesis =>
    rw [List.mem_cons, not_or] at plain
    rw [List.foldr_cons, inductionHypothesis plain.2, Text.composeChar,
      if_neg]
    rintro ⟨_, accent⟩
    exact plain.2 (List.mem_of_head? accent)

theorem Text.compose_of_isWord {text : String}
    (word : Text.isWord text = true) : Text.compose text = text := by
  apply Text.compose_of_plain
  intro accent
  have wordChar := List.all_eq_true.mp word _ accent
  exact absurd wordChar (by decide)

/-- The order of code points of the composed texts. -/
def Collation.composing : Collation where
  le left right :=
    Collation.ordinal.le (Text.compose left) (Text.compose right)
  total _ _ := Collation.ordinal.total _ _
  trans _ _ _ := Collation.ordinal.trans _ _ _
  antisymm left right wordLeft wordRight forth back := by
    have same := Text.codePoints_injective
      (Text.unitsLe_antisymm _ _ forth back)
    rw [← Text.compose_of_isWord wordLeft, same,
      Text.compose_of_isWord wordRight]

end Mendpoint.Library
