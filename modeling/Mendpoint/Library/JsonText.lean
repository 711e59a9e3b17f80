import Mendpoint.Library.Delimited
import Mathlib.Data.List.Sort
import Mathlib.Tactic.IntervalCases

/-!
# JSON texts

Values of texts, whole numbers, arrays and objects, and the text which
`JSON.stringify` writes for them.  A quoted text and a numeral are determined by
their characters.
-/

namespace Mendpoint.Library

/-! ## Escapes -/

namespace Text

/-- The length of the escape in front of a text. -/
def codeLength : List Char → Nat
  | first :: second :: _ =>
    if first ≠ '\\' then 1 else if second = 'u' then 6 else 2
  | _ => 1

/-- The value of a digit in a radix of sixteen. -/
def hexValue (digit : Char) : Nat :=
  if digit.isDigit then digit.toNat - 48 else digit.toNat - 87

/-- The character which an escape stands for. -/
def charOfCode : List Char → Char
  | [char] => char
  | [_, letter] =>
    if letter = 'b' then Char.ofNat 0x08
    else if letter = 't' then Char.ofNat 0x09
    else if letter = 'n' then Char.ofNat 0x0a
    else if letter = 'f' then Char.ofNat 0x0c
    else if letter = 'r' then Char.ofNat 0x0d
    else letter
  | [_, _, _, _, high, low] => Char.ofNat (16 * hexValue high + hexValue low)
  | _ => ' '

theorem jsonChar_spec (char : Char) (rest : List Char) :
    charOfCode (jsonChar char) = char ∧
      codeLength (jsonChar char ++ rest) = (jsonChar char).length ∧
      ∃ first others, jsonChar char = first :: others ∧ first ≠ '"' := by
  by_cases control : char.toNat < 0x20
  · have isControl : char = Char.ofNat char.toNat :=
      (Char.ofNat_toNat char).symm
    generalize char.toNat = number at control isControl
    subst isControl
    interval_cases number
    all_goals exact ⟨by decide, rfl, _, _, rfl, by decide⟩
  · rw [jsonChar]
    split
    · next quote => exact ⟨quote.symm, rfl, _, _, rfl, by decide⟩
    · next notQuote =>
        split
        · next slash => exact ⟨slash.symm, rfl, _, _, rfl, by decide⟩
        · next notSlash =>
            rw [if_neg (by omega), if_neg (by omega), if_neg (by omega),
              if_neg (by omega), if_neg (by omega)]
            refine ⟨rfl, ?_, _, _, rfl, notQuote⟩
            cases rest with
            | nil => rfl
            | cons next others =>
              show codeLength (char :: next :: others) = 1
              rw [codeLength, if_pos notSlash]

theorem jsonChar_append_inj {left right : Char} {rest other : List Char}
    (equal : jsonChar left ++ rest = jsonChar right ++ other) :
    left = right ∧ rest = other := by
  have here := jsonChar_spec left rest
  have there := jsonChar_spec right other
  have lengths : (jsonChar left).length = (jsonChar right).length := by
    rw [← here.2.1, equal, there.2.1]
  rcases List.append_inj equal lengths with ⟨codes, rests⟩
  refine ⟨?_, rests⟩
  rw [← here.1, codes, there.1]

/-- The characters of a quoted text, behind the opening quote. -/
def quoted (chars : List Char) : List Char :=
  chars.flatMap jsonChar ++ ['"']

theorem quoted_append_inj {left right rest other : List Char}
    (equal : quoted left ++ rest = quoted right ++ other) :
    left = right ∧ rest = other := by
  induction left generalizing right with
  | nil =>
    cases right with
    | nil => exact ⟨rfl, (List.cons.inj equal).2⟩
    | cons char chars =>
      rcases (jsonChar_spec char []).2.2 with ⟨first, others, code, notQuote⟩
      rw [quoted, quoted, List.flatMap_cons, code] at equal
      exact absurd (List.cons.inj equal).1.symm notQuote
  | cons char chars inductionHypothesis =>
    cases right with
    | nil =>
      rcases (jsonChar_spec char []).2.2 with ⟨first, others, code, notQuote⟩
      rw [quoted, quoted, List.flatMap_cons, code] at equal
      exact absurd (List.cons.inj equal).1 notQuote
    | cons char' chars' =>
      rw [quoted, quoted, List.flatMap_cons, List.flatMap_cons,
        List.append_assoc, List.append_assoc, List.append_assoc,
        List.append_assoc] at equal
      rcases jsonChar_append_inj equal with ⟨rfl, rests⟩
      rw [← List.append_assoc, ← List.append_assoc] at rests
      rcases inductionHypothesis rests with ⟨rfl, same⟩
      exact ⟨rfl, same⟩

end Text

/-! ## Values -/

/-- A value which `JSON.stringify` writes. -/
inductive Written where
  | null
  | bool (value : Bool)
  | int (value : Int)
  | str (value : String)
  | arr (items : List Written)
  | obj (fields : List (String × Written))

namespace Written

/-- The numeral of a whole number. -/
def intChars (value : Int) : List Char :=
  if 0 ≤ value then (toString value.toNat).toList
  else '-' :: (toString (-value).toNat).toList

mutual

/-- The characters of the text of a value. -/
def chars : Written → List Char
  | null => "null".toList
  | bool value => if value then "true".toList else "false".toList
  | int value => intChars value
  | str value => '"' :: Text.quoted value.toList
  | arr items => '[' :: itemsChars items
  | obj fields => '{' :: fieldsChars fields

/-- The items of an array, and the bracket which closes it. -/
def itemsChars : List Written → List Char
  | [] => [']']
  | first :: rest => chars first ++ moreItems rest

/-- The further items of an array, and the bracket which closes it. -/
def moreItems : List Written → List Char
  | [] => [']']
  | next :: rest => ',' :: (chars next ++ moreItems rest)

/-- The fields of an object, and the brace which closes it. -/
def fieldsChars : List (String × Written) → List Char
  | [] => ['}']
  | (key, first) :: rest =>
    '"' :: (Text.quoted key.toList ++ ':' :: (chars first ++ moreFields rest))

/-- The further fields of an object, and the brace which closes it. -/
def moreFields : List (String × Written) → List Char
  | [] => ['}']
  | (key, next) :: rest =>
    ',' :: '"' ::
      (Text.quoted key.toList ++ ':' :: (chars next ++ moreFields rest))

end

/-- `JSON.stringify(value)`. -/
def stringify (value : Written) : String :=
  String.ofList value.chars

mutual

/-- The value with the keys of its objects in the order of code units. -/
def sorted : Written → Written
  | null => null
  | bool value => bool value
  | int value => int value
  | str value => str value
  | arr items => arr (sortedItems items)
  | obj fields => obj ((sortedFields fields).insertionSort fun left right =>
    Text.codeUnitLe left.1 right.1 = true)

def sortedItems : List Written → List Written
  | [] => []
  | first :: rest => sorted first :: sortedItems rest

def sortedFields : List (String × Written) → List (String × Written)
  | [] => []
  | (key, first) :: rest => (key, sorted first) :: sortedFields rest

end

/-- The text of a value, with the keys of its objects in order. -/
def canonical (value : Written) : String :=
  stringify (sorted value)

/-! ## Numerals -/

/-- The characters of the numerals of whole numbers. -/
def isNumeral (char : Char) : Bool :=
  char.isDigit || char == '-'

theorem numeral_toString (number : Nat) :
    ∀ char ∈ (toString number).toList, char.isDigit = true := by
  intro char member
  by_contra other
  exact Delimited.not_mem_toString (Bool.eq_false_iff.mpr other) number member

theorem numeral_intChars (value : Int) :
    ∀ char ∈ intChars value, isNumeral char = true := by
  rw [intChars]
  split
  · intro char member
    rw [isNumeral, numeral_toString _ char member]
    rfl
  · rw [List.forall_mem_cons]
    refine ⟨rfl, fun char member => ?_⟩
    rw [isNumeral, numeral_toString _ char member]
    rfl

theorem intChars_ne_nil (value : Int) : intChars value ≠ [] := by
  rw [intChars]
  split
  · exact fun empty => Nat.repr_ne_empty (String.toList_inj.mp empty)
  · exact List.cons_ne_nil _ _

theorem intChars_injective {left right : Int}
    (same : intChars left = intChars right) : left = right := by
  have unsigned : ∀ {number other : Nat},
      (toString number).toList ≠ '-' :: (toString other).toList := by
    intro number other same
    have digit := numeral_toString number '-'
      (same ▸ List.mem_cons_self)
    cases digit
  rw [intChars, intChars] at same
  split at same
  · split at same
    · have equal := Delimited.toString_inj (String.toList_inj.mp same)
      omega
    · exact absurd same unsigned
  · split at same
    · exact absurd same.symm unsigned
    · have equal := Delimited.toString_inj
        (String.toList_inj.mp (List.cons.inj same).2)
      omega

/-! ## Fields -/

/-- The value of a field of an object. -/
def field : Written → String → Option Written
  | obj fields, name =>
    (fields.find? fun entry => decide (entry.1 = name)).map Prod.snd
  | _, _ => none

theorem field_eq_some {fields : List (String × Written)}
    (distinct : (fields.map Prod.fst).Nodup) {name : String}
    {value : Written} :
    (obj fields).field name = some value ↔ (name, value) ∈ fields := by
  rw [field, Option.map_eq_some_iff]
  constructor
  · rintro ⟨entry, found, rfl⟩
    have named := List.find?_some found
    rw [decide_eq_true_eq] at named
    rw [← named]
    exact List.mem_of_find?_eq_some found
  · intro member
    cases found : fields.find? fun entry => decide (entry.1 = name) with
    | none =>
      exact absurd (decide_eq_true rfl)
        (List.find?_eq_none.mp found (name, value) member)
    | some entry =>
      have named := List.find?_some found
      rw [decide_eq_true_eq] at named
      refine ⟨entry, rfl, ?_⟩
      rw [List.inj_on_of_nodup_map distinct
        (List.mem_of_find?_eq_some found) member named]

theorem map_fst_sortedFields (fields : List (String × Written)) :
    (sortedFields fields).map Prod.fst = fields.map Prod.fst := by
  induction fields with
  | nil => rfl
  | cons first rest inductionHypothesis =>
    rcases first with ⟨key, value⟩
    rw [sortedFields, List.map_cons, List.map_cons, inductionHypothesis]

theorem mem_sortedFields {fields : List (String × Written)} {name : String}
    {value : Written} (member : (name, value) ∈ fields) :
    (name, sorted value) ∈ sortedFields fields := by
  induction fields with
  | nil => cases member
  | cons first rest inductionHypothesis =>
    rcases first with ⟨key, other⟩
    rw [sortedFields, List.mem_cons]
    rcases List.mem_cons.mp member with same | later
    · cases same
      exact .inl rfl
    · exact .inr (inductionHypothesis later)

theorem field_sorted {fields : List (String × Written)}
    (distinct : (fields.map Prod.fst).Nodup) {name : String}
    {value : Written} (member : (name, value) ∈ fields) :
    (obj fields).sorted.field name = some value.sorted := by
  have permuted := List.perm_insertionSort
    (fun left right : String × Written =>
      Text.codeUnitLe left.1 right.1 = true) (sortedFields fields)
  rw [sorted, field_eq_some]
  · exact permuted.mem_iff.mpr (mem_sortedFields member)
  · rw [(permuted.map Prod.fst).nodup_iff, map_fst_sortedFields]
    exact distinct

end Written

end Mendpoint.Library
