import Mendpoint.Library.Json
import Mendpoint.Library.JsonText
import Mendpoint.Library.Utf8Text

/-!
# Canonical JSON

The text of a JSON value with the names of its objects in order, which tells
values apart up to the order of their members.  How numbers are written is a
parameter; what is written first is determined by the text, whatever follows
it.
-/

namespace Mendpoint.Library

/-! ## Numerals -/

/-- The characters of numerals. -/
def isNumeral (char : Char) : Bool :=
  char.isDigit || char == '-' || char == '+' || char == '.' || char == 'e'

/-- How `JSON.stringify` writes numbers. -/
structure Numerals where
  text : ℚ → List Char
  injective : Function.Injective text
  nonempty : ∀ number, text number ≠ []
  numeric : ∀ number, ∀ char ∈ text number, isNumeral char = true

namespace Numerals

/-- The characters of the fraction of a number. -/
def fractionChars (number : ℚ) : List Char :=
  Written.intChars number.num ++
    if number.den = 1 then [] else 'e' :: (toString number.den).toList

theorem not_mem_intChars (value : Int) : 'e' ∉ Written.intChars value := by
  intro member
  have impossible := Written.numeral_intChars value 'e' member
  cases impossible

theorem fractionChars_injective : Function.Injective fractionChars := by
  intro left right same
  rw [fractionChars, fractionChars] at same
  split at same
  · next whole =>
      rw [List.append_nil] at same
      split at same
      · next wholeOther =>
          rw [List.append_nil] at same
          apply Rat.ext (Written.intChars_injective same)
          rw [whole, wholeOther]
      · exact absurd (same ▸ List.mem_append_right _ List.mem_cons_self)
          (not_mem_intChars left.num)
  · split at same
    · rw [List.append_nil] at same
      exact absurd (same ▸ List.mem_append_right _ List.mem_cons_self)
        (not_mem_intChars right.num)
    · rcases Delimited.append_cons_inj_first (not_mem_intChars left.num)
        (not_mem_intChars right.num) same with ⟨tops, bottoms⟩
      exact Rat.ext (Written.intChars_injective tops)
        (Delimited.toString_inj (String.toList_inj.mp bottoms))

/-- Numerals which are those of `JSON.stringify` for whole numbers. -/
def fractions : Numerals where
  text := fractionChars
  injective := fractionChars_injective
  nonempty number := by
    rw [fractionChars]
    intro empty
    exact Written.intChars_ne_nil number.num (List.append_eq_nil_iff.mp empty).1
  numeric number := by
    intro char member
    rw [fractionChars, List.mem_append] at member
    rcases member with top | bottom
    · have numeral := Written.numeral_intChars number.num char top
      rw [Written.isNumeral, Bool.or_eq_true] at numeral
      rcases numeral with digit | minus
      · rw [isNumeral, digit]
        rfl
      · rw [isNumeral, minus, Bool.or_true]
        rfl
    · split at bottom
      · cases bottom
      · rcases List.mem_cons.mp bottom with rfl | inside
        · rfl
        · rw [isNumeral, Written.numeral_toString _ char inside]
          rfl

end Numerals

namespace Json

variable {numerals : Numerals}

section Texts

variable (numerals : Numerals)

mutual

/-- The characters of the text of a value. -/
def chars : Json → List Char
  | null => "null".toList
  | bool value => if value then "true".toList else "false".toList
  | num value => numerals.text value
  | str value => '"' :: Text.quoted value.toList
  | arr items => '[' :: itemsChars items
  | obj fields => '{' :: fieldsChars fields

/-- The items of an array, and the bracket which closes it. -/
def itemsChars : List Json → List Char
  | [] => [']']
  | first :: rest => chars first ++ moreItems rest

/-- The further items of an array, and the bracket which closes it. -/
def moreItems : List Json → List Char
  | [] => [']']
  | next :: rest => ',' :: (chars next ++ moreItems rest)

/-- The fields of an object, and the brace which closes it. -/
def fieldsChars : List (String × Json) → List Char
  | [] => ['}']
  | (key, first) :: rest =>
    '"' :: (Text.quoted key.toList ++ ':' :: (chars first ++ moreFields rest))

/-- The further fields of an object, and the brace which closes it. -/
def moreFields : List (String × Json) → List Char
  | [] => ['}']
  | (key, next) :: rest =>
    ',' :: '"' ::
      (Text.quoted key.toList ++ ':' :: (chars next ++ moreFields rest))

end

end Texts

/-- The order in which the names of an object are written. -/
def namedBefore (left right : String × Json) : Prop :=
  Text.codeUnitLe left.1 right.1 = true

instance : DecidableRel namedBefore := fun _ _ =>
  inferInstanceAs (Decidable (_ = true))

mutual

/-- The value with the members of its objects once and in order. -/
def sorted : Json → Json
  | null => null
  | bool value => bool value
  | num value => num value
  | str value => str value
  | arr items => arr (sortedItems items)
  | obj fields =>
    obj ((OrderedMap.ofList (sortedFields fields)).entries.insertionSort
      namedBefore)

def sortedItems : List Json → List Json
  | [] => []
  | first :: rest => sorted first :: sortedItems rest

def sortedFields : List (String × Json) → List (String × Json)
  | [] => []
  | (key, first) :: rest => (key, sorted first) :: sortedFields rest

end

/-- The text of a value, with the names of its objects in order. -/
def canonical (numerals : Numerals) (value : Json) : String :=
  String.ofList (chars numerals (sorted value))

/-! ## What is written first is determined -/

/-- What may follow a value: nothing, a comma or a closing bracket. -/
def Ends (rest : List Char) : Prop :=
  ∀ first ∈ rest.head?, first = ',' ∨ first = ']' ∨ first = '}'

theorem ends_nil : Ends [] := by
  intro first member
  cases member

theorem ends_cons {first : Char} (rest : List Char)
    (closing : first = ',' ∨ first = ']' ∨ first = '}') :
    Ends (first :: rest) := by
  intro char member
  rw [List.head?_cons, Option.mem_some_iff] at member
  rw [← member]
  exact closing

theorem ends_not_numeral {first : Char}
    (closing : first = ',' ∨ first = ']' ∨ first = '}') :
    isNumeral first = false := by
  rcases closing with rfl | rfl | rfl
  · rfl
  · rfl
  · rfl

theorem numeral_append_inj {left right : ℚ} {rest other : List Char}
    (ends : Ends rest) (endsOther : Ends other)
    (equal : numerals.text left ++ rest = numerals.text right ++ other) :
    left = right ∧ rest = other := by
  have alone : ∀ {one two : ℚ} {first : Char} {tail : List Char},
      Ends (first :: tail) →
        numerals.text one ++ first :: tail ≠ numerals.text two := by
    intro one two first tail closing same
    have inside : first ∈ numerals.text two := by
      rw [← same]
      exact List.mem_append_right _ List.mem_cons_self
    have numeral := numerals.numeric two first inside
    rw [ends_not_numeral (closing first rfl)] at numeral
    cases numeral
  cases rest with
  | nil =>
    cases other with
    | nil =>
      rw [List.append_nil, List.append_nil] at equal
      exact ⟨numerals.injective equal, rfl⟩
    | cons first tail =>
      rw [List.append_nil] at equal
      exact absurd equal.symm (alone endsOther)
  | cons first tail =>
    cases other with
    | nil =>
      rw [List.append_nil] at equal
      exact absurd equal (alone ends)
    | cons first' tail' =>
      rcases Delimited.append_cons_inj_front (numerals.numeric left)
        (numerals.numeric right) (ends_not_numeral (ends first rfl))
        (ends_not_numeral (endsOther first' rfl)) equal with
        ⟨same, firsts, tails⟩
      exact ⟨numerals.injective same, by rw [firsts, tails]⟩

/-- The kind of the value which a character begins. -/
def kindOf (first : Char) : Nat :=
  if first = 'n' then 0
  else if first = 't' ∨ first = 'f' then 1
  else if isNumeral first then 2
  else if first = '"' then 3
  else if first = '[' then 4
  else if first = '{' then 5
  else 6

/-- The kind of a value. -/
def kind : Json → Nat
  | null => 0
  | bool _ => 1
  | num _ => 2
  | str _ => 3
  | arr _ => 4
  | obj _ => 5

theorem kindOf_numeral {first : Char} (numeral : isNumeral first = true) :
    kindOf first = 2 := by
  have not : ∀ {letter : Char}, isNumeral letter = false → first ≠ letter := by
    rintro letter other rfl
    rw [other] at numeral
    cases numeral
  rw [kindOf, if_neg (not rfl), if_neg, if_pos numeral]
  rintro (same | same)
  · exact not rfl same
  · exact not rfl same

theorem chars_first (numerals : Numerals) (value : Json) :
    ∃ first rest, value.chars numerals = first :: rest ∧
      kindOf first = value.kind := by
  cases value with
  | null => exact ⟨_, _, by rw [chars]; rfl, by decide⟩
  | bool value =>
    cases value with
    | false => exact ⟨_, _, by rw [chars]; rfl, by decide⟩
    | true => exact ⟨_, _, by rw [chars]; rfl, by decide⟩
  | num value =>
    cases found : numerals.text value with
    | nil => exact absurd found (numerals.nonempty value)
    | cons first rest =>
      have numeral := numerals.numeric value first
        (found ▸ List.mem_cons_self)
      exact ⟨first, rest, by rw [chars, found], kindOf_numeral numeral⟩
  | str value =>
    exact ⟨_, _, by rw [chars], (by decide : kindOf '"' = 3)⟩
  | arr items =>
    exact ⟨_, _, by rw [chars], (by decide : kindOf '[' = 4)⟩
  | obj fields =>
    exact ⟨_, _, by rw [chars], (by decide : kindOf '{' = 5)⟩

theorem ends_moreItems (items : List Json) (rest : List Char) :
    Ends (moreItems numerals items ++ rest) := by
  cases items with
  | nil =>
    rw [moreItems]
    exact ends_cons _ (Or.inr (Or.inl rfl))
  | cons next others =>
    rw [moreItems]
    exact ends_cons _ (Or.inl rfl)

theorem ends_moreFields (fields : List (String × Json))
    (rest : List Char) : Ends (moreFields numerals fields ++ rest) := by
  cases fields with
  | nil =>
    rw [moreFields]
    exact ends_cons _ (Or.inr (Or.inr rfl))
  | cons next others =>
    rw [moreFields]
    exact ends_cons _ (Or.inl rfl)

theorem chars_ne_bracket (value : Json) (rest tail : List Char) :
    ']' :: tail ≠ value.chars numerals ++ rest := by
  rcases chars_first numerals value with ⟨first, others, text, kindFirst⟩
  rw [text]
  intro same
  rw [← (List.cons.inj same).1] at kindFirst
  cases value with
  | null => cases kindFirst
  | bool value => cases kindFirst
  | num value => cases kindFirst
  | str value => cases kindFirst
  | arr items => cases kindFirst
  | obj fields => cases kindFirst

mutual

theorem chars_append_inj (value other : Json) {rest tail : List Char}
    (ends : Ends rest) (endsTail : Ends tail)
    (equal : value.chars numerals ++ rest = other.chars numerals ++ tail) :
    value = other ∧ rest = tail := by
  have sameKind : value.kind = other.kind := by
    rcases chars_first numerals value with ⟨first, left, text, kindFirst⟩
    rcases chars_first numerals other with ⟨first', right, text', kindFirst'⟩
    rw [text, text'] at equal
    rw [← kindFirst, ← kindFirst', (List.cons.inj equal).1]
  match value, other with
  | null, null =>
    rw [chars] at equal
    exact ⟨rfl, List.append_cancel_left equal⟩
  | bool left, bool right =>
    have same : left = right := by
      cases left with
      | false =>
        cases right with
        | false => rfl
        | true =>
          rw [chars, chars] at equal
          cases (List.cons.inj equal).1
      | true =>
        cases right with
        | false =>
          rw [chars, chars] at equal
          cases (List.cons.inj equal).1
        | true => rfl
    rw [same] at equal ⊢
    exact ⟨rfl, List.append_cancel_left equal⟩
  | num left, num right =>
    rw [chars, chars] at equal
    rcases numeral_append_inj ends endsTail equal with ⟨same, rests⟩
    exact ⟨by rw [same], rests⟩
  | str left, str right =>
    rw [chars, chars] at equal
    rcases Text.quoted_append_inj (List.cons.inj equal).2 with
      ⟨same, rests⟩
    exact ⟨by rw [String.toList_inj.mp same], rests⟩
  | arr [], arr [] =>
    rw [chars, itemsChars] at equal
    exact ⟨rfl, List.append_cancel_left equal⟩
  | arr [], arr (first :: items) =>
    rw [chars, chars, itemsChars, itemsChars] at equal
    simp only [List.cons_append, List.append_assoc] at equal
    exact absurd (List.cons.inj equal).2 (chars_ne_bracket _ _ _)
  | arr (first :: items), arr [] =>
    rw [chars, chars, itemsChars, itemsChars] at equal
    simp only [List.cons_append, List.append_assoc] at equal
    exact absurd (List.cons.inj equal).2.symm (chars_ne_bracket _ _ _)
  | arr (left :: lefts), arr (right :: rights) =>
    rw [chars, chars, itemsChars, itemsChars, List.cons_append,
      List.cons_append, List.append_assoc, List.append_assoc] at equal
    rcases chars_append_inj left right (ends_moreItems lefts _)
      (ends_moreItems rights _) (List.cons.inj equal).2 with
      ⟨same, rests⟩
    rcases moreItems_append_inj lefts rights rests with ⟨sames, tails⟩
    exact ⟨by rw [same, sames], tails⟩
  | obj [], obj [] =>
    rw [chars, fieldsChars] at equal
    exact ⟨rfl, List.append_cancel_left equal⟩
  | obj [], obj (_ :: _) =>
    rw [chars, chars, fieldsChars, fieldsChars] at equal
    cases (List.cons.inj (List.cons.inj equal).2).1
  | obj (_ :: _), obj [] =>
    rw [chars, chars, fieldsChars, fieldsChars] at equal
    cases (List.cons.inj (List.cons.inj equal).2).1
  | obj ((key, left) :: lefts), obj ((name, right) :: rights) =>
    rw [chars, chars, fieldsChars, fieldsChars, List.cons_append,
      List.cons_append, List.cons_append, List.cons_append,
      List.append_assoc, List.append_assoc] at equal
    rcases Text.quoted_append_inj
      (List.cons.inj (List.cons.inj equal).2).2 with ⟨keys, values⟩
    rw [List.cons_append, List.cons_append, List.append_assoc,
      List.append_assoc] at values
    rcases chars_append_inj left right (ends_moreFields lefts _)
      (ends_moreFields rights _) (List.cons.inj values).2 with
      ⟨same, rests⟩
    rcases moreFields_append_inj lefts rights rests with ⟨sames, tails⟩
    exact ⟨by rw [String.toList_inj.mp keys, same, sames], tails⟩

theorem moreItems_append_inj (items others : List Json)
    {rest tail : List Char}
    (equal : moreItems numerals items ++ rest =
      moreItems numerals others ++ tail) :
    items = others ∧ rest = tail := by
  match items, others with
  | [], [] =>
    rw [moreItems] at equal
    exact ⟨rfl, List.append_cancel_left equal⟩
  | [], _ :: _ =>
    rw [moreItems, moreItems] at equal
    cases (List.cons.inj equal).1
  | _ :: _, [] =>
    rw [moreItems, moreItems] at equal
    cases (List.cons.inj equal).1
  | left :: lefts, right :: rights =>
    rw [moreItems, moreItems, List.cons_append, List.cons_append,
      List.append_assoc, List.append_assoc] at equal
    rcases chars_append_inj left right (ends_moreItems lefts _)
      (ends_moreItems rights _) (List.cons.inj equal).2 with
      ⟨same, rests⟩
    rcases moreItems_append_inj lefts rights rests with ⟨sames, tails⟩
    exact ⟨by rw [same, sames], tails⟩

theorem moreFields_append_inj (fields others : List (String × Json))
    {rest tail : List Char}
    (equal : moreFields numerals fields ++ rest =
      moreFields numerals others ++ tail) :
    fields = others ∧ rest = tail := by
  match fields, others with
  | [], [] =>
    rw [moreFields] at equal
    exact ⟨rfl, List.append_cancel_left equal⟩
  | [], _ :: _ =>
    rw [moreFields, moreFields] at equal
    cases (List.cons.inj equal).1
  | _ :: _, [] =>
    rw [moreFields, moreFields] at equal
    cases (List.cons.inj equal).1
  | (key, left) :: lefts, (name, right) :: rights =>
    rw [moreFields, moreFields, List.cons_append, List.cons_append,
      List.cons_append, List.cons_append, List.append_assoc,
      List.append_assoc] at equal
    rcases Text.quoted_append_inj
      (List.cons.inj (List.cons.inj equal).2).2 with ⟨keys, values⟩
    rw [List.cons_append, List.cons_append, List.append_assoc,
      List.append_assoc] at values
    rcases chars_append_inj left right (ends_moreFields lefts _)
      (ends_moreFields rights _) (List.cons.inj values).2 with
      ⟨same, rests⟩
    rcases moreFields_append_inj lefts rights rests with ⟨sames, tails⟩
    exact ⟨by rw [String.toList_inj.mp keys, same, sames], tails⟩

end

theorem chars_injective {value other : Json}
    (same : value.chars numerals = other.chars numerals) : value = other := by
  have equal : value.chars numerals ++ [] = other.chars numerals ++ [] := by
    rw [List.append_nil, List.append_nil]
    exact same
  exact (chars_append_inj value other ends_nil ends_nil equal).1

theorem canonical_eq_iff {value other : Json} :
    value.canonical numerals = other.canonical numerals ↔
      value.sorted = other.sorted := by
  constructor
  · intro same
    exact chars_injective (String.ofList_injective same)
  · intro same
    rw [canonical, canonical, same]

/-! ## Members -/

theorem sortedFields_eq_map (fields : List (String × Json)) :
    sortedFields fields =
      fields.map fun field => (field.1, sorted field.2) := by
  induction fields with
  | nil => rfl
  | cons first rest inductionHypothesis =>
    rcases first with ⟨key, value⟩
    rw [sortedFields, inductionHypothesis, List.map_cons]

theorem get?_obj (fields : List (String × Json)) (name : String) :
    (obj fields).get? name = (OrderedMap.ofList fields).get? name := by
  have permuted := List.perm_insertionSort (listedFirst (β := Json))
    (OrderedMap.ofList fields).entries
  apply Option.ext
  intro value
  rw [get?, members, ← OrderedMap.mem_entries_iff,
    ← OrderedMap.mem_entries_iff]
  exact permuted.mem_iff

theorem get?_ofList (fields : List (String × Json)) (name : String) :
    (OrderedMap.ofList fields).get? name =
      (fields.reverse.find? fun field => decide (field.1 = name)).map
        Prod.snd := by
  rw [OrderedMap.ofList, OrderedMap.get?_setAll, OrderedMap.get?_empty,
    Option.or_none]

theorem get?_sorted (value : Json) (name : String) :
    value.sorted.get? name = (value.get? name).map sorted := by
  cases value with
  | obj fields =>
    have permuted := List.perm_insertionSort namedBefore
      (OrderedMap.ofList (sortedFields fields)).entries
    have distinct := (permuted.map Prod.fst).nodup_iff.mpr
      (OrderedMap.ofList (sortedFields fields)).nodupKeys
    have kept : (obj fields).sorted.get? name =
        (OrderedMap.ofList (sortedFields fields)).get? name := by
      rw [sorted, get?_obj]
      apply Option.ext
      intro member
      rw [OrderedMap.get?_ofList_of_nodup distinct, permuted.mem_iff,
        OrderedMap.mem_entries_iff]
    rw [kept, get?_obj, get?_ofList, get?_ofList, sortedFields_eq_map,
      ← List.map_reverse, List.find?_map, Option.map_map, Option.map_map]
    rfl
  | null => rfl
  | bool value => rfl
  | num value => rfl
  | str value => rfl
  | arr items => rfl

/-! ## Records -/

/-- Named values without those which are undefined. -/
def recordFields :
    List String → List (Option Json) → List (String × Json)
  | name :: names, some value :: values =>
    (name, value) :: recordFields names values
  | _ :: names, none :: values => recordFields names values
  | _, _ => []

/-- An object of named values. -/
def record (names : List String) (values : List (Option Json)) : Json :=
  obj (recordFields names values)

variable {names : List String} {values : List (Option Json)}

theorem mem_recordFields {name : String} {value : Json} :
    (name, value) ∈ recordFields names values ↔
      ∃ place : Nat, names[place]? = some name ∧
        values[place]? = some (some value) := by
  induction names generalizing values with
  | nil => simp [recordFields]
  | cons first rest inductionHypothesis =>
    cases values with
    | nil => simp [recordFields]
    | cons here others =>
      have later : ((name, value) ∈ recordFields rest others) ↔
          ∃ place : Nat, (first :: rest)[place + 1]? = some name ∧
            (here :: others)[place + 1]? = some (some value) := by
        simp only [List.getElem?_cons_succ, inductionHypothesis]
      cases here with
      | none =>
        rw [recordFields, later]
        constructor
        · rintro ⟨place, found⟩
          exact ⟨place + 1, found⟩
        · rintro ⟨place, found⟩
          cases place with
          | zero => exact absurd found.2 (by simp)
          | succ place => exact ⟨place, found⟩
      | some defined =>
        rw [recordFields, List.mem_cons, later, Prod.mk.injEq]
        constructor
        · rintro (⟨rfl, rfl⟩ | ⟨place, found⟩)
          · exact ⟨0, rfl, rfl⟩
          · exact ⟨place + 1, found⟩
        · rintro ⟨place, found⟩
          cases place with
          | zero =>
            left
            simpa [eq_comm] using found
          | succ place => exact .inr ⟨place, found⟩

theorem recordFields_sublist (names : List String)
    (values : List (Option Json)) :
    ((recordFields names values).map Prod.fst).Sublist names := by
  induction names generalizing values with
  | nil => exact List.Sublist.refl []
  | cons first rest inductionHypothesis =>
    cases values with
    | nil => exact List.nil_sublist _
    | cons here others =>
      cases here with
      | none => exact (inductionHypothesis others).cons first
      | some defined => exact (inductionHypothesis others).cons_cons first

theorem get?_record (distinct : names.Nodup) {place : Nat} {name : String}
    {value : Option Json} (named : names[place]? = some name)
    (valued : values[place]? = some value) :
    (record names values).get? name = value := by
  have single := List.Nodup.sublist (recordFields_sublist names values) distinct
  apply Option.ext
  intro found
  rw [record, get?_obj, OrderedMap.get?_ofList_of_nodup single,
    mem_recordFields]
  constructor
  · rintro ⟨other, namedOther, valuedOther⟩
    have same : other = place := by
      apply (List.getElem?_inj _ distinct).mp
      · rw [namedOther, named]
      · exact (List.getElem?_eq_some_iff.mp namedOther).1
    rw [same, valued] at valuedOther
    exact Option.some.inj valuedOther
  · intro defined
    exact ⟨place, named, by rw [valued, defined]⟩

theorem record_sorted_inj (distinct : names.Nodup)
    {others : List (Option Json)} (full : values.length = names.length)
    (fullOther : others.length = names.length)
    (same : (record names values).sorted = (record names others).sorted) :
    values.map (Option.map sorted) = others.map (Option.map sorted) := by
  apply List.ext_getElem
  · rw [List.length_map, List.length_map, full, fullOther]
  · intro place inside insideOther
    rw [List.length_map] at inside insideOther
    obtain ⟨name, named⟩ : ∃ name, names[place]? = some name := by
      rw [full] at inside
      exact ⟨_, List.getElem?_eq_getElem inside⟩
    have valued := get?_record distinct named
      (List.getElem?_eq_getElem inside)
    have valuedOther := get?_record distinct named
      (List.getElem?_eq_getElem insideOther)
    rw [List.getElem_map, List.getElem_map, ← valued, ← valuedOther,
      ← get?_sorted, ← get?_sorted, same]

end Json

/-! ## Values which are written -/

namespace Written

mutual

/-- The JSON value which is written. -/
def toJson : Written → Json
  | null => .null
  | bool value => .bool value
  | int value => .num value
  | str value => .str value
  | arr items => .arr (itemsToJson items)
  | obj fields => .obj (fieldsToJson fields)

def itemsToJson : List Written → List Json
  | [] => []
  | first :: rest => toJson first :: itemsToJson rest

def fieldsToJson : List (String × Written) → List (String × Json)
  | [] => []
  | (key, first) :: rest => (key, toJson first) :: fieldsToJson rest

end

mutual

theorem chars_toJson (value : Written) :
    (toJson value).chars .fractions = value.chars := by
  match value with
  | null => rfl
  | bool value => rfl
  | int value =>
    rw [toJson, Json.chars, chars]
    show Numerals.fractionChars value = intChars value
    rw [Numerals.fractionChars, Rat.den_intCast, if_pos rfl,
      List.append_nil, Rat.num_intCast]
  | str value => rw [toJson, Json.chars, chars]
  | arr [] => rfl
  | arr (first :: rest) =>
    rw [toJson, itemsToJson, Json.chars, chars, Json.itemsChars, itemsChars,
      chars_toJson first, moreItems_toJson rest]
  | obj [] => rfl
  | obj ((key, first) :: rest) =>
    rw [toJson, fieldsToJson, Json.chars, chars, Json.fieldsChars,
      fieldsChars, chars_toJson first, moreFields_toJson rest]

theorem moreItems_toJson (items : List Written) :
    Json.moreItems .fractions (itemsToJson items) = moreItems items := by
  match items with
  | [] => rfl
  | next :: rest =>
    rw [itemsToJson, Json.moreItems, moreItems, chars_toJson next,
      moreItems_toJson rest]

theorem moreFields_toJson (fields : List (String × Written)) :
    Json.moreFields .fractions (fieldsToJson fields) = moreFields fields := by
  match fields with
  | [] => rfl
  | (key, next) :: rest =>
    rw [fieldsToJson, Json.moreFields, moreFields, chars_toJson next,
      moreFields_toJson rest]

end

mutual

theorem toJson_inj {value other : Written}
    (same : toJson value = toJson other) : value = other := by
  match value, other with
  | null, null => rfl
  | bool left, bool right =>
    rw [toJson, toJson, Json.bool.injEq] at same
    rw [same]
  | int left, int right =>
    rw [toJson, toJson, Json.num.injEq, Rat.intCast_inj] at same
    rw [same]
  | str left, str right =>
    rw [toJson, toJson, Json.str.injEq] at same
    rw [same]
  | arr left, arr right =>
    rw [toJson, toJson, Json.arr.injEq] at same
    rw [itemsToJson_inj same]
  | obj left, obj right =>
    rw [toJson, toJson, Json.obj.injEq] at same
    rw [fieldsToJson_inj same]

theorem itemsToJson_inj {items others : List Written}
    (same : itemsToJson items = itemsToJson others) : items = others := by
  match items, others with
  | [], [] => rfl
  | first :: rest, next :: tail =>
    rw [itemsToJson, itemsToJson, List.cons.injEq] at same
    rw [toJson_inj same.1, itemsToJson_inj same.2]

theorem fieldsToJson_inj {fields others : List (String × Written)}
    (same : fieldsToJson fields = fieldsToJson others) : fields = others := by
  match fields, others with
  | [], [] => rfl
  | (key, first) :: rest, (name, next) :: tail =>
    rw [fieldsToJson, fieldsToJson, List.cons.injEq, Prod.mk.injEq] at same
    rw [same.1.1, toJson_inj same.1.2, fieldsToJson_inj same.2]

end

theorem stringify_injective {value other : Written}
    (same : stringify value = stringify other) : value = other := by
  apply toJson_inj
  apply @Json.chars_injective .fractions
  rw [chars_toJson, chars_toJson]
  exact String.ofList_injective same

end Written

/-! ## Lengths -/

namespace Text

theorem length_jsonChar_le (char : Char) : (jsonChar char).length ≤ 6 := by
  have spec := (jsonChar_spec char []).2.1
  rw [← spec, codeLength.eq_def]
  split
  · split_ifs <;> decide
  · decide

theorem length_quoted_le (chars : List Char) :
    (quoted chars).length ≤ 6 * chars.length + 1 := by
  induction chars with
  | nil => exact Nat.le_refl 1
  | cons char rest inductionHypothesis =>
    have here := length_jsonChar_le char
    rw [quoted, List.length_append, List.length_singleton]
      at inductionHypothesis ⊢
    rw [List.flatMap_cons, List.length_append, List.length_cons]
    omega

end Text

namespace Json

section Lengths

variable (numerals : Numerals)

mutual

/-- A bound of the number of characters of the text of a value. -/
def lengthBound : Json → Nat
  | null => 4
  | bool _ => 5
  | num value => (numerals.text value).length
  | str value => 6 * value.utf8ByteSize + 2
  | arr items => 1 + itemsBound items
  | obj fields => 1 + fieldsBound fields

def itemsBound : List Json → Nat
  | [] => 1
  | first :: rest => 1 + lengthBound first + itemsBound rest

def fieldsBound : List (String × Json) → Nat
  | [] => 1
  | (key, first) :: rest =>
    6 * key.utf8ByteSize + 4 + lengthBound first + fieldsBound rest

end

mutual

theorem length_chars_le (value : Json) :
    (chars numerals value).length ≤ lengthBound numerals value := by
  match value with
  | null => rw [chars, lengthBound]; decide
  | bool true => rw [chars, lengthBound]; decide
  | bool false => rw [chars, lengthBound]; decide
  | num value => rw [chars, lengthBound]
  | str value =>
    have inner := Text.length_quoted_le value.toList
    have wide := Utf8Text.length_toList_le value
    rw [chars, lengthBound, List.length_cons]
    omega
  | arr items =>
    have inner := length_itemsChars_le items
    rw [chars, lengthBound, List.length_cons]
    omega
  | obj fields =>
    have inner := length_fieldsChars_le fields
    rw [chars, lengthBound, List.length_cons]
    omega

theorem length_itemsChars_le (items : List Json) :
    (itemsChars numerals items).length ≤ itemsBound numerals items := by
  match items with
  | [] => rw [itemsChars, itemsBound]; decide
  | first :: rest =>
    have here := length_chars_le first
    have there := length_moreItems_le rest
    rw [itemsChars, itemsBound, List.length_append]
    omega

theorem length_moreItems_le (items : List Json) :
    (moreItems numerals items).length ≤ itemsBound numerals items := by
  match items with
  | [] => rw [moreItems, itemsBound]; decide
  | next :: rest =>
    have here := length_chars_le next
    have there := length_moreItems_le rest
    rw [moreItems, itemsBound, List.length_cons, List.length_append]
    omega

theorem length_fieldsChars_le (fields : List (String × Json)) :
    (fieldsChars numerals fields).length ≤ fieldsBound numerals fields := by
  match fields with
  | [] => rw [fieldsChars, fieldsBound]; decide
  | (key, first) :: rest =>
    have name := Text.length_quoted_le key.toList
    have wide := Utf8Text.length_toList_le key
    have here := length_chars_le first
    have there := length_moreFields_le rest
    rw [fieldsChars, fieldsBound, List.length_cons, List.length_append,
      List.length_cons, List.length_append]
    omega

theorem length_moreFields_le (fields : List (String × Json)) :
    (moreFields numerals fields).length ≤ fieldsBound numerals fields := by
  match fields with
  | [] => rw [moreFields, fieldsBound]; decide
  | (key, next) :: rest =>
    have name := Text.length_quoted_le key.toList
    have wide := Utf8Text.length_toList_le key
    have here := length_chars_le next
    have there := length_moreFields_le rest
    rw [moreFields, fieldsBound, List.length_cons, List.length_cons,
      List.length_append, List.length_cons, List.length_append]
    omega

end

end Lengths

end Json

end Mendpoint.Library
