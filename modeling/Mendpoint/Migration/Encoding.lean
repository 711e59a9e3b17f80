import Mendpoint.Library.CanonicalJson
import Mendpoint.Library.Collation
import Mendpoint.Library.Fallible
import Mendpoint.Library.IsoTime
import Mendpoint.Library.KeyedSort

/-!
# Outputs of traces

The outputs of a legacy system and of its replacement are compared by a tagged
text, in which the entries of an object are sorted by their keys.  An invalid
date has no text.
-/

namespace Mendpoint.Migration

open Mendpoint.Library
open Mendpoint.Library.IsoTime

/-! ## Values -/

/-- The numbers which are no rational numbers, and the negative zero. -/
inductive SpecialNumber where
  | nan
  | infinity
  | negativeInfinity
  | negativeZero
deriving DecidableEq

def SpecialNumber.text : SpecialNumber → String
  | .nan => "NaN"
  | .infinity => "Infinity"
  | .negativeInfinity => "-Infinity"
  | .negativeZero => "-0"

/-- A number of ECMAScript. -/
inductive OutputNumber where
  | special (value : SpecialNumber)
  | finite (value : ℚ)

/-- A value without members; an invalid date has no instant. -/
inductive OutputScalar where
  | null
  | undefined
  | number (value : OutputNumber)
  | string (value : String)
  | boolean (value : Bool)
  | bigint (value : Int)
  | date (value : Option Instant)

/-- A finitely nested value; an object lists its entries in their order. -/
inductive OutputValue where
  | scalar (value : OutputScalar)
  | array (items : List OutputValue)
  | object (entries : List (String × OutputValue))

/-- What the host provides: the comparison of keys, and numerals, none of which
is the one written for the negative zero. -/
structure Host where
  collation : Collation
  numerals : Numerals
  unsigned : ∀ number, numerals.text number ≠ ['-', '0']

/-! ## Texts -/

section Texts

variable (host : Host)

def numberText : OutputNumber → String
  | .special value => "number:" ++ value.text
  | .finite value => "number:" ++ String.ofList (host.numerals.text value)

/-- `value.toISOString()`. -/
def isoText : Option Instant → Except String String
  | some instant => .ok instant.text
  | none => .error "Invalid time value"

def scalarText : OutputScalar → Except String String
  | .null => .ok "null"
  | .undefined => .ok "undefined"
  | .number value => .ok (numberText host value)
  | .string value => .ok ("string:" ++ Text.jsonText value)
  | .boolean value => .ok (if value then "boolean:true" else "boolean:false")
  | .bigint value =>
    .ok ("bigint:" ++ String.ofList (Written.intChars value))
  | .date value => do
      let text ← isoText value
      return "date:" ++ text

/-- An entry of an object whose value is written. -/
def entryText (entry : String × String) : String :=
  Text.jsonText entry.1 ++ ":" ++ entry.2

mutual

/--
The tagged text of a value.  The entries are written before they are sorted,
which changes nothing, as every error is the same.
-/
def canonicalValue : OutputValue → Except String String
  | .scalar value => scalarText host value
  | .array items => do
      let texts ← canonicalItems items
      return "array:[" ++ Text.join "," texts ++ "]"
  | .object entries => do
      let texts ← canonicalEntries entries
      return "object:\x7b" ++ Text.join ","
        ((host.collation.sortBy Prod.fst texts).map entryText) ++ "\x7d"

def canonicalItems : List OutputValue → Except String (List String)
  | [] => .ok []
  | first :: rest => do
      let text ← canonicalValue first
      let texts ← canonicalItems rest
      return text :: texts

def canonicalEntries :
    List (String × OutputValue) → Except String (List (String × String))
  | [] => .ok []
  | (key, first) :: rest => do
      let text ← canonicalValue first
      let texts ← canonicalEntries rest
      return (key, text) :: texts

end

/-- What a comparison returns. -/
structure OutputDiff where
  traceId : String
  legacyOutput : OutputValue
  targetOutput : OutputValue
  equal : Bool
  diffSummary : String
  comparisonError : Option String

/-- Compare two texts, of which the first error is reported. -/
def compareTexts (legacy target : Except String String) :
    Except String Bool := do
  let one ← legacy
  let two ← target
  return one == two

def diffOutputs (legacyOutput targetOutput : OutputValue) (traceId : String) :
    OutputDiff :=
  let compared := compareTexts (canonicalValue host legacyOutput)
    (canonicalValue host targetOutput)
  { traceId := traceId
    legacyOutput := legacyOutput
    targetOutput := targetOutput
    equal := compared.toOption.getD false
    diffSummary :=
      match compared with
      | .error message => "outputs could not be compared: " ++ message
      | .ok true => "outputs match"
      | .ok false => "outputs differ"
    comparisonError :=
      match compared with
      | .error message => some message
      | .ok _ => none }

end Texts

/-! ## Values up to the order of keys -/

mutual

/-- The entries of every object in the order of a collation. -/
def arranged (collation : Collation) : OutputValue → OutputValue
  | .scalar value => .scalar value
  | .array items => .array (arrangedItems collation items)
  | .object entries =>
    .object (collation.sortBy Prod.fst (arrangedEntries collation entries))

def arrangedItems (collation : Collation) :
    List OutputValue → List OutputValue
  | [] => []
  | first :: rest => arranged collation first :: arrangedItems collation rest

def arrangedEntries (collation : Collation) :
    List (String × OutputValue) → List (String × OutputValue)
  | [] => []
  | (key, first) :: rest =>
    (key, arranged collation first) :: arrangedEntries collation rest

end

/-- The same value, up to the order of the keys of its objects. -/
def Same (left right : OutputValue) : Prop :=
  arranged Collation.ordinal left = arranged Collation.ordinal right

mutual

/-- No object of the value has a key twice. -/
def Distinct : OutputValue → Prop
  | .scalar _ => True
  | .array items => DistinctItems items
  | .object entries =>
    (entries.map Prod.fst).Nodup ∧ DistinctEntries entries

def DistinctItems : List OutputValue → Prop
  | [] => True
  | first :: rest => Distinct first ∧ DistinctItems rest

def DistinctEntries : List (String × OutputValue) → Prop
  | [] => True
  | (_, first) :: rest => Distinct first ∧ DistinctEntries rest

end

/-- An output, whose objects have every key once. -/
structure Output where
  value : OutputValue
  distinct : Distinct value

end Mendpoint.Migration

/-!
## The tagged text tells outputs apart

Every kind of value begins with a tag of its own, and a text which begins with
the text of a value and then ends determines the value.  Hence two outputs have
the same text exactly when they are the same once their entries are arranged.
-/

namespace Mendpoint.Migration

open Mendpoint.Library
open Mendpoint.Library.IsoTime
open Mendpoint.Library.Json (Ends ends_cons ends_nil)

/-! ## Kinds and their tags -/

inductive Kind where
  | null
  | undefined
  | number
  | string
  | boolean
  | bigint
  | date
  | array
  | object

/-- How the text of a value of the kind begins. -/
def Kind.tag : Kind → List Char
  | .null => "null".toList
  | .undefined => "undefined".toList
  | .number => "number:".toList
  | .string => "string:\"".toList
  | .boolean => "boolean:".toList
  | .bigint => "bigint:".toList
  | .date => "date:".toList
  | .array => "array:[".toList
  | .object => "object:\x7b".toList

theorem Kind.three_le (kind : Kind) : 3 ≤ kind.tag.length := by
  cases kind <;> decide

theorem Kind.take_injective {left right : Kind}
    (same : left.tag.take 3 = right.tag.take 3) : left = right := by
  cases left <;> cases right <;> first | rfl | exact absurd same (by decide)

theorem Kind.tag_append_inj {left right : Kind} {rest tail : List Char}
    (equal : left.tag ++ rest = right.tag ++ tail) :
    left = right ∧ rest = tail := by
  have three := congrArg (List.take 3) equal
  rw [List.take_append_of_le_length left.three_le,
    List.take_append_of_le_length right.three_le] at three
  obtain rfl := Kind.take_injective three
  exact ⟨rfl, List.append_cancel_left equal⟩

def OutputScalar.kind : OutputScalar → Kind
  | .null => .null
  | .undefined => .undefined
  | .number _ => .number
  | .string _ => .string
  | .boolean _ => .boolean
  | .bigint _ => .bigint
  | .date _ => .date

def OutputValue.kind : OutputValue → Kind
  | .scalar value => value.kind
  | .array _ => .array
  | .object _ => .object

/-! ## Characters -/

section Characters

variable (host : Host)

def numberBody : OutputNumber → List Char
  | .special value => value.text.toList
  | .finite value => host.numerals.text value

def booleanBody (value : Bool) : List Char :=
  if value then "true".toList else "false".toList

/-- What is written for a date, of which nothing is for an invalid one. -/
def dateBody (date : Option Instant) : List Char :=
  (date.map fun instant => isoChars instant.ms).getD []

/-- What follows the tag of a value without members. -/
def scalarBody : OutputScalar → List Char
  | .null => []
  | .undefined => []
  | .number value => numberBody host value
  | .string value => Text.quoted value.toList
  | .boolean value => booleanBody value
  | .bigint value => Written.intChars value
  | .date value => dateBody value

mutual

/-- The characters of a value whose entries are written as they stand. -/
def chars : OutputValue → List Char
  | .scalar value => value.kind.tag ++ scalarBody host value
  | .array items => Kind.array.tag ++ itemsChars items
  | .object entries => Kind.object.tag ++ entriesChars entries

def itemsChars : List OutputValue → List Char
  | [] => [']']
  | first :: rest => chars first ++ moreItems rest

def moreItems : List OutputValue → List Char
  | [] => [']']
  | next :: rest => ',' :: (chars next ++ moreItems rest)

def entriesChars : List (String × OutputValue) → List Char
  | [] => ['\x7d']
  | (key, first) :: rest =>
    '"' :: (Text.quoted key.toList ++
      ':' :: (chars first ++ moreEntries rest))

def moreEntries : List (String × OutputValue) → List Char
  | [] => ['\x7d']
  | (key, next) :: rest =>
    ',' :: '"' :: (Text.quoted key.toList ++
      ':' :: (chars next ++ moreEntries rest))

end

end Characters

/-! ## Values without members -/

section Scalars

variable {host : Host}

/-- A character which ends a value without members. -/
def closes (char : Char) : Bool :=
  char = ',' || char = ']' || char = '\x7d'

theorem free_append_inj {left right rest tail : List Char}
    (leftFree : ∀ char ∈ left, closes char = false)
    (rightFree : ∀ char ∈ right, closes char = false)
    (ends : Ends rest) (endsTail : Ends tail)
    (equal : left ++ rest = right ++ tail) : left = right ∧ rest = tail := by
  have closing : ∀ {first : Char} {others : List Char},
      Ends (first :: others) → closes first = true := by
    intro first others end'
    rcases end' first rfl with rfl | rfl | rfl <;> rfl
  have alone : ∀ {one two others : List Char} {first : Char},
      Ends (first :: others) → (∀ char ∈ two, closes char = false) →
        one ++ first :: others ≠ two := by
    rintro one _ others first end' free rfl
    have open' := free first (List.mem_append_right _ List.mem_cons_self)
    rw [closing end'] at open'
    cases open'
  cases rest with
  | nil =>
    cases tail with
    | nil =>
      rw [List.append_nil, List.append_nil] at equal
      exact ⟨equal, rfl⟩
    | cons first others =>
      rw [List.append_nil] at equal
      exact absurd equal.symm (alone endsTail leftFree)
  | cons first others =>
    cases tail with
    | nil =>
      rw [List.append_nil] at equal
      exact absurd equal (alone ends rightFree)
    | cons first' others' =>
      have sort : ∀ {part : List Char},
          (∀ char ∈ part, closes char = false) →
            ∀ char ∈ part, (!closes char) = true := by
        intro part free char member
        rw [free char member]
        rfl
      obtain ⟨same, firsts, tails⟩ := Delimited.append_cons_inj_front
        (sort leftFree) (sort rightFree)
        (by rw [closing ends]; rfl) (by rw [closing endsTail]; rfl) equal
      exact ⟨same, by rw [firsts, tails]⟩

theorem not_closes_of_numeral {char : Char}
    (numeral : isNumeral char = true) : closes char = false := by
  rw [Bool.eq_false_iff]
  intro closing
  rw [closes, Bool.or_eq_true, Bool.or_eq_true, decide_eq_true_iff,
    decide_eq_true_iff, decide_eq_true_iff] at closing
  rcases closing with (rfl | rfl) | rfl <;> exact absurd numeral (by decide)

theorem free_of_all {chars : List Char}
    (none' : chars.any closes = false) :
    ∀ char ∈ chars, closes char = false := by
  intro char member
  rw [Bool.eq_false_iff]
  intro closing
  rw [List.any_eq_false] at none'
  exact none' char member closing

theorem SpecialNumber.free (number : SpecialNumber) :
    ∀ char ∈ number.text.toList, closes char = false := by
  apply free_of_all
  cases number <;> rfl

theorem SpecialNumber.text_injective :
    Function.Injective SpecialNumber.text := by
  intro left right
  cases left <;> cases right <;> decide

theorem SpecialNumber.ne_numeral (number : SpecialNumber) (value : ℚ) :
    number.text.toList ≠ host.numerals.text value := by
  have letter : ∀ {body : List Char} (char : Char), char ∈ body →
      isNumeral char = false → body ≠ host.numerals.text value := by
    rintro body char member plain rfl
    rw [host.numerals.numeric value char member] at plain
    cases plain
  cases number with
  | nan => exact letter 'N' (by decide) (by decide)
  | infinity => exact letter 'I' (by decide) (by decide)
  | negativeInfinity => exact letter 'I' (by decide) (by decide)
  | negativeZero => exact fun same => host.unsigned value same.symm

theorem numberBody_free (number : OutputNumber) :
    ∀ char ∈ numberBody host number, closes char = false := by
  cases number with
  | special value => exact value.free
  | finite value =>
    exact fun char member =>
      not_closes_of_numeral (host.numerals.numeric value char member)

theorem numberBody_injective : Function.Injective (numberBody host) := by
  intro left right same
  cases left with
  | special one =>
    cases right with
    | special two =>
      rw [SpecialNumber.text_injective (String.toList_inj.mp same)]
    | finite value => exact absurd same (one.ne_numeral value)
  | finite value =>
    cases right with
    | special two => exact absurd same.symm (two.ne_numeral value)
    | finite other => exact congrArg _ (host.numerals.injective same)

theorem not_closes_of_digit {char : Char}
    (digit : 48 ≤ char.toNat ∧ char.toNat < 58) : closes char = false := by
  rw [Bool.eq_false_iff]
  intro closing
  rw [closes, Bool.or_eq_true, Bool.or_eq_true, decide_eq_true_iff,
    decide_eq_true_iff, decide_eq_true_iff] at closing
  rcases closing with (rfl | rfl) | rfl <;> exact absurd digit (by decide)

theorem isoChars_free (ms : Int) :
    ∀ char ∈ isoChars ms, closes char = false := by
  have number : ∀ width number, ∀ char ∈ digits width number,
      closes char = false := fun _ _ _ member =>
    not_closes_of_digit (ascii_digits member)
  have inYear : ∀ char ∈ yearChars (year ms), closes char = false := by
    rw [yearChars]
    split
    · exact number 4 _
    · rw [List.forall_mem_cons]
      refine ⟨?_, number 6 _⟩
      split <;> rfl
  rw [isoChars]
  simp only [List.forall_mem_append, List.forall_mem_cons]
  exact ⟨⟨⟨⟨⟨⟨⟨inYear, rfl, number 2 _⟩, rfl, number 2 _⟩, rfl, number 2 _⟩,
    rfl, number 2 _⟩, rfl, number 2 _⟩, rfl, number 3 _⟩, rfl,
    fun _ never => absurd never List.not_mem_nil⟩

theorem dateBody_injective : Function.Injective dateBody := by
  have written : ∀ instant : Instant, isoChars instant.ms ≠ [] := by
    intro instant
    rw [isoChars]
    exact List.append_ne_nil_of_right_ne_nil _ (List.cons_ne_nil _ _)
  intro left right same
  cases left with
  | none =>
    cases right with
    | none => rfl
    | some instant => exact absurd same.symm (written instant)
  | some instant =>
    cases right with
    | none => exact absurd same (written instant)
    | some other =>
      have texts : instant.text = other.text := congrArg String.ofList same
      rw [← Instant.parse?_text instant, texts, Instant.parse?_text other]

theorem dateBody_free (date : Option Instant) :
    ∀ char ∈ dateBody date, closes char = false := by
  cases date with
  | none => exact fun _ never => absurd never List.not_mem_nil
  | some instant => exact isoChars_free instant.ms

theorem booleanBody_free (value : Bool) :
    ∀ char ∈ booleanBody value, closes char = false := by
  apply free_of_all
  cases value <;> rfl

theorem booleanBody_injective : Function.Injective booleanBody := by
  intro left right
  cases left <;> cases right <;> decide

theorem intChars_free (value : Int) :
    ∀ char ∈ Written.intChars value, closes char = false := by
  intro char member
  apply not_closes_of_numeral
  have numeral := Written.numeral_intChars value char member
  rw [Written.isNumeral, Bool.or_eq_true] at numeral
  rcases numeral with digit | minus
  · rw [isNumeral, digit]
    rfl
  · rw [isNumeral, minus, Bool.or_true]
    rfl

theorem scalarBody_append_inj {left right : OutputScalar}
    {rest tail : List Char} (sameKind : left.kind = right.kind)
    (ends : Ends rest) (endsTail : Ends tail)
    (equal : scalarBody host left ++ rest = scalarBody host right ++ tail) :
    left = right ∧ rest = tail := by
  cases left with
  | null =>
    cases right with
    | null => exact ⟨rfl, equal⟩
    | _ => cases sameKind
  | undefined =>
    cases right with
    | undefined => exact ⟨rfl, equal⟩
    | _ => cases sameKind
  | number one =>
    cases right with
    | number two =>
      obtain ⟨same, rests⟩ := free_append_inj (numberBody_free one)
        (numberBody_free two) ends endsTail equal
      exact ⟨congrArg _ (numberBody_injective same), rests⟩
    | _ => cases sameKind
  | string one =>
    cases right with
    | string two =>
      obtain ⟨same, rests⟩ := Text.quoted_append_inj equal
      exact ⟨congrArg _ (String.toList_inj.mp same), rests⟩
    | _ => cases sameKind
  | boolean one =>
    cases right with
    | boolean two =>
      obtain ⟨same, rests⟩ := free_append_inj (booleanBody_free one)
        (booleanBody_free two) ends endsTail equal
      exact ⟨congrArg _ (booleanBody_injective same), rests⟩
    | _ => cases sameKind
  | bigint one =>
    cases right with
    | bigint two =>
      obtain ⟨same, rests⟩ := free_append_inj (intChars_free one)
        (intChars_free two) ends endsTail equal
      exact ⟨congrArg _ (Written.intChars_injective same), rests⟩
    | _ => cases sameKind
  | date one =>
    cases right with
    | date two =>
      obtain ⟨same, rests⟩ := free_append_inj (dateBody_free one)
        (dateBody_free two) ends endsTail equal
      exact ⟨congrArg _ (dateBody_injective same), rests⟩
    | _ => cases sameKind

end Scalars

/-! ## Nested values -/

section Values

variable {host : Host}

theorem chars_eq_tag (value : OutputValue) :
    ∃ body, chars host value = value.kind.tag ++ body := by
  cases value with
  | scalar value => exact ⟨_, by rw [chars]; rfl⟩
  | array items => exact ⟨_, by rw [chars]; rfl⟩
  | object entries => exact ⟨_, by rw [chars]; rfl⟩

theorem kind_eq {left right : OutputValue} {rest tail : List Char}
    (equal : chars host left ++ rest = chars host right ++ tail) :
    left.kind = right.kind := by
  obtain ⟨body, text⟩ := @chars_eq_tag host left
  obtain ⟨body', text'⟩ := @chars_eq_tag host right
  rw [text, text', List.append_assoc, List.append_assoc] at equal
  exact (Kind.tag_append_inj equal).1

theorem chars_ne_bracket (value : OutputValue) (rest tail : List Char) :
    ']' :: tail ≠ chars host value ++ rest := by
  obtain ⟨body, text⟩ := @chars_eq_tag host value
  have first : ∀ kind : Kind, kind.tag.head? ≠ some ']' := by
    intro kind
    cases kind <;> decide
  have nonempty : ∃ char others, value.kind.tag = char :: others := by
    cases shape : value.kind.tag with
    | nil => exact absurd (shape ▸ value.kind.three_le) (by decide)
    | cons char others => exact ⟨char, others, rfl⟩
  obtain ⟨char, others, shape⟩ := nonempty
  rw [text, shape]
  intro same
  apply first value.kind
  rw [shape, (List.cons.inj same).1]
  rfl

theorem ends_moreItems (items : List OutputValue) (rest : List Char) :
    Ends (moreItems host items ++ rest) := by
  cases items with
  | nil =>
    rw [moreItems]
    exact ends_cons _ (Or.inr (Or.inl rfl))
  | cons next others =>
    rw [moreItems]
    exact ends_cons _ (Or.inl rfl)

theorem ends_moreEntries (entries : List (String × OutputValue))
    (rest : List Char) : Ends (moreEntries host entries ++ rest) := by
  cases entries with
  | nil =>
    rw [moreEntries]
    exact ends_cons _ (Or.inr (Or.inr rfl))
  | cons next others =>
    rw [moreEntries]
    exact ends_cons _ (Or.inl rfl)

mutual

theorem chars_append_inj (value other : OutputValue) {rest tail : List Char}
    (ends : Ends rest) (endsTail : Ends tail)
    (equal : chars host value ++ rest = chars host other ++ tail) :
    value = other ∧ rest = tail := by
  have sameKind := kind_eq equal
  match value, other with
  | .scalar left, .scalar right =>
    rw [chars, chars, List.append_assoc, List.append_assoc] at equal
    obtain ⟨kinds, bodies⟩ := Kind.tag_append_inj equal
    obtain ⟨same, rests⟩ := scalarBody_append_inj kinds ends endsTail bodies
    exact ⟨congrArg _ same, rests⟩
  | .array lefts, .array rights =>
    rw [chars, chars, List.append_assoc, List.append_assoc] at equal
    obtain ⟨same, rests⟩ := itemsChars_append_inj lefts rights
      (List.append_cancel_left equal)
    exact ⟨congrArg _ same, rests⟩
  | .object lefts, .object rights =>
    rw [chars, chars, List.append_assoc, List.append_assoc] at equal
    obtain ⟨same, rests⟩ := entriesChars_append_inj lefts rights
      (List.append_cancel_left equal)
    exact ⟨congrArg _ same, rests⟩
  | .scalar left, .array _ => cases left <;> cases sameKind
  | .scalar left, .object _ => cases left <;> cases sameKind
  | .array _, .scalar right => cases right <;> cases sameKind
  | .object _, .scalar right => cases right <;> cases sameKind

theorem itemsChars_append_inj (items others : List OutputValue)
    {rest tail : List Char}
    (equal : itemsChars host items ++ rest =
      itemsChars host others ++ tail) : items = others ∧ rest = tail := by
  match items, others with
  | [], [] =>
    rw [itemsChars] at equal
    exact ⟨rfl, List.append_cancel_left equal⟩
  | [], first :: others =>
    rw [itemsChars, itemsChars, List.append_assoc] at equal
    exact absurd equal (chars_ne_bracket _ _ _)
  | first :: items, [] =>
    rw [itemsChars, itemsChars, List.append_assoc] at equal
    exact absurd equal.symm (chars_ne_bracket _ _ _)
  | left :: lefts, right :: rights =>
    rw [itemsChars, itemsChars, List.append_assoc,
      List.append_assoc] at equal
    obtain ⟨same, rests⟩ := chars_append_inj left right
      (ends_moreItems lefts _) (ends_moreItems rights _) equal
    obtain ⟨sames, tails⟩ := moreItems_append_inj lefts rights rests
    exact ⟨by rw [same, sames], tails⟩

theorem moreItems_append_inj (items others : List OutputValue)
    {rest tail : List Char}
    (equal : moreItems host items ++ rest = moreItems host others ++ tail) :
    items = others ∧ rest = tail := by
  match items, others with
  | [], [] =>
    rw [moreItems] at equal
    exact ⟨rfl, List.append_cancel_left equal⟩
  | [], _ :: _ =>
    rw [moreItems, moreItems] at equal
    cases (List.cons.inj equal).1
  | _ :: _, [] =>
    rw [moreItems, moreItems] at equal
    cases (List.cons.inj equal).1
  | left :: lefts, right :: rights =>
    rw [moreItems, moreItems, List.cons_append, List.cons_append,
      List.append_assoc, List.append_assoc] at equal
    obtain ⟨same, rests⟩ := chars_append_inj left right
      (ends_moreItems lefts _) (ends_moreItems rights _)
      (List.cons.inj equal).2
    obtain ⟨sames, tails⟩ := moreItems_append_inj lefts rights rests
    exact ⟨by rw [same, sames], tails⟩

theorem entriesChars_append_inj (entries others : List (String × OutputValue))
    {rest tail : List Char}
    (equal : entriesChars host entries ++ rest =
      entriesChars host others ++ tail) : entries = others ∧ rest = tail := by
  match entries, others with
  | [], [] =>
    rw [entriesChars] at equal
    exact ⟨rfl, List.append_cancel_left equal⟩
  | [], _ :: _ =>
    rw [entriesChars, entriesChars] at equal
    cases (List.cons.inj equal).1
  | _ :: _, [] =>
    rw [entriesChars, entriesChars] at equal
    cases (List.cons.inj equal).1
  | (key, left) :: lefts, (name, right) :: rights =>
    rw [entriesChars, entriesChars, List.cons_append, List.cons_append,
      List.append_assoc, List.append_assoc] at equal
    obtain ⟨keys, values⟩ :=
      Text.quoted_append_inj (List.cons.inj equal).2
    rw [List.cons_append, List.cons_append, List.append_assoc,
      List.append_assoc] at values
    obtain ⟨same, rests⟩ := chars_append_inj left right
      (ends_moreEntries lefts _) (ends_moreEntries rights _)
      (List.cons.inj values).2
    obtain ⟨sames, tails⟩ := moreEntries_append_inj lefts rights rests
    exact ⟨by rw [String.toList_inj.mp keys, same, sames], tails⟩

theorem moreEntries_append_inj (entries others : List (String × OutputValue))
    {rest tail : List Char}
    (equal : moreEntries host entries ++ rest =
      moreEntries host others ++ tail) : entries = others ∧ rest = tail := by
  match entries, others with
  | [], [] =>
    rw [moreEntries] at equal
    exact ⟨rfl, List.append_cancel_left equal⟩
  | [], _ :: _ =>
    rw [moreEntries, moreEntries] at equal
    cases (List.cons.inj equal).1
  | _ :: _, [] =>
    rw [moreEntries, moreEntries] at equal
    cases (List.cons.inj equal).1
  | (key, left) :: lefts, (name, right) :: rights =>
    rw [moreEntries, moreEntries, List.cons_append, List.cons_append,
      List.cons_append, List.cons_append, List.append_assoc,
      List.append_assoc] at equal
    obtain ⟨keys, values⟩ :=
      Text.quoted_append_inj (List.cons.inj (List.cons.inj equal).2).2
    rw [List.cons_append, List.cons_append, List.append_assoc,
      List.append_assoc] at values
    obtain ⟨same, rests⟩ := chars_append_inj left right
      (ends_moreEntries lefts _) (ends_moreEntries rights _)
      (List.cons.inj values).2
    obtain ⟨sames, tails⟩ := moreEntries_append_inj lefts rights rests
    exact ⟨by rw [String.toList_inj.mp keys, same, sames], tails⟩

end

theorem chars_injective : Function.Injective (chars host) := by
  intro left right same
  exact (chars_append_inj left right ends_nil ends_nil
    (congrArg (· ++ []) same)).1

end Values

end Mendpoint.Migration
