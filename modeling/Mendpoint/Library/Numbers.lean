import Mathlib.Algebra.Ring.Nat
import Mathlib.Tactic.Linarith
import Mathlib.Data.Nat.Log
import Mendpoint.Library.Text
import Mendpoint.Library.CanonicalJson

/-!
# Numbers written in texts

The whole number which JavaScript's `Number` reads in a text.  A decimal is
rounded to the nearest double, of two as near to the one with an even
significand, so that a text with a fraction may be read as a whole number.
-/

namespace Mendpoint.Library.NumberText

/-! ## Digits -/

/-- The value of a digit, below thirty-six. -/
def digit? (char : Char) : Option Nat :=
  if '0' ≤ char ∧ char ≤ '9' then some (char.toNat - '0'.toNat)
  else if 'a' ≤ char ∧ char ≤ 'z' then some (char.toNat - 'a'.toNat + 10)
  else if 'A' ≤ char ∧ char ≤ 'Z' then some (char.toNat - 'A'.toNat + 10)
  else none

/-- The number which digits of a base write, one digit at least. -/
def digits? (base : Nat) : List Char → Option Nat
  | [] => none
  | chars =>
    chars.foldlM
      (fun value char => do
        let digit ← digit? char
        if digit < base then some (value * base + digit) else none)
      0

/-- A sign, or none, and what it is in front of. -/
def signed : List Char → Bool × List Char
  | '-' :: rest => (true, rest)
  | '+' :: rest => (false, rest)
  | chars => (false, chars)

def applySign (negative : Bool) (value : Int) : Int :=
  if negative then -value else value

/-! ## Decimals -/

/-- A significand and the exponent of ten which it is scaled by. -/
structure Decimal where
  significand : Nat
  exponent : Int

/-- The exponent behind a significand, with its letter. -/
def exponent? : List Char → Option Int
  | [] => some 0
  | _ :: rest =>
    let (negative, chars) := signed rest
    (digits? 10 chars).map fun value => applySign negative value

/-- Digits with a point among them, or none. -/
def significand? (chars : List Char) : Option Decimal :=
  match chars.span fun char => decide (char ≠ '.') with
  | (whole, []) =>
    (digits? 10 whole).map fun value =>
      { significand := value, exponent := 0 }
  | (whole, _ :: fraction) =>
    (digits? 10 (whole ++ fraction)).map fun value =>
      { significand := value, exponent := -fraction.length }

/-- A decimal without its sign. -/
def decimal? (chars : List Char) : Option Decimal := do
  let (front, back) :=
    chars.span fun char => decide (char ≠ 'e' ∧ char ≠ 'E')
  let decimal ← significand? front
  let exponent ← exponent? back
  return { decimal with exponent := decimal.exponent + exponent }

/-! ## Doubles -/

/-- A quotient, rounded to the nearest whole number, halves to even. -/
def roundHalfEven (numerator denominator : Nat) : Nat :=
  let quotient := numerator / denominator
  let twice := 2 * (numerator % denominator)
  if twice < denominator then quotient
  else if denominator < twice then quotient + 1
  else quotient + quotient % 2

/-- A quotient as a significand of fifty-three bits and an exponent of two. -/
def double (numerator denominator : Nat) : Nat × Int :=
  let guess := (Nat.log2 numerator : Int) - Nat.log2 denominator - 52
  let scaled (exponent : Int) : Nat × Nat :=
    (numerator * 2 ^ (-exponent).toNat, denominator * 2 ^ exponent.toNat)
  let fits := 2 ^ 52 * (scaled guess).2 ≤ (scaled guess).1
  let exponent := max (if fits then guess else guess - 1) (-1074)
  (roundHalfEven (scaled exponent).1 (scaled exponent).2, exponent)

/-- The whole number which a finite double is, if it is one. -/
def wholeOfDouble : Nat × Int → Option Nat
  | (significand, exponent) =>
    if 1024 ≤ Nat.log2 significand + exponent.toNat then none
    else if significand % 2 ^ (-exponent).toNat = 0 then
      some (significand * 2 ^ exponent.toNat / 2 ^ (-exponent).toNat)
    else none

/-- A decimal as the quotient of two whole numbers. -/
def Decimal.whole? (decimal : Decimal) : Option Nat :=
  if decimal.significand = 0 then some 0
  else
    wholeOfDouble (double
      (decimal.significand * 10 ^ decimal.exponent.toNat)
      (10 ^ (-decimal.exponent).toNat))

/-! ## Texts -/

/-- The whole number of a text, if `Number` reads one in it. -/
def whole? (text : String) : Option Int :=
  match (Text.trim text).toList with
  | [] => some 0
  | '0' :: 'x' :: rest | '0' :: 'X' :: rest => nonDecimal 16 rest
  | '0' :: 'o' :: rest | '0' :: 'O' :: rest => nonDecimal 8 rest
  | '0' :: 'b' :: rest | '0' :: 'B' :: rest => nonDecimal 2 rest
  | chars =>
    let (negative, rest) := signed chars
    (decimal? rest).bind fun decimal =>
      decimal.whole?.map fun value => applySign negative value
where
  nonDecimal (base : Nat) (chars : List Char) : Option Int :=
    (digits? base chars).bind fun value =>
      if value = 0 then some 0
      else (wholeOfDouble (double value 1)).map Int.ofNat

example : whole? "1.50e1" = some 15 := by decide

example : whole? "9007199254740993" = some 9007199254740992 := by decide

end Mendpoint.Library.NumberText

/-!
## Whole numbers as doubles

The whole numbers which a double holds exactly, the rounding of the others,
and addition of doubles whose values are whole numbers.
-/

namespace Mendpoint.Library.SafeInteger

/-- `Number.MAX_SAFE_INTEGER`. -/
def maxSafe : Int := 9007199254740991

/-- `Number.isSafeInteger(value)` of a whole number. -/
def Safe (value : Int) : Prop :=
  -maxSafe ≤ value ∧ value ≤ maxSafe

instance (value : Int) : Decidable (Safe value) :=
  inferInstanceAs (Decidable (_ ∧ _))

/-- The nearest multiple of a power of two, the even one of two. -/
def roundTo (unit number : Nat) : Nat :=
  let down := number / unit
  let left := number % unit
  if 2 * left < unit then down * unit
  else if unit < 2 * left then (down + 1) * unit
  else if down % 2 = 0 then down * unit
  else (down + 1) * unit

/-- The double which is nearest to a natural number. -/
def roundNat (number : Nat) : Nat :=
  if number ≤ 9007199254740992 then number
  else roundTo (2 ^ (Nat.log 2 number - 52)) number

/-- The double which is nearest to a whole number. -/
def round (value : Int) : Int :=
  if 0 ≤ value then (roundNat value.toNat : Int)
  else -(roundNat (-value).toNat : Int)

/-- The sum of two doubles whose values are whole numbers. -/
def add (left right : Int) : Int :=
  round (left + right)

end Mendpoint.Library.SafeInteger

/-!
## Values as texts

What ECMAScript makes of a JSON value where it wants a text, and what SQLite
makes of one which it takes out of a column.  Both agree on the texts and
differ on the rest: SQLite holds truth values as numbers, keeps arrays and
objects in their notation, and compares a number with a text according to
where the text comes from.
-/

namespace Mendpoint.Library

namespace Json

/-- A member which `??` does not pass over. -/
def nonNull? : Option Json → Option Json
  | none | some null => none
  | some value => some value

variable (numerals : Numerals)

mutual

/-- `String(value)`. -/
def asString : Json → String
  | null => "null"
  | bool value => if value then "true" else "false"
  | num value => String.ofList (numerals.text value)
  | str value => value
  | arr items => Text.join "," (itemStrings items)
  | obj _ => "[object Object]"

/-- The texts which the items of an array are joined from. -/
def itemStrings : List Json → List String
  | [] => []
  | null :: rest => "" :: itemStrings rest
  | item :: rest => asString item :: itemStrings rest

end

end Json

/-! ## Values in SQLite -/

/-- A value which SQLite computes with. -/
inductive SqlValue where
  | null
  | num (value : ℚ)
  | text (value : String)

namespace SqlValue

/-- `json_extract(column, '$.name')`. -/
def jsonExtract (numerals : Numerals) (column : Option Json)
    (name : String) : SqlValue :=
  match column.bind (Json.get? · name) with
  | none | some .null => null
  | some (.bool value) => num (if value then 1 else 0)
  | some (.num value) => num value
  | some (.str value) => text value
  | some value => text (String.ofList (Json.chars numerals value))

def coalesce : SqlValue → SqlValue → SqlValue
  | null, other => other
  | value, _ => value

/-- Equality with a bound text, which no number has. -/
def equalsBound : SqlValue → String → Bool
  | text value, other => decide (value = other)
  | _, _ => false

/--
Equality with a text out of a column, for which a number is written out.
How SQLite writes numbers is a parameter.
-/
def equalsColumn (numeral : ℚ → String) : SqlValue → String → Bool
  | text value, other => decide (value = other)
  | num value, other => decide (numeral value = other)
  | null, _ => false

theorem equalsColumn_of_equalsBound {numeral : ℚ → String}
    {value : SqlValue} {other : String}
    (equal : value.equalsBound other = true) :
    value.equalsColumn numeral other = true := by
  cases value with
  | null => cases equal
  | num value => cases equal
  | text value => exact equal

end SqlValue

end Mendpoint.Library
