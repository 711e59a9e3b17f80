import Mathlib.Data.List.Infix
import Mathlib.Data.List.Sort

/-!
# Text operations

The string operations of ECMAScript which the models use, defined on the
characters of a string so that they reduce on literals.  Strings are sequences
of Unicode scalar values; unpaired surrogates are not represented.
-/

namespace Mendpoint.Library.Text

/-- `text.endsWith(suffix)`. -/
def endsWith (text suffix : String) : Bool :=
  suffix.toList.isSuffixOf text.toList

/-- `text.startsWith(start)`. -/
def startsWith (text start : String) : Bool :=
  start.toList.isPrefixOf text.toList

/-- `text.includes(part)`. -/
def includes (text part : String) : Bool :=
  decide (part.toList <:+: text.toList)

/-- `text.split(separator)` for a separator of one character. -/
def splitOn (separator : Char) (text : String) : List String :=
  (text.toList.splitOn separator).map String.ofList

/-- `text.replaceAll(old, new)` for single characters. -/
def replaceChar (old new : Char) (text : String) : String :=
  String.ofList (text.toList.map fun char => if char = old then new else char)

/-- Remove a prefix once, if it is present. -/
def dropPrefix (start text : String) : String :=
  if startsWith text start then
    String.ofList (text.toList.drop start.toList.length)
  else text

/-- ASCII lower case. -/
def lowerCase (text : String) : String :=
  String.ofList (text.toList.map Char.toLower)

/-- The last member of a list of strings, as `parts.pop()`, or the default. -/
def lastPart (parts : List String) (default : String) : String :=
  parts.getLast?.getD default

/-- White space and line terminators, the characters removed by `trim`. -/
def isTrimmed (char : Char) : Bool :=
  char.toNat ∈
    [0x09, 0x0a, 0x0b, 0x0c, 0x0d, 0x20, 0xa0, 0x1680, 0x2000, 0x2001,
      0x2002, 0x2003, 0x2004, 0x2005, 0x2006, 0x2007, 0x2008, 0x2009,
      0x200a, 0x2028, 0x2029, 0x202f, 0x205f, 0x3000, 0xfeff]

/-- `text.trim()`. -/
def trim (text : String) : String :=
  String.ofList
    ((text.toList.dropWhile isTrimmed).reverse.dropWhile isTrimmed).reverse

/-- The UTF-16 code units of a character, as `charCodeAt` reads them. -/
def utf16Units (char : Char) : List Nat :=
  if char.toNat < 0x10000 then [char.toNat]
  else
    [0xd800 + (char.toNat - 0x10000) / 0x400,
      0xdc00 + (char.toNat - 0x10000) % 0x400]

/-- The UTF-16 code units of a text. -/
def codeUnits (text : String) : List Nat :=
  text.toList.flatMap utf16Units

/-- Lexicographic comparison of code units. -/
def unitsLe : List Nat → List Nat → Bool
  | [], _ => true
  | _ :: _, [] => false
  | left :: lefts, right :: rights =>
    if left = right then unitsLe lefts rights else decide (left < right)

/-- The order in which `sort()` arranges texts. -/
def codeUnitLe (left right : String) : Bool :=
  unitsLe (codeUnits left) (codeUnits right)

/-- `[...texts].sort()`. -/
def sortTexts (texts : List String) : List String :=
  texts.insertionSort fun left right => codeUnitLe left right = true

/-- The character of a digit in a radix of at most 36. -/
def radixDigit (digit : Nat) : Char :=
  "0123456789abcdefghijklmnopqrstuvwxyz".toList.getD digit '0'

/-- Digits of a number in front of the digits already produced. -/
def radixDigits (radix : Nat) : Nat → Nat → List Char → List Char
  | 0, _, digits => digits
  | fuel + 1, number, digits =>
    let next := radixDigit (number % radix) :: digits
    if number / radix = 0 then next
    else radixDigits radix fuel (number / radix) next

/-- `number.toString(radix)`. -/
def toRadix (radix number : Nat) : String :=
  String.ofList (radixDigits radix (number + 1) number [])

/-- `text.padStart(width, fill)` for a single fill character. -/
def padStart (width : Nat) (fill : Char) (text : String) : String :=
  String.ofList
    (List.replicate (width - text.toList.length) fill ++ text.toList)

/-- `text.slice(0, count)`. -/
def takeChars (count : Nat) (text : String) : String :=
  String.ofList (text.toList.take count)

/-- `parts.join(separator)`. -/
def join (separator : String) : List String → String
  | [] => ""
  | [only] => only
  | first :: second :: rest =>
    first ++ separator ++ join separator (second :: rest)

/-- A character inside a JSON string. -/
def jsonChar (char : Char) : List Char :=
  if char = '"' then ['\\', '"']
  else if char = '\\' then ['\\', '\\']
  else if char.toNat = 0x08 then ['\\', 'b']
  else if char.toNat = 0x09 then ['\\', 't']
  else if char.toNat = 0x0a then ['\\', 'n']
  else if char.toNat = 0x0c then ['\\', 'f']
  else if char.toNat = 0x0d then ['\\', 'r']
  else if char.toNat < 0x20 then
    ['\\', 'u'] ++ (padStart 4 '0' (toRadix 16 char.toNat)).toList
  else [char]

/-- `JSON.stringify(text)`. -/
def jsonText (text : String) : String :=
  String.ofList ('"' :: (text.toList.flatMap jsonChar ++ ['"']))

/-- `JSON.stringify` of an array whose members are already written. -/
def jsonArray (members : List String) : String :=
  "[" ++ join "," members ++ "]"

end Mendpoint.Library.Text
