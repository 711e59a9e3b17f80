import Mathlib.Algebra.Ring.Nat
import Mathlib.Data.String.Basic
import Mathlib.Data.List.Basic

/-!
# Texts as bytes

Texts are written as UTF-8.  Bytes which are no UTF-8 are read with a
replacement character for each ill-formed part of them, and so are not read
back from what was read.
-/

namespace Mendpoint.Library.Utf8Text

/-- What is read of a character which is not complete. -/
structure Pending where
  needed : Nat
  codePoint : Nat
  lower : Nat
  upper : Nat

/-- Between two characters. -/
def Pending.none : Pending where
  needed := 0
  codePoint := 0
  lower := 0x80
  upper := 0xbf

/-- The character which stands for an ill-formed part. -/
def replacement : Char := Char.ofNat 0xfffd

/-- Read a byte between two characters. -/
def first (byte : Nat) : List Char × Pending :=
  if byte < 0x80 then ([Char.ofNat byte], .none)
  else if 0xc2 ≤ byte ∧ byte ≤ 0xdf then
    ([], { Pending.none with needed := 1, codePoint := byte - 0xc0 })
  else if 0xe0 ≤ byte ∧ byte ≤ 0xef then
    ([], {
      needed := 2
      codePoint := byte - 0xe0
      lower := if byte = 0xe0 then 0xa0 else 0x80
      upper := if byte = 0xed then 0x9f else 0xbf })
  else if 0xf0 ≤ byte ∧ byte ≤ 0xf4 then
    ([], {
      needed := 3
      codePoint := byte - 0xf0
      lower := if byte = 0xf0 then 0x90 else 0x80
      upper := if byte = 0xf4 then 0x8f else 0xbf })
  else ([replacement], .none)

/-- Read a byte where it continues what is pending, or replace that. -/
def next (pending : Pending) (byte : Nat) : List Char × Pending :=
  if pending.needed = 0 then first byte
  else if pending.lower ≤ byte ∧ byte ≤ pending.upper then
    let codePoint := pending.codePoint * 0x40 + (byte - 0x80)
    if pending.needed = 1 then ([Char.ofNat codePoint], .none)
    else
      ([], { Pending.none with
        needed := pending.needed - 1
        codePoint := codePoint })
  else
    let (chars, later) := first byte
    (replacement :: chars, later)

/-- Read bytes, whatever they are. -/
def lossyChars (pending : Pending) : List UInt8 → List Char
  | [] => if pending.needed = 0 then [] else [replacement]
  | byte :: bytes =>
    let (chars, later) := next pending byte.toNat
    chars ++ lossyChars later bytes

/-- `buffer.toString("utf8")`. -/
def decode (bytes : ByteArray) : String :=
  match String.fromUTF8? bytes with
  | some text => text
  | none => String.ofList (lossyChars .none bytes.toList)

/-- `Buffer.from(text, "utf8")`. -/
def encode (text : String) : ByteArray :=
  text.toByteArray

theorem size_encode_ofList (chars : List Char) :
    (encode (String.ofList chars)).size = (chars.map Char.utf8Size).sum := by
  induction chars with
  | nil => rfl
  | cons char rest inductionHypothesis =>
    have single : [char].utf8Encode.size = char.utf8Size :=
      String.utf8ByteSize_singleton
    rw [encode, String.toByteArray_ofList] at inductionHypothesis ⊢
    rw [List.utf8Encode_cons, ByteArray.size_append, single,
      inductionHypothesis, List.map_cons, List.sum_cons]

theorem sum_utf8Size_le (chars : List Char) :
    (chars.map Char.utf8Size).sum ≤ 4 * chars.length := by
  induction chars with
  | nil => exact Nat.le_refl 0
  | cons char rest inductionHypothesis =>
    have here := Char.utf8Size_le_four char
    rw [List.map_cons, List.sum_cons, List.length_cons]
    omega

theorem length_toList_le (text : String) :
    text.toList.length ≤ text.utf8ByteSize := by
  have bytes := size_encode_ofList text.toList
  rw [String.ofList_toList] at bytes
  have least : ∀ chars : List Char,
      chars.length ≤ (chars.map Char.utf8Size).sum := by
    intro chars
    induction chars with
    | nil => exact Nat.le_refl 0
    | cons char rest inductionHypothesis =>
      have here := Char.utf8Size_pos char
      rw [List.map_cons, List.sum_cons, List.length_cons]
      omega
  exact (least text.toList).trans (Nat.le_of_eq bytes.symm)

end Mendpoint.Library.Utf8Text

/-!
## Base 64

Bytes as texts of an alphabet of 64 characters.  Reading ignores what is not of
the alphabet and ends at the padding.
-/

namespace Mendpoint.Library.Base64

def alphabet : List Char :=
  "ABCDEFGHIJKLMNOPQRSTUVWXYZabcdefghijklmnopqrstuvwxyz0123456789+/".toList

/-- The character of six bits. -/
def digit (value : Nat) : Char :=
  alphabet.getD value '='

/-- The characters of bytes, with their padding. -/
def encodeBytes : List UInt8 → List Char
  | first :: second :: third :: rest =>
    let bits := first.toNat * 65536 + second.toNat * 256 + third.toNat
    digit (bits / 262144) :: digit (bits / 4096 % 64) ::
      digit (bits / 64 % 64) :: digit (bits % 64) :: encodeBytes rest
  | [first, second] =>
    let bits := first.toNat * 1024 + second.toNat * 4
    [digit (bits / 4096), digit (bits / 64 % 64), digit (bits % 64), '=']
  | [first] =>
    let bits := first.toNat * 16
    [digit (bits / 64), digit (bits % 64), '=', '=']
  | [] => []

/-- `buffer.toString("base64")`. -/
def encode (bytes : ByteArray) : String :=
  String.ofList (encodeBytes bytes.toList)

/-- The six bits of a character, also of the alphabet for addresses. -/
def value? (char : Char) : Option Nat :=
  if char = '-' then some 62
  else if char = '_' then some 63
  else alphabet.idxOf? char

/-- The bytes of groups of six bits. -/
def decodeValues : List Nat → List UInt8
  | first :: second :: third :: fourth :: rest =>
    let bits := first * 262144 + second * 4096 + third * 64 + fourth
    .ofNat (bits / 65536) :: .ofNat (bits / 256 % 256) ::
      .ofNat (bits % 256) :: decodeValues rest
  | [first, second, third] =>
    let bits := first * 4096 + second * 64 + third
    [.ofNat (bits / 1024), .ofNat (bits / 4 % 256)]
  | [first, second] => [.ofNat ((first * 64 + second) / 16)]
  | _ => []

/-- `Buffer.from(text, "base64")`. -/
def decode (text : String) : ByteArray :=
  ⟨(decodeValues ((text.toList.takeWhile fun char => decide (char ≠ '=')).filterMap
    value?)).toArray⟩

example : encode (decode "TWVuZA==") = "TWVuZA==" := by
  decide +kernel

end Mendpoint.Library.Base64
