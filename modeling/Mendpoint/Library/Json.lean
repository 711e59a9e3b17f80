import Mathlib.Data.Rat.Defs
import Mendpoint.Library.OrderedMap
import Mendpoint.Library.Text

/-!
# JSON values

The values which a JSON document denotes.  An object keeps the members as the
document lists them; `members` is the object a reader sees, in which the last
member of a name counts and the names come in the order of `Object.keys`.
Numbers are exact: the rounding of long literals is not represented.
-/

namespace Mendpoint.Library

/-- A JSON value. -/
inductive Json where
  | null
  | bool (value : Bool)
  | num (value : ℚ)
  | str (value : String)
  | arr (items : List Json)
  | obj (fields : List (String × Json))

namespace Json

/-! ## Objects -/

/-- The number of an array index, a key which objects list first. -/
def arrayIndex? (key : String) : Option Nat :=
  let digits := key.toList
  let number := digits.foldl (fun sum char => 10 * sum + (char.toNat - 48)) 0
  if digits ≠ [] ∧ digits.all Char.isDigit = true ∧
      (digits.head? ≠ some '0' ∨ digits = ['0']) ∧ number < 4294967295 then
    some number
  else none

/-- Array indices in ascending order, then the other keys as they came. -/
def listedFirst {β : Type} (left right : String × β) : Prop :=
  (arrayIndex? left.1).getD 4294967295 ≤
    (arrayIndex? right.1).getD 4294967295

instance {β : Type} : DecidableRel (@listedFirst β) := fun _ _ =>
  inferInstanceAs (Decidable (_ ≤ _))

/-- The order in which an object lists its own keys. -/
def ownKeyOrder {β : Type} (map : OrderedMap String β) :
    OrderedMap String β where
  entries := map.entries.insertionSort listedFirst
  nodupKeys :=
    (((List.perm_insertionSort listedFirst map.entries).map
      Prod.fst).nodup_iff).mpr map.nodupKeys

/-- The own members of a value; only objects have named members here. -/
def members : Json → OrderedMap String Json
  | obj fields => ownKeyOrder (OrderedMap.ofList fields)
  | _ => OrderedMap.empty

/-- `value[key]` for a named member, or undefined. -/
def get? (value : Json) (key : String) : Option Json :=
  value.members.get? key

/-- `Object.keys(value)`. -/
def keys (value : Json) : List String :=
  value.members.keys

/-- Whether a value passes for true in a condition. -/
def truthy : Json → Bool
  | null => false
  | bool value => value
  | num value => decide (value ≠ 0)
  | str value => decide (value ≠ "")
  | arr _ => true
  | obj _ => true

/-- The members of an array, as tested by `Array.isArray`. -/
def items? : Json → Option (List Json)
  | arr items => some items
  | _ => none

/-- The text of a string, as tested by `typeof value === "string"`. -/
def text? : Json → Option String
  | str value => some value
  | _ => none

/-! ## Structural equality -/

mutual

/-- Equality of values, without regard to the order of object members. -/
def deepEqual : Json → Json → Bool
  | null, null => true
  | bool left, bool right => left == right
  | num left, num right => decide (left = right)
  | str left, str right => decide (left = right)
  | arr left, arr right => itemsEqual left right
  | obj left, obj right =>
    decide ((OrderedMap.ofList left).size =
      (OrderedMap.ofList right).size) &&
      fieldsEqual left (OrderedMap.ofList right)
  | _, _ => false

/-- Equality of arrays, place by place. -/
def itemsEqual : List Json → List Json → Bool
  | [], [] => true
  | left :: lefts, right :: rights =>
    deepEqual left right && itemsEqual lefts rights
  | _, _ => false

/-- Every counted member on the left has an equal one on the right. -/
def fieldsEqual : List (String × Json) → OrderedMap String Json → Bool
  | [], _ => true
  | (key, value) :: rest, others =>
    (decide (key ∈ rest.map Prod.fst) ||
      match others.get? key with
      | some other => deepEqual value other
      | none => false) &&
      fieldsEqual rest others

end

end Json

end Mendpoint.Library
