import Mathlib.Algebra.GroupWithZero.Nat
import Mathlib.Data.List.Nodup
import Mathlib.Data.List.Basic

/-!
# Insertion-ordered finite maps

A finite map which remembers the order in which its keys were first set.
Updating a present key keeps its place; a new key goes to the end.  This is
the behaviour of the ECMAScript `Map`, and of a record whose keys are not
array indices, so iteration over such a container is iteration over
`entries`.

The representation carries the uniqueness of its keys, so that a lookup and a
traversal always describe the same finite function.
-/

namespace Mendpoint.Library

universe u v w

/-- A finite map listed in the order in which its keys were first set. -/
structure OrderedMap (κ : Type u) (β : Type v) where
  entries : List (κ × β)
  nodupKeys : (entries.map Prod.fst).Nodup

namespace OrderedMap

section Entries

variable {κ : Type u} {β : Type v} [DecidableEq κ]

/-- The value stored first under a key of an entry list. -/
def lookupEntry (key : κ) : List (κ × β) → Option β
  | [] => none
  | (other, value) :: rest =>
    if other = key then some value else lookupEntry key rest

/-- Overwrite a key in place, or append it. -/
def setEntry (key : κ) (value : β) : List (κ × β) → List (κ × β)
  | [] => [(key, value)]
  | (other, old) :: rest =>
    if other = key then (key, value) :: rest
    else (other, old) :: setEntry key value rest

theorem mem_keys_setEntry (key other : κ) (value : β)
    (entries : List (κ × β)) :
    other ∈ (setEntry key value entries).map Prod.fst ↔
      other = key ∨ other ∈ entries.map Prod.fst := by
  induction entries with
  | nil => simp [setEntry]
  | cons head rest induction =>
    rcases head with ⟨first, old⟩
    by_cases same : first = key
    · subst same
      simp [setEntry]
    · simp only [setEntry, same, if_false, List.map_cons,
        List.mem_cons, induction]
      tauto

theorem nodup_setEntry (key : κ) (value : β)
    {entries : List (κ × β)}
    (nodup : (entries.map Prod.fst).Nodup) :
    ((setEntry key value entries).map Prod.fst).Nodup := by
  induction entries with
  | nil => simp [setEntry]
  | cons head rest induction =>
    rcases head with ⟨first, old⟩
    rw [List.map_cons, List.nodup_cons] at nodup
    by_cases same : first = key
    · subst same
      simpa [setEntry] using nodup
    · have fresh : first ∉ (setEntry key value rest).map Prod.fst := by
        rw [mem_keys_setEntry, not_or]
        exact ⟨same, nodup.1⟩
      rw [setEntry, if_neg same, List.map_cons, List.nodup_cons]
      exact ⟨fresh, induction nodup.2⟩

theorem lookupEntry_setEntry (key other : κ) (value : β)
    (entries : List (κ × β)) :
    lookupEntry other (setEntry key value entries) =
      if key = other then some value else lookupEntry other entries := by
  induction entries with
  | nil => simp [setEntry, lookupEntry]
  | cons head rest induction =>
    rcases head with ⟨first, old⟩
    by_cases same : first = key
    · subst same
      by_cases hit : first = other <;> simp [setEntry, lookupEntry, hit]
    · by_cases hit : first = other
      · subst hit
        have missed : key ≠ first := fun equal => same equal.symm
        simp [setEntry, lookupEntry, same, missed]
      · simp [setEntry, lookupEntry, same, hit, induction]

theorem lookupEntry_eq_some_iff
    {entries : List (κ × β)}
    (nodup : (entries.map Prod.fst).Nodup) (key : κ) (value : β) :
    lookupEntry key entries = some value ↔ (key, value) ∈ entries := by
  induction entries with
  | nil => simp [lookupEntry]
  | cons head rest induction =>
    rcases head with ⟨first, old⟩
    rw [List.map_cons, List.nodup_cons] at nodup
    by_cases same : first = key
    · subst same
      have absent : (first, value) ∉ rest := fun member =>
        nodup.1 (List.mem_map.mpr ⟨_, member, rfl⟩)
      simp [lookupEntry, absent, eq_comm]
    · have different : ¬ (key = first) := fun equal => same equal.symm
      simp [lookupEntry, same, different, induction nodup.2]

end Entries

section Map

variable {κ : Type u} {β : Type v}

/-- The map with no keys. -/
def empty : OrderedMap κ β where
  entries := []
  nodupKeys := List.nodup_nil

instance : EmptyCollection (OrderedMap κ β) := ⟨empty⟩

/-- The keys, oldest first. -/
def keys (map : OrderedMap κ β) : List κ :=
  map.entries.map Prod.fst

/-- The values, in the order of their keys. -/
def values (map : OrderedMap κ β) : List β :=
  map.entries.map Prod.snd

/-- The number of keys. -/
def size (map : OrderedMap κ β) : Nat :=
  map.entries.length

/-- Keep the entries whose key passes a test; the order is unchanged. -/
def filterKeys (keep : κ → Bool) (map : OrderedMap κ β) :
    OrderedMap κ β where
  entries := map.entries.filter fun entry => keep entry.1
  nodupKeys :=
    map.nodupKeys.sublist (List.filter_sublist.map Prod.fst)

theorem eq_of_entries {map other : OrderedMap κ β}
    (same : map.entries = other.entries) : map = other := by
  cases map
  cases other
  cases same
  rfl

@[simp]
theorem keys_empty : (empty : OrderedMap κ β).keys = [] := rfl

theorem nodup_keys (map : OrderedMap κ β) : map.keys.Nodup :=
  map.nodupKeys

/-- The sum of the weights of the values. -/
def weight (measure : β → Nat) (entries : List (κ × β)) : Nat :=
  (entries.map fun entry => measure entry.2).sum

variable [DecidableEq κ]

/-- Lookup, as `Map.get`. -/
def get? (map : OrderedMap κ β) (key : κ) : Option β :=
  lookupEntry key map.entries

/-- Assignment, as `Map.set`. -/
def set (map : OrderedMap κ β) (key : κ) (value : β) :
    OrderedMap κ β where
  entries := setEntry key value map.entries
  nodupKeys := nodup_setEntry key value map.nodupKeys

/-- Presence, as `Map.has`. -/
def has (map : OrderedMap κ β) (key : κ) : Bool :=
  (map.get? key).isSome

/-- Removal, as `Map.delete`. -/
def delete (map : OrderedMap κ β) (key : κ) : OrderedMap κ β :=
  map.filterKeys fun other => decide (other ≠ key)

/-- Assign the entries of a list in turn. -/
def setAll (map : OrderedMap κ β) (entries : List (κ × β)) :
    OrderedMap κ β :=
  entries.foldl (fun current entry => current.set entry.1 entry.2) map

/-- `new Map(entries)`: a later entry overwrites an earlier one. -/
def ofList (entries : List (κ × β)) : OrderedMap κ β :=
  empty.setAll entries

/-- The value under a key, or a default. -/
def getD (map : OrderedMap κ β) (key : κ) (default : β) : β :=
  (map.get? key).getD default

@[simp]
theorem get?_empty (key : κ) :
    (empty : OrderedMap κ β).get? key = none := rfl

@[simp]
theorem get?_set (map : OrderedMap κ β) (key other : κ) (value : β) :
    (map.set key value).get? other =
      if key = other then some value else map.get? other :=
  lookupEntry_setEntry key other value map.entries

theorem getD_set (map : OrderedMap κ β) (key other : κ)
    (value default : β) :
    (map.set key value).getD other default =
      if key = other then value else map.getD other default := by
  rw [getD, get?_set]
  split <;> rfl

theorem get?_set_self (map : OrderedMap κ β) (key : κ) (value : β) :
    (map.set key value).get? key = some value := by
  simp

variable {key : κ} {entries : List (κ × β)} {value : β}

theorem get?_set_of_ne (map : OrderedMap κ β) {other : κ} (value : β)
    (different : key ≠ other) :
    (map.set key value).get? other = map.get? other := by
  simp [different]

@[simp]
theorem mem_entries_iff (map : OrderedMap κ β) (key : κ) (value : β) :
    (key, value) ∈ map.entries ↔ map.get? key = some value :=
  (lookupEntry_eq_some_iff map.nodupKeys key value).symm

theorem mem_keys_iff (map : OrderedMap κ β) (key : κ) :
    key ∈ map.keys ↔ ∃ value, map.get? key = some value := by
  simp only [keys, List.mem_map, Prod.exists, mem_entries_iff]
  constructor
  · rintro ⟨other, value, found, rfl⟩
    exact ⟨value, found⟩
  · rintro ⟨value, found⟩
    exact ⟨key, value, found, rfl⟩

theorem not_mem_keys_iff (map : OrderedMap κ β) (key : κ) :
    key ∉ map.keys ↔ map.get? key = none := by
  rw [mem_keys_iff]
  cases found : map.get? key <;> simp

theorem mem_values_iff (map : OrderedMap κ β) (value : β) :
    value ∈ map.values ↔ ∃ key, map.get? key = some value := by
  simp only [values, List.mem_map, Prod.exists, mem_entries_iff]
  constructor
  · rintro ⟨key, other, found, rfl⟩
    exact ⟨key, found⟩
  · rintro ⟨key, found⟩
    exact ⟨key, value, found, rfl⟩

theorem has_iff (map : OrderedMap κ β) (key : κ) :
    map.has key = true ↔ key ∈ map.keys := by
  rw [mem_keys_iff, has, Option.isSome_iff_exists]

@[simp]
theorem mem_keys_set (map : OrderedMap κ β) (key other : κ) (value : β) :
    other ∈ (map.set key value).keys ↔ other = key ∨ other ∈ map.keys :=
  mem_keys_setEntry key other value map.entries

theorem keys_set (map : OrderedMap κ β) (key : κ) (value : β) :
    (map.set key value).keys =
      if key ∈ map.keys then map.keys else map.keys ++ [key] := by
  change (setEntry key value map.entries).map Prod.fst =
    if key ∈ map.entries.map Prod.fst then map.entries.map Prod.fst
    else map.entries.map Prod.fst ++ [key]
  induction map.entries with
  | nil => simp [setEntry]
  | cons head rest induction =>
    rcases head with ⟨first, old⟩
    by_cases same : first = key
    · subst same
      simp [setEntry]
    · have different : ¬ (key = first) := fun equal => same equal.symm
      simp only [setEntry, same, if_false, List.map_cons,
        List.mem_cons, different, false_or, induction]
      split <;> simp

@[simp]
theorem get?_filterKeys (map : OrderedMap κ β) (keep : κ → Bool)
    (key : κ) :
    (map.filterKeys keep).get? key =
      if keep key then map.get? key else none := by
  apply Option.ext
  intro value
  rw [← mem_entries_iff, filterKeys]
  split <;> simp_all

theorem mem_keys_filterKeys (map : OrderedMap κ β) (keep : κ → Bool)
    (key : κ) :
    key ∈ (map.filterKeys keep).keys ↔ key ∈ map.keys ∧ keep key := by
  rw [mem_keys_iff, mem_keys_iff, get?_filterKeys]
  by_cases kept : keep key <;> simp [kept]

@[simp]
theorem get?_delete (map : OrderedMap κ β) (key other : κ) :
    (map.delete key).get? other =
      if key = other then none else map.get? other := by
  by_cases same : key = other
  · subst same
    simp [delete]
  · have different : ¬ (other = key) := fun equal => same equal.symm
    simp [delete, same, different]

theorem mem_keys_delete (map : OrderedMap κ β) (key other : κ) :
    other ∈ (map.delete key).keys ↔ other ∈ map.keys ∧ other ≠ key := by
  simp [delete, mem_keys_filterKeys]

theorem get?_setAll (map : OrderedMap κ β) (entries : List (κ × β))
    (key : κ) :
    (map.setAll entries).get? key =
      ((entries.reverse.find? fun entry => decide (entry.1 = key)).map
        Prod.snd).or (map.get? key) := by
  induction entries generalizing map with
  | nil => simp [setAll]
  | cons head rest induction =>
    rcases head with ⟨first, value⟩
    have step := induction (map.set first value)
    simp only [setAll, List.foldl_cons] at step ⊢
    rw [step, get?_set, List.reverse_cons, List.find?_append]
    cases found :
        rest.reverse.find? fun entry => decide (entry.1 = key) with
    | some entry => simp
    | none => by_cases same : first = key <;> simp [same]

theorem mem_keys_setAll (map : OrderedMap κ β) (entries : List (κ × β))
    (key : κ) :
    key ∈ (map.setAll entries).keys ↔
      key ∈ map.keys ∨ key ∈ entries.map Prod.fst := by
  induction entries generalizing map with
  | nil => simp [setAll]
  | cons head rest induction =>
    have step := induction (map.set head.1 head.2)
    simp only [setAll, List.foldl_cons] at step ⊢
    rw [step, mem_keys_set, List.map_cons, List.mem_cons]
    tauto

theorem mem_keys_ofList (entries : List (κ × β)) (key : κ) :
    key ∈ (ofList entries).keys ↔ key ∈ entries.map Prod.fst := by
  simp [ofList, mem_keys_setAll]

theorem mem_of_get?_ofList (found : (ofList entries).get? key = some value) :
    (key, value) ∈ entries := by
  rw [ofList, get?_setAll] at found
  simp only [get?_empty, Option.or_none, Option.map_eq_some_iff] at found
  obtain ⟨entry, located, rfl⟩ := found
  have member : entry ∈ entries :=
    List.mem_reverse.mp (List.mem_of_find?_eq_some located)
  have keyed : entry.1 = key := by
    simpa using List.find?_some located
  rw [← keyed]
  exact member

theorem get?_ofList_of_nodup (nodup : (entries.map Prod.fst).Nodup) (key : κ)
    (value : β) :
    (ofList entries).get? key = some value ↔ (key, value) ∈ entries := by
  constructor
  · exact mem_of_get?_ofList
  · intro member
    have present : key ∈ (ofList entries).keys :=
      (mem_keys_ofList entries key).mpr
        (List.mem_map.mpr ⟨_, member, rfl⟩)
    obtain ⟨stored, found⟩ := (mem_keys_iff _ _).mp present
    have stored_mem := mem_of_get?_ofList found
    have same : stored = value := by
      have left := (lookupEntry_eq_some_iff nodup key stored).mpr stored_mem
      have right := (lookupEntry_eq_some_iff nodup key value).mpr member
      exact Option.some.inj (left.symm.trans right)
    rw [found, same]

/-- Assignment of a key which is not yet present. -/
def setNew (map : OrderedMap κ β) (key : κ) (value : β) :
    OrderedMap κ β :=
  if map.has key then map else map.set key value

/-- Assign the entries of a list in turn, keeping the first of each key. -/
def setAllNew (map : OrderedMap κ β) (entries : List (κ × β)) :
    OrderedMap κ β :=
  entries.foldl (fun current entry => current.setNew entry.1 entry.2) map

theorem get?_setNew (map : OrderedMap κ β) (key other : κ) (value : β) :
    (map.setNew key value).get? other =
      (map.get? other).or (if key = other then some value else none) := by
  rw [setNew, has]
  by_cases same : key = other
  · subst same
    cases found : map.get? key <;> simp [found]
  · split <;> simp [same]

theorem get?_setAllNew (map : OrderedMap κ β) (entries : List (κ × β))
    (key : κ) :
    (map.setAllNew entries).get? key =
      (map.get? key).or
        ((entries.find? fun entry => decide (entry.1 = key)).map
          Prod.snd) := by
  induction entries generalizing map with
  | nil => simp [setAllNew]
  | cons head rest induction =>
    have step := induction (map.setNew head.1 head.2)
    simp only [setAllNew, List.foldl_cons] at step ⊢
    rw [step, get?_setNew, List.find?_cons]
    by_cases same : head.1 = key <;> simp [same]

theorem mem_keys_setNew (map : OrderedMap κ β) (key other : κ)
    (value : β) :
    other ∈ (map.setNew key value).keys ↔
      other = key ∨ other ∈ map.keys := by
  rw [setNew]
  split
  · rename_i present
    rw [has_iff] at present
    constructor
    · exact Or.inr
    · rintro (rfl | member)
      · exact present
      · exact member
  · exact mem_keys_set map key other value

theorem mem_keys_setAllNew (map : OrderedMap κ β)
    (entries : List (κ × β)) (key : κ) :
    key ∈ (map.setAllNew entries).keys ↔
      key ∈ map.keys ∨ key ∈ entries.map Prod.fst := by
  induction entries generalizing map with
  | nil => simp [setAllNew]
  | cons head rest induction =>
    have step := induction (map.setNew head.1 head.2)
    simp only [setAllNew, List.foldl_cons] at step ⊢
    rw [step, mem_keys_setNew, List.map_cons, List.mem_cons]
    tauto

/-- Append a value to the list kept under a key. -/
def push (map : OrderedMap κ (List β)) (key : κ) (value : β) :
    OrderedMap κ (List β) :=
  map.set key (map.getD key [] ++ [value])

/-- Collect the values of a list of entries under their keys. -/
def collect (entries : List (κ × β)) : OrderedMap κ (List β) :=
  entries.foldl (fun map entry => map.push entry.1 entry.2) empty

theorem getD_push (map : OrderedMap κ (List β)) (key other : κ)
    (value : β) :
    (map.push key value).getD other [] =
      if key = other then map.getD other [] ++ [value]
      else map.getD other [] := by
  by_cases same : key = other
  · subst same
    simp [push, getD]
  · simp [push, getD, same]

theorem getD_collect (entries : List (κ × β)) (key : κ) :
    (collect entries).getD key [] =
      (entries.filter fun entry => decide (entry.1 = key)).map Prod.snd := by
  have general : ∀ (rest : List (κ × β)) (map : OrderedMap κ (List β)),
      (rest.foldl (fun map entry => map.push entry.1 entry.2) map).getD
          key [] =
        map.getD key [] ++
          (rest.filter fun entry => decide (entry.1 = key)).map
            Prod.snd := by
    intro rest
    induction rest with
    | nil => simp
    | cons head tail induction =>
      intro map
      rw [List.foldl_cons, induction, getD_push]
      by_cases same : head.1 = key <;> simp [same]
  rw [collect, general]
  simp [getD]

/-! ### Sizes and weights -/

theorem weight_setEntry (measure : β → Nat) (key : κ) (value : β)
    (distinct : (entries.map Prod.fst).Nodup) :
    weight measure (setEntry key value entries) =
      measure value +
        weight measure (entries.filter fun entry => decide (entry.1 ≠ key)) := by
  induction entries with
  | nil => simp [setEntry, weight]
  | cons first rest inductionHypothesis =>
    rcases first with ⟨other, old⟩
    rw [List.map_cons, List.nodup_cons] at distinct
    by_cases same : other = key
    · subst same
      have others : ∀ entry ∈ rest, decide (entry.1 ≠ other) = true := by
        intro entry member
        rw [decide_eq_true_iff]
        intro equal
        exact distinct.1 (List.mem_map.mpr ⟨entry, member, equal⟩)
      rw [setEntry, if_pos rfl, List.filter_cons_of_neg (by simp),
        List.filter_eq_self.mpr others]
      rfl
    · have step := inductionHypothesis distinct.2
      rw [setEntry, if_neg same, List.filter_cons_of_pos (by simp [same])]
      rw [weight, List.map_cons, List.sum_cons]
      rw [weight] at step
      rw [step, weight, weight, List.map_cons, List.sum_cons]
      omega

theorem setEntry_of_lookupEntry
    (found : lookupEntry key entries = some value) :
    setEntry key value entries = entries := by
  induction entries with
  | nil => cases found
  | cons first rest inductionHypothesis =>
    rcases first with ⟨other, old⟩
    rw [lookupEntry] at found
    rw [setEntry]
    by_cases same : other = key
    · rw [if_pos same] at found ⊢
      rw [Option.some.inj found, same]
    · rw [if_neg same] at found ⊢
      rw [inductionHypothesis found]

/-! ## Overlays -/

theorem setEntry_of_not_mem (value : β) (absent : key ∉ entries.map Prod.fst) :
    setEntry key value entries = entries ++ [(key, value)] := by
  induction entries with
  | nil => rfl
  | cons first rest inductionHypothesis =>
    rcases first with ⟨other, old⟩
    rw [List.map_cons, List.mem_cons, not_or] at absent
    rw [setEntry, if_neg fun same => absent.1 same.symm,
      inductionHypothesis absent.2, List.cons_append]

theorem entries_setAll {map : OrderedMap κ β}
    (distinct : ((map.entries ++ entries).map Prod.fst).Nodup) :
    (map.setAll entries).entries = map.entries ++ entries := by
  induction entries generalizing map with
  | nil => exact (List.append_nil _).symm
  | cons first rest inductionHypothesis =>
    have absent : first.1 ∉ map.entries.map Prod.fst := by
      rw [List.map_append, List.map_cons, List.nodup_append] at distinct
      exact fun member => distinct.2.2 _ member _ List.mem_cons_self rfl
    have grown : (map.set first.1 first.2).entries =
        map.entries ++ [first] :=
      setEntry_of_not_mem first.2 absent
    rw [setAll, List.foldl_cons]
    refine (inductionHypothesis ?_).trans ?_
    · rw [grown, List.append_assoc, List.singleton_append]
      exact distinct
    · rw [grown, List.append_assoc, List.singleton_append]

@[simp]
theorem ofList_entries (map : OrderedMap κ β) : ofList map.entries = map :=
  eq_of_entries (entries_setAll map.nodupKeys)

theorem get?_setAll_entries (map other : OrderedMap κ β) (key : κ) :
    (map.setAll other.entries).get? key =
      (other.get? key).or (map.get? key) := by
  have alone := get?_setAll (OrderedMap.empty : OrderedMap κ β)
    other.entries key
  change (ofList other.entries).get? key = _ at alone
  rw [ofList_entries, get?_empty, Option.or_none] at alone
  rw [get?_setAll, ← alone]

end Map

end OrderedMap

end Mendpoint.Library

/-!
## Maps with other values under the same keys

Applying a function to the values of a map keeps its keys and their order, and
commutes with looking up and with setting.
-/

namespace Mendpoint.Library.OrderedMap

universe u v w

variable {κ : Type u} {β : Type v} {γ : Type w}

section Entries

variable [DecidableEq κ]

theorem lookupEntry_map (apply : β → γ) (key : κ)
    (entries : List (κ × β)) :
    lookupEntry key (entries.map fun entry => (entry.1, apply entry.2)) =
      (lookupEntry key entries).map apply := by
  induction entries with
  | nil => rfl
  | cons entry rest inductionHypothesis =>
    rw [List.map_cons, lookupEntry, lookupEntry]
    split
    · rfl
    · exact inductionHypothesis

theorem setEntry_map (apply : β → γ) (key : κ) (value : β)
    (entries : List (κ × β)) :
    setEntry key (apply value)
        (entries.map fun entry => (entry.1, apply entry.2)) =
      (setEntry key value entries).map
        fun entry => (entry.1, apply entry.2) := by
  induction entries with
  | nil => rfl
  | cons entry rest inductionHypothesis =>
    rw [List.map_cons, setEntry, setEntry]
    split
    · rfl
    · rw [inductionHypothesis, List.map_cons]

end Entries

/-- The map with a function applied to its values. -/
def mapValues (apply : β → γ) (map : OrderedMap κ β) : OrderedMap κ γ where
  entries := map.entries.map fun entry => (entry.1, apply entry.2)
  nodupKeys := by
    rw [List.map_map]
    exact map.nodupKeys

@[simp]
theorem get?_mapValues [DecidableEq κ] (apply : β → γ) (map : OrderedMap κ β) (key : κ) :
    (map.mapValues apply).get? key = (map.get? key).map apply :=
  lookupEntry_map apply key map.entries

theorem set_mapValues [DecidableEq κ] (apply : β → γ) (map : OrderedMap κ β) (key : κ)
    (value : β) :
    (map.mapValues apply).set key (apply value) =
      (map.set key value).mapValues apply :=
  eq_of_entries (setEntry_map apply key value map.entries)

@[simp]
theorem values_mapValues (apply : β → γ) (map : OrderedMap κ β) :
    (map.mapValues apply).values = map.values.map apply := by
  rw [values, values, mapValues, List.map_map, List.map_map]
  rfl

end Mendpoint.Library.OrderedMap
