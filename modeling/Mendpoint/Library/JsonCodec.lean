import Mendpoint.Library.JsonReader
import Mendpoint.Library.OrderedMap

/-!
# Codecs of values

How values are written as JSON and read back field by field, in whatever order
the fields of objects have been put.
-/

namespace Mendpoint.Library.Written

universe u

/-! ## Arrangements -/

theorem field_obj_eq_none {fields : List (String × Written)} {name : String} :
    (obj fields).field name = none ↔ name ∉ fields.map Prod.fst := by
  rw [field, Option.map_eq_none_iff, List.find?_eq_none]
  constructor
  · intro missing member
    rcases List.mem_map.mp member with ⟨entry, inside, rfl⟩
    exact missing entry inside (decide_eq_true rfl)
  · intro missing entry inside same
    exact missing (List.mem_map.mpr
      ⟨entry, inside, of_decide_eq_true same⟩)

/-- A rearrangement of the fields of objects. -/
structure Arrangement where
  apply : Written → Written
  apply_str (text : String) : apply (str text) = str text
  apply_bool (value : Bool) : apply (bool value) = bool value
  apply_int (number : Int) : apply (int number) = int number
  apply_arr (items : List Written) :
    apply (arr items) = arr (items.map apply)
  field_apply (fields : List (String × Written))
    (distinct : (fields.map Prod.fst).Nodup) (name : String) :
    (apply (obj fields)).field name = ((obj fields).field name).map apply

namespace Arrangement

/-- The fields stay as they are. -/
def unchanged : Arrangement where
  apply := id
  apply_str _ := rfl
  apply_bool _ := rfl
  apply_int _ := rfl
  apply_arr items := by
    rw [List.map_id]
    rfl
  field_apply fields _ name := by rw [Option.map_id, id, id]

theorem sortedItems_eq_map (items : List Written) :
    sortedItems items = items.map sorted := by
  induction items with
  | nil => rfl
  | cons first rest inductionHypothesis =>
    rw [sortedItems, List.map_cons, inductionHypothesis]

theorem field_sorted_eq (fields : List (String × Written))
    (distinct : (fields.map Prod.fst).Nodup) (name : String) :
    (obj fields).sorted.field name =
      ((obj fields).field name).map sorted := by
  cases found : (obj fields).field name with
  | none =>
    rw [field_obj_eq_none] at found
    rw [Option.map_none, sorted, field_obj_eq_none,
      ((List.perm_insertionSort _ _).map Prod.fst).mem_iff,
      map_fst_sortedFields]
    exact found
  | some value =>
    rw [Option.map_some]
    exact field_sorted distinct ((field_eq_some distinct).mp found)

/-- The fields are put in the order of code units. -/
def inOrder : Arrangement where
  apply := sorted
  apply_str _ := rfl
  apply_bool _ := rfl
  apply_int _ := rfl
  apply_arr items := by rw [sorted, sortedItems_eq_map]
  field_apply := field_sorted_eq

end Arrangement

/-! ## Codecs -/

/-- A way to write values, and to read what has been written. -/
structure Codec (α : Type u) where
  write : α → Written
  read : Written → Option α
  read_write (arrangement : Arrangement) (value : α) :
    read (arrangement.apply (write value)) = some value

namespace Codec

variable {α : Type u}

def readText : Written → Option String
  | .str text => some text
  | _ => none

def text : Codec String where
  write := str
  read := readText
  read_write arrangement text := by rw [arrangement.apply_str, readText]

def readInt : Written → Option Int
  | .int number => some number
  | _ => none

def int : Codec Int where
  write := .int
  read := readInt
  read_write arrangement number := by rw [arrangement.apply_int, readInt]

def readBool : Written → Option Bool
  | .bool value => some value
  | _ => none

def bool : Codec Bool where
  write := .bool
  read := readBool
  read_write arrangement value := by rw [arrangement.apply_bool, readBool]

def readNat (value : Written) : Option Nat :=
  (readInt value).bind fun number =>
    if 0 ≤ number then some number.toNat else none

def nat : Codec Nat where
  write number := .int number
  read := readNat
  read_write arrangement number := by
    rw [arrangement.apply_int, readNat, readInt, Option.bind_some,
      if_pos (Int.natCast_nonneg number), Int.toNat_natCast]

/-- The items of an array, each of which can be read. -/
def readList (codec : Codec α) : Written → Option (List α)
  | .arr items => items.mapM codec.read
  | _ => none

theorem readList_write (codec : Codec α) (arrangement : Arrangement)
    (items : List α) :
    readList codec (arrangement.apply (.arr (items.map codec.write))) =
      some items := by
  rw [arrangement.apply_arr, readList, List.map_map]
  induction items with
  | nil => rfl
  | cons first rest inductionHypothesis =>
    rw [List.map_cons, List.mapM_cons, Function.comp_apply,
      codec.read_write, inductionHypothesis]
    rfl

def list (codec : Codec α) : Codec (List α) where
  write items := .arr (items.map codec.write)
  read := readList codec
  read_write := readList_write codec

/-- The value of a list which has a text. -/
def readName (name : α → String) (all : List α) (value : Written) :
    Option α :=
  (readText value).bind fun text =>
    all.find? fun item => decide (name item = text)

theorem readName_write {name : α → String} {all : List α}
    (distinct : (all.map name).Nodup) (every : ∀ item, item ∈ all)
    (arrangement : Arrangement) (item : α) :
    readName name all (arrangement.apply (str (name item))) = some item := by
  rw [arrangement.apply_str, readName, readText, Option.bind_some]
  cases found : all.find? fun other => decide (name other = name item) with
  | none =>
    exact absurd (decide_eq_true rfl)
      (List.find?_eq_none.mp found item (every item))
  | some other =>
    have same := List.find?_some found
    rw [decide_eq_true_eq] at same
    rw [List.inj_on_of_nodup_map distinct (every other) (every item) same]

/-- The codec of an enumeration. -/
def named (name : α → String) (all : List α)
    (distinct : (all.map name).Nodup) (every : ∀ item, item ∈ all) :
    Codec α where
  write item := str (name item)
  read := readName name all
  read_write := readName_write distinct every

end Codec

/-! ## Records -/

/-- An object of named values, without those which are undefined. -/
def record (fields : List (String × Option Written)) : Written :=
  obj (fields.filterMap fun entry =>
    entry.2.map fun value => (entry.1, value))

/-- The value of a field which has to be there. -/
def required {α : Type u} (codec : Codec α) (value : Written)
    (name : String) : Option α :=
  (value.field name).bind codec.read

/-- The value of a field which may be missing. -/
def optional {α : Type u} (codec : Codec α) (value : Written)
    (name : String) : Option (Option α) :=
  match value.field name with
  | none => some none
  | some found => (codec.read found).map some

variable {fields : List (String × Option Written)}

variable {name : String}

theorem mem_record {value : Written} :
    (name, value) ∈ (fields.filterMap fun entry =>
        entry.2.map fun value => (entry.1, value)) ↔
      (name, some value) ∈ fields := by
  rw [List.mem_filterMap]
  constructor
  · rintro ⟨⟨other, found⟩, member, same⟩
    rw [Option.map_eq_some_iff] at same
    rcases same with ⟨defined, rfl, same⟩
    cases same
    exact member
  · exact fun member => ⟨_, member, rfl⟩

theorem nodup_record (distinct : (fields.map Prod.fst).Nodup) :
    ((fields.filterMap fun entry =>
      entry.2.map fun value => (entry.1, value)).map Prod.fst).Nodup := by
  refine List.Nodup.sublist ?_ distinct
  clear distinct
  induction fields with
  | nil => exact List.Sublist.refl []
  | cons first rest inductionHypothesis =>
    rcases first with ⟨name, value⟩
    cases value with
    | none => exact inductionHypothesis.cons name
    | some defined => exact inductionHypothesis.cons_cons name

theorem field_record (arrangement : Arrangement)
    (distinct : (fields.map Prod.fst).Nodup) {value : Option Written}
    (member : (name, value) ∈ fields) :
    (arrangement.apply (record fields)).field name =
      value.map arrangement.apply := by
  rw [record, arrangement.field_apply _ (nodup_record distinct)]
  apply congrArg
  cases value with
  | some defined =>
    rw [field_eq_some (nodup_record distinct), mem_record]
    exact member
  | none =>
    rw [field_obj_eq_none]
    intro inside
    rcases List.mem_map.mp inside with ⟨⟨other, found⟩, listed, rfl⟩
    rw [mem_record] at listed
    have same := List.inj_on_of_nodup_map distinct listed member rfl
    cases same

theorem required_record {α : Type u} (codec : Codec α)
    (arrangement : Arrangement) (distinct : (fields.map Prod.fst).Nodup)
    (value : α) (member : (name, some (codec.write value)) ∈ fields) :
    required codec (arrangement.apply (record fields)) name = some value := by
  rw [required, field_record arrangement distinct member, Option.map_some,
    Option.bind_some, codec.read_write]

theorem optional_record {α : Type u} (codec : Codec α)
    (arrangement : Arrangement) (distinct : (fields.map Prod.fst).Nodup)
    (value : Option α) (member : (name, value.map codec.write) ∈ fields) :
    optional codec (arrangement.apply (record fields)) name = some value := by
  rw [optional, field_record arrangement distinct member]
  cases value with
  | none => rfl
  | some defined =>
    rw [Option.map_some, Option.map_some]
    dsimp only
    rw [codec.read_write, Option.map_some]

end Mendpoint.Library.Written

/-!
## Directories of JSON files

A map whose values are written to a directory, each as the JSON of a file which
is named after its key.  What is written over an earlier map lies over it, and
reading the directory returns both.
-/

namespace Mendpoint.Library.JsonDirectory

/-- The file of a key. -/
def fileName (key : String) : String :=
  key ++ ".json"

/-- The key of a file, if it is a JSON file. -/
def keyOf? (name : String) : Option String :=
  if ".json".toList.isSuffixOf name.toList then
    some (String.ofList (name.toList.take (name.toList.length - 5)))
  else none

theorem fileName_injective : Function.Injective fileName := by
  intro key other same
  exact String.append_left_inj _ |>.mp same

theorem keyOf?_fileName (key : String) : keyOf? (fileName key) = some key := by
  have chars : (fileName key).toList = key.toList ++ ".json".toList :=
    String.toList_append
  have length : (key.toList ++ ".json".toList).length - 5 =
      key.toList.length := by
    rw [List.length_append]
    exact Nat.add_sub_cancel _ 5
  rw [keyOf?, chars, if_pos, length, List.take_left, String.ofList_toList]
  rw [List.isSuffixOf_iff_suffix]
  exact List.suffix_append _ _

section Files

variable {α : Type} (write : α → Written)

/-- A file for each value of a map. -/
def filesOf (map : OrderedMap String α) : List (String × String) :=
  map.entries.map fun entry => (fileName entry.1, (write entry.2).stringify)

/-- Write a file for each value of a map. -/
def writeFiles (files : OrderedMap String String)
    (map : OrderedMap String α) : OrderedMap String String :=
  files.setAll (filesOf write map)

theorem map_fst_filesOf (map : OrderedMap String α) :
    (filesOf write map).map Prod.fst = map.keys.map fileName := by
  rw [filesOf, OrderedMap.keys, List.map_map, List.map_map]
  rfl

/-- The directory which holds the files of a map, and no others. -/
def directoryOf (map : OrderedMap String α) : OrderedMap String String where
  entries := filesOf write map
  nodupKeys := by
    rw [map_fst_filesOf]
    exact map.nodup_keys.map fileName_injective

theorem setEntry_filesOf (key : String) (value : α)
    (entries : List (String × α)) :
    OrderedMap.setEntry (fileName key) (write value).stringify
        (entries.map fun entry =>
          (fileName entry.1, (write entry.2).stringify)) =
      (OrderedMap.setEntry key value entries).map fun entry =>
        (fileName entry.1, (write entry.2).stringify) := by
  induction entries with
  | nil => rfl
  | cons first rest inductionHypothesis =>
    rw [List.map_cons, OrderedMap.setEntry, OrderedMap.setEntry,
      inductionHypothesis]
    by_cases same : first.1 = key
    · rw [if_pos same, if_pos (congrArg fileName same), List.map_cons]
    · rw [if_neg same, if_neg fun names => same (fileName_injective names),
        List.map_cons]

theorem writeFiles_directoryOf (under map : OrderedMap String α) :
    writeFiles write (directoryOf write under) map =
      directoryOf write (under.setAll map.entries) := by
  rw [writeFiles, filesOf]
  generalize map.entries = entries
  induction entries generalizing under with
  | nil => rfl
  | cons first rest inductionHypothesis =>
    have one : (directoryOf write under).set (fileName first.1)
        (write first.2).stringify =
          directoryOf write (under.set first.1 first.2) :=
      OrderedMap.eq_of_entries
        (setEntry_filesOf write first.1 first.2 under.entries)
    rw [List.map_cons, OrderedMap.setAll, List.foldl_cons, one]
    exact inductionHypothesis _

/-- Read the files of a directory, each under a key of its own. -/
def readFiles (read : Written → Option α) (keyed : String → α → String) :
    List (String × String) → OrderedMap String α →
      Option (OrderedMap String α)
  | [], map => some map
  | (name, text) :: rest, map =>
    match keyOf? name with
    | none => readFiles read keyed rest map
    | some key => do
        let parsed ← Written.parse? text
        let value ← read parsed
        readFiles read keyed rest (map.set (keyed key value) value)

variable {write}

theorem readFiles_directoryOf {read : Written → Option α}
    {keyed : String → α → String}
    (reads : ∀ value, read (write value) = some value)
    (map : OrderedMap String α)
    (keys : ∀ entry ∈ map.entries, keyed entry.1 entry.2 = entry.1) :
    readFiles read keyed (directoryOf write map).entries OrderedMap.empty =
      some map := by
  have all : ∀ (entries : List (String × α)) (under : OrderedMap String α),
      (∀ entry ∈ entries, keyed entry.1 entry.2 = entry.1) →
      readFiles read keyed (entries.map fun entry =>
        (fileName entry.1, (write entry.2).stringify)) under =
          some (under.setAll entries) := by
    intro entries
    induction entries with
    | nil => exact fun under _ => rfl
    | cons first rest inductionHypothesis =>
      intro under keys
      rw [List.forall_mem_cons] at keys
      rw [List.map_cons, readFiles, keyOf?_fileName]
      dsimp only
      rw [Written.parse?_stringify, Option.bind_eq_bind,
        Option.bind_some, Option.bind_eq_bind, reads, Option.bind_some,
        keys.1, inductionHypothesis _ keys.2]
      rfl
  have whole := all map.entries OrderedMap.empty keys
  rw [← OrderedMap.ofList, OrderedMap.ofList_entries] at whole
  exact whole

end Files

end Mendpoint.Library.JsonDirectory
