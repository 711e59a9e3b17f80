import Mendpoint.Library.Collation
import Mendpoint.Migration.Encoding

/-!
# When outputs are found equal

A value without invalid dates is written as its arrangement by the order of the
host.  Two values have the same arrangement exactly when they are the same up to
the order of keys and the keys which compare equal stand in the same order in
both.
-/

namespace Mendpoint.Migration

open Mendpoint.Library
open Mendpoint.Library.KeyedSort

/-! ## Valid dates -/

def OutputScalar.datesValid : OutputScalar → Bool
  | .date none => false
  | _ => true

mutual

/-- Every date of the value is valid. -/
def datesValid : OutputValue → Bool
  | .scalar value => value.datesValid
  | .array items => datesValidItems items
  | .object entries => datesValidEntries entries

def datesValidItems : List OutputValue → Bool
  | [] => true
  | first :: rest => datesValid first && datesValidItems rest

def datesValidEntries : List (String × OutputValue) → Bool
  | [] => true
  | (_, first) :: rest => datesValid first && datesValidEntries rest

end

/-- A result, or the error of an invalid date. -/
def whenValid {α : Type} (valid : Bool) (result : α) : Except String α :=
  if valid then .ok result else .error "Invalid time value"

theorem whenValid_bind {α β : Type} (valid : Bool) (result : α)
    (next : α → Except String β) :
    (whenValid valid result >>= next) =
      if valid then next result else .error "Invalid time value" := by
  cases valid <;> rfl

theorem whenValid_and {α : Type} (one two : Bool) (result : α) :
    (if one then whenValid two result
      else .error "Invalid time value") = whenValid (one && two) result := by
  cases one <;> rfl

/-! ## Texts of arrangements -/

section Written

variable {host : Host}

/-- The text of a value as it stands. -/
def text (host : Host) (value : OutputValue) : String :=
  String.ofList (chars host value)

theorem toList_text (value : OutputValue) :
    (text host value).toList = chars host value :=
  String.toList_ofList

theorem toList_jsonText (value : String) :
    (Text.jsonText value).toList = '"' :: Text.quoted value.toList := by
  rw [Text.jsonText, String.toList_ofList]
  rfl

theorem arrangedItems_eq (collation : Collation) (items : List OutputValue) :
    arrangedItems collation items = items.map (arranged collation) := by
  induction items with
  | nil => rw [arrangedItems, List.map_nil]
  | cons first rest inductionHypothesis =>
    rw [arrangedItems, inductionHypothesis, List.map_cons]

theorem arrangedEntries_eq (collation : Collation)
    (entries : List (String × OutputValue)) :
    arrangedEntries collation entries =
      mapped (arranged collation) entries := by
  induction entries with
  | nil => rw [arrangedEntries, mapped, List.map_nil]
  | cons first rest inductionHypothesis =>
    obtain ⟨key, value⟩ := first
    rw [arrangedEntries, inductionHypothesis]
    rfl

theorem toList_moreItems (items : List OutputValue) (first : String) :
    (Text.join "," (first :: items.map (text host))).toList ++ [']'] =
      first.toList ++ moreItems host items := by
  induction items generalizing first with
  | nil => rw [List.map_nil, Text.join, moreItems]
  | cons next rest inductionHypothesis =>
    rw [List.map_cons, Text.join, moreItems, String.toList_append,
      String.toList_append, List.append_assoc, List.append_assoc,
      inductionHypothesis, toList_text]
    rfl

theorem toList_items (items : List OutputValue) :
    (Text.join "," (items.map (text host))).toList ++ [']'] =
      itemsChars host items := by
  cases items with
  | nil => rw [List.map_nil, Text.join, itemsChars]; rfl
  | cons first rest =>
    rw [List.map_cons, toList_moreItems, itemsChars, toList_text]

theorem toList_entryText (key : String) (value : OutputValue) :
    (entryText (key, text host value)).toList =
      '"' :: (Text.quoted key.toList ++ ':' :: chars host value) := by
  rw [entryText, String.toList_append, String.toList_append, toList_jsonText,
    toList_text, List.cons_append, List.cons_append, List.append_assoc]
  rfl

theorem toList_moreEntries (entries : List (String × OutputValue))
    (first : String) :
    (Text.join "," (first ::
        (mapped (text host) entries).map entryText)).toList ++ ['\x7d'] =
      first.toList ++ moreEntries host entries := by
  induction entries generalizing first with
  | nil => rw [mapped, List.map_nil, List.map_nil, Text.join, moreEntries]
  | cons next rest inductionHypothesis =>
    obtain ⟨key, value⟩ := next
    rw [mapped, List.map_cons, List.map_cons, ← mapped, Text.join,
      moreEntries, String.toList_append, String.toList_append,
      List.append_assoc, List.append_assoc, inductionHypothesis,
      toList_entryText, List.cons_append, List.append_assoc,
      List.cons_append]
    rfl

theorem toList_entries (entries : List (String × OutputValue)) :
    (Text.join "," ((mapped (text host) entries).map
        entryText)).toList ++ ['\x7d'] = entriesChars host entries := by
  cases entries with
  | nil =>
    rw [mapped, List.map_nil, List.map_nil, Text.join, entriesChars]
    rfl
  | cons first rest =>
    obtain ⟨key, value⟩ := first
    rw [mapped, List.map_cons, List.map_cons, ← mapped, toList_moreEntries,
      toList_entryText, entriesChars, List.cons_append, List.append_assoc,
      List.cons_append]

theorem scalarText_eq (value : OutputScalar) :
    scalarText host value =
      whenValid value.datesValid (text host (.scalar value)) := by
  have same : ∀ {written : String}, written.toList =
      value.kind.tag ++ scalarBody host value →
        written = text host (.scalar value) := by
    intro written equal
    apply String.toList_inj.mp
    rw [toList_text, chars, equal]
  cases value with
  | null => exact congrArg _ (same rfl)
  | undefined => exact congrArg _ (same rfl)
  | number value =>
    refine congrArg _ (same ?_)
    cases value with
    | special value => exact String.toList_append
    | finite value =>
      rw [numberText, String.toList_append,
        @String.toList_ofList (host.numerals.text value)]
      rfl
  | string value =>
    refine congrArg _ (same ?_)
    rw [String.toList_append, toList_jsonText]
    rfl
  | boolean value =>
    refine congrArg _ (same ?_)
    cases value <;> rfl
  | bigint value =>
    refine congrArg _ (same ?_)
    rw [String.toList_append, @String.toList_ofList (Written.intChars value)]
    rfl
  | date value =>
    cases value with
    | none => rfl
    | some instant =>
      refine congrArg Except.ok (same ?_)
      rw [String.toList_append, IsoTime.Instant.text,
        @String.toList_ofList (IsoTime.isoChars instant.ms)]
      rfl

mutual

theorem canonicalValue_eq (value : OutputValue) :
    canonicalValue host value =
      whenValid (datesValid value)
        (text host (arranged host.collation value)) := by
  match value with
  | .scalar value =>
    rw [canonicalValue, scalarText_eq, datesValid, arranged]
  | .array items =>
    rw [canonicalValue, canonicalItems_eq items, whenValid_bind, datesValid,
      arranged, text]
    refine congrArg (fun result => if datesValidItems items then result
      else Except.error "Invalid time value") (congrArg Except.ok ?_)
    apply String.toList_inj.mp
    rw [String.toList_ofList, chars, ← toList_items, arrangedItems_eq,
      List.map_map, String.toList_append, String.toList_append,
      List.append_assoc]
    rfl
  | .object entries =>
    rw [canonicalValue, canonicalEntries_eq entries, whenValid_bind,
      datesValid, arranged, text]
    refine congrArg (fun result => if datesValidEntries entries then result
      else Except.error "Invalid time value") (congrArg Except.ok ?_)
    apply String.toList_inj.mp
    rw [String.toList_ofList, chars, ← toList_entries,
      ← sortBy_mapped, arrangedEntries_eq, String.toList_append,
      String.toList_append, List.append_assoc]
    rw [mapped, mapped, mapped, List.map_map]
    rfl

theorem canonicalItems_eq (items : List OutputValue) :
    canonicalItems host items =
      whenValid (datesValidItems items)
        (items.map fun item => text host (arranged host.collation item)) := by
  match items with
  | [] => rfl
  | first :: rest =>
    rw [canonicalItems, canonicalValue_eq first, canonicalItems_eq rest,
      whenValid_bind, whenValid_bind, datesValidItems]
    exact whenValid_and _ _ _

theorem canonicalEntries_eq (entries : List (String × OutputValue)) :
    canonicalEntries host entries =
      whenValid (datesValidEntries entries)
        (mapped (fun value => text host (arranged host.collation value))
          entries) := by
  match entries with
  | [] => rfl
  | (key, first) :: rest =>
    rw [canonicalEntries, canonicalValue_eq first, canonicalEntries_eq rest,
      whenValid_bind, whenValid_bind, datesValidEntries]
    exact whenValid_and _ _ _

end

theorem text_injective : Function.Injective (text host) :=
  fun _ _ same => chars_injective (String.ofList_injective same)

theorem compareTexts_whenValid (one two : Bool) (left right : String) :
    ((compareTexts (whenValid one left) (whenValid two
        right)).toOption.getD false) = (one && two && left == right) := by
  cases one with
  | false => rfl
  | true => cases two <;> rfl

/-- Outputs are found equal when their dates are valid and their arrangements
are the same. -/
theorem equal_iff_arranged (left right : OutputValue) (traceId : String) :
    (diffOutputs host left right traceId).equal = true ↔
      (datesValid left = true ∧ datesValid right = true) ∧
        arranged host.collation left = arranged host.collation right := by
  rw [diffOutputs, canonicalValue_eq, canonicalValue_eq]
  dsimp only
  rw [compareTexts_whenValid, Bool.and_eq_true, Bool.and_eq_true, beq_iff_eq,
    text_injective.eq_iff]

end Written

/-! ## Arrangements by two orders -/

mutual

/--
Wherever the values have objects in one place, the keys which compare equal
stand in one order.
-/
def Aligned (collation : Collation) : OutputValue → OutputValue → Prop
  | .array items, .array others => AlignedItems collation items others
  | .object entries, .object others =>
    TiesAgree collation (entries.map Prod.fst) (others.map Prod.fst) ∧
      AlignedEntries collation entries others
  | _, _ => True

def AlignedItems (collation : Collation) :
    List OutputValue → List OutputValue → Prop
  | first :: rest, other :: others =>
    Aligned collation first other ∧ AlignedItems collation rest others
  | _, _ => True

def AlignedEntries (collation : Collation) :
    List (String × OutputValue) → List (String × OutputValue) → Prop
  | [], _ => True
  | (key, first) :: rest, others =>
    (∀ other, (key, other) ∈ others → Aligned collation first other) ∧
      AlignedEntries collation rest others

end

section Alignment

variable {collation : Collation}

variable {entries : List (String × OutputValue)}

theorem alignedEntries_iff {others : List (String × OutputValue)} :
    AlignedEntries collation entries others ↔
      ∀ key one two, (key, one) ∈ entries → (key, two) ∈ others →
        Aligned collation one two := by
  induction entries with
  | nil =>
    rw [AlignedEntries]
    exact iff_of_true ⟨⟩ fun _ _ _ never _ => absurd never List.not_mem_nil
  | cons first rest inductionHypothesis =>
    obtain ⟨name, value⟩ := first
    rw [AlignedEntries, inductionHypothesis]
    constructor
    · rintro ⟨here, there⟩ key one two inEntries inOthers
      rcases List.mem_cons.mp inEntries with same | later
      · cases same
        exact here two inOthers
      · exact there key one two later inOthers
    · intro all
      exact ⟨fun other => all name value other List.mem_cons_self,
        fun key one two later =>
          all key one two (List.mem_cons_of_mem _ later)⟩

theorem distinctEntries_iff :
    DistinctEntries entries ↔
      ∀ key value, (key, value) ∈ entries → Distinct value := by
  induction entries with
  | nil =>
    rw [DistinctEntries]
    exact iff_of_true ⟨⟩ fun _ _ never => absurd never List.not_mem_nil
  | cons first rest inductionHypothesis =>
    obtain ⟨name, value⟩ := first
    rw [DistinctEntries, inductionHypothesis]
    constructor
    · rintro ⟨here, there⟩ key other member
      rcases List.mem_cons.mp member with same | later
      · cases same
        exact here
      · exact there key other later
    · exact fun all => ⟨all name value List.mem_cons_self,
        fun key other later => all key other (List.mem_cons_of_mem _ later)⟩

theorem datesValidEntries_iff :
    datesValidEntries entries = true ↔
      ∀ key value, (key, value) ∈ entries → datesValid value = true := by
  induction entries with
  | nil =>
    exact iff_of_true rfl fun _ _ never => absurd never List.not_mem_nil
  | cons first rest inductionHypothesis =>
    obtain ⟨name, value⟩ := first
    rw [datesValidEntries, Bool.and_eq_true, inductionHypothesis]
    constructor
    · rintro ⟨here, there⟩ key other member
      rcases List.mem_cons.mp member with same | later
      · cases same
        exact here
      · exact there key other later
    · exact fun all => ⟨all name value List.mem_cons_self,
        fun key other later => all key other (List.mem_cons_of_mem _ later)⟩

theorem arranged_object_iff {entries others : List (String × OutputValue)}
    (distinct : (entries.map Prod.fst).Nodup)
    (distinctOthers : (others.map Prod.fst).Nodup) :
    arranged collation (.object entries) =
        arranged collation (.object others) ↔
      ((entries.map Prod.fst).Perm (others.map Prod.fst) ∧
        ∀ key one two, (key, one) ∈ entries → (key, two) ∈ others →
          arranged collation one = arranged collation two) ∧
        TiesAgree collation (entries.map Prod.fst)
          (others.map Prod.fst) := by
  rw [arranged, arranged, OutputValue.object.injEq, arrangedEntries_eq,
    arrangedEntries_eq, sortBy_eq_iff, map_fst_mapped, map_fst_mapped,
    perm_mapped_iff distinct distinctOthers]
  · rwa [map_fst_mapped]
  · rwa [map_fst_mapped]

mutual

theorem arranged_eq_iff {left right : OutputValue}
    (distinct : Distinct left) (distinctRight : Distinct right) :
    arranged collation left = arranged collation right ↔
      Same left right ∧ Aligned collation left right := by
  match left, right with
  | .scalar one, .scalar two =>
    rw [Same, arranged, arranged, arranged, arranged, Aligned, and_true]
    · exact fun _ _ impossible => by cases impossible
    · exact fun _ _ impossible => by cases impossible
  | .array items, .array others =>
    rw [Distinct] at distinct distinctRight
    rw [Same, arranged, arranged, arranged, arranged, Aligned,
      OutputValue.array.injEq, OutputValue.array.injEq]
    exact arrangedItems_eq_iff distinct distinctRight
  | .object entries, .object others =>
    rw [Distinct] at distinct distinctRight
    rw [Same, arranged_object_iff distinct.1 distinctRight.1,
      arranged_object_iff distinct.1 distinctRight.1, Aligned,
      and_iff_left (tiesAgree_ordinal distinct.1 distinctRight.1),
      alignedEntries_iff]
    have values := arrangedEntries_eq_iff distinct.2
      (distinctEntries_iff.mp distinctRight.2)
    constructor
    · rintro ⟨⟨keys, same⟩, ties⟩
      refine ⟨⟨keys, fun key one two inEntries inOthers => ?_⟩, ties,
        fun key one two inEntries inOthers => ?_⟩
      · exact ((values key one two inEntries inOthers).mp
          (same key one two inEntries inOthers)).1
      · exact ((values key one two inEntries inOthers).mp
          (same key one two inEntries inOthers)).2
    · rintro ⟨⟨keys, same⟩, ties, aligned⟩
      refine ⟨⟨keys, fun key one two inEntries inOthers => ?_⟩, ties⟩
      exact (values key one two inEntries inOthers).mpr
        ⟨same key one two inEntries inOthers,
          aligned key one two inEntries inOthers⟩
  | .scalar _, .array _ | .scalar _, .object _ | .array _, .scalar _
  | .array _, .object _ | .object _, .scalar _ | .object _, .array _ =>
    rw [Same, arranged, arranged, arranged, arranged]
    exact iff_of_false (fun same => by cases same)
      fun both => by cases both.1

theorem arrangedItems_eq_iff {items others : List OutputValue}
    (distinct : DistinctItems items) (distinctOthers : DistinctItems others) :
    arrangedItems collation items = arrangedItems collation others ↔
      arrangedItems Collation.ordinal items =
          arrangedItems Collation.ordinal others ∧
        AlignedItems collation items others := by
  match items, others with
  | [], [] =>
    rw [arrangedItems, arrangedItems, AlignedItems]
    · exact iff_of_true rfl ⟨rfl, ⟨⟩⟩
    · exact fun _ _ _ _ impossible => by cases impossible
  | [], _ :: _ | _ :: _, [] =>
    rw [arrangedItems, arrangedItems, arrangedItems, arrangedItems]
    exact iff_of_false (fun same => by cases same)
      fun both => by cases both.1
  | first :: rest, other :: more =>
    rw [DistinctItems] at distinct distinctOthers
    rw [arrangedItems, arrangedItems, arrangedItems, arrangedItems,
      AlignedItems, List.cons.injEq, List.cons.injEq,
      arranged_eq_iff distinct.1 distinctOthers.1,
      arrangedItems_eq_iff distinct.2 distinctOthers.2, Same]
    exact and_and_and_comm

theorem arrangedEntries_eq_iff {entries others : List (String × OutputValue)}
    (distinct : DistinctEntries entries)
    (distinctOthers : ∀ key value, (key, value) ∈ others → Distinct value) :
    ∀ key one two, (key, one) ∈ entries → (key, two) ∈ others →
      (arranged collation one = arranged collation two ↔
        Same one two ∧ Aligned collation one two) := by
  match entries with
  | [] => exact fun _ _ _ never _ => absurd never List.not_mem_nil
  | (name, value) :: rest =>
    rw [DistinctEntries] at distinct
    intro key one two inEntries inOthers
    rcases List.mem_cons.mp inEntries with same | later
    · rw [(Prod.mk.inj same).2]
      exact arranged_eq_iff distinct.1 (distinctOthers key two inOthers)
    · exact arrangedEntries_eq_iff distinct.2 distinctOthers key one two
        later inOthers

end

mutual

theorem datesValid_arranged (value : OutputValue) :
    datesValid (arranged collation value) = datesValid value := by
  match value with
  | .scalar value => rw [arranged]
  | .array items =>
    rw [arranged, datesValid, datesValid, datesValid_arrangedItems items]
  | .object entries =>
    rw [arranged, datesValid, datesValid, Bool.eq_iff_iff,
      datesValidEntries_iff, datesValidEntries_iff]
    have kept := datesValid_arrangedEntries entries
    have sorted := collation.perm_sortBy Prod.fst
      (arrangedEntries collation entries)
    rw [arrangedEntries_eq] at sorted ⊢
    constructor
    · intro all key old member
      rw [← kept key old member]
      exact all key _ (sorted.mem_iff.mpr
        (mem_mapped.mpr ⟨old, member, rfl⟩))
    · intro all key value member
      obtain ⟨old, inside, rfl⟩ :=
        mem_mapped.mp (sorted.mem_iff.mp member)
      rw [kept key old inside]
      exact all key old inside

theorem datesValid_arrangedItems (items : List OutputValue) :
    datesValidItems (arrangedItems collation items) =
      datesValidItems items := by
  match items with
  | [] => rw [arrangedItems]
  | first :: rest =>
    rw [arrangedItems, datesValidItems, datesValidItems,
      datesValid_arranged first, datesValid_arrangedItems rest]

theorem datesValid_arrangedEntries
    (entries : List (String × OutputValue)) :
    ∀ key value, (key, value) ∈ entries →
      datesValid (arranged collation value) = datesValid value := by
  match entries with
  | [] => exact fun _ _ never => absurd never List.not_mem_nil
  | (name, first) :: rest =>
    intro key value member
    rcases List.mem_cons.mp member with same | later
    · rw [(Prod.mk.inj same).2]
      exact datesValid_arranged first
    · exact datesValid_arrangedEntries rest key value later

end

theorem Same.datesValid {left right : OutputValue} (same : Same left right) :
    datesValid left = datesValid right := by
  rw [← @datesValid_arranged Collation.ordinal left,
    ← @datesValid_arranged Collation.ordinal right, same]

end Alignment

/-! ## The comparison -/

section Outputs

variable (host : Host) (left right : Output) (traceId : String)

theorem equal_iff :
    (diffOutputs host left.value right.value traceId).equal = true ↔
      Same left.value right.value ∧ datesValid left.value = true ∧
        Aligned host.collation left.value right.value := by
  rw [equal_iff_arranged, arranged_eq_iff left.distinct right.distinct]
  constructor
  · rintro ⟨⟨valid, _⟩, same, aligned⟩
    exact ⟨same, valid, aligned⟩
  · rintro ⟨same, valid, aligned⟩
    exact ⟨⟨valid, same.datesValid ▸ valid⟩, same, aligned⟩

/--
Outputs are found equal exactly when they are the same, unless the same outputs
hold an invalid date or their tied keys stand in different orders.
-/
theorem equal_iff_same :
    ((diffOutputs host left.value right.value traceId).equal = true ↔
        Same left.value right.value) ↔
      (Same left.value right.value →
        datesValid left.value = true ∧
          Aligned host.collation left.value right.value) := by
  rw [equal_iff]
  constructor
  · intro exact' same
    exact (exact'.mpr same).2
  · intro promised
    exact ⟨fun all => all.1, fun same => ⟨same, promised same⟩⟩

end Outputs

theorem fractions_unsigned (number : ℚ) :
    Numerals.fractions.text number ≠ ['-', '0'] := by
  intro same
  have whole : Numerals.fractionChars number = ['-', '0'] := same
  rw [Numerals.fractionChars] at whole
  split at whole
  · rw [List.append_nil, Written.intChars] at whole
    split at whole
    · have digit := Written.numeral_toString number.num.toNat '-'
        (whole ▸ List.mem_cons_self)
      cases digit
    · have zero : (toString (-number.num).toNat).toList =
          (toString 0).toList := (List.cons.inj whole).2
      have none := Delimited.toString_inj (String.toList_inj.mp zero)
      omega
  · have mark : 'e' ∈ ['-', '0'] :=
      whole ▸ List.mem_append_right _ List.mem_cons_self
    exact absurd mark (by decide)

/-- A host which does not tell composed letters from decomposed ones. -/
def composingHost : Host where
  collation := Collation.composing
  numerals := Numerals.fractions
  unsigned := fractions_unsigned

/-- An object with two keys which compare equal. -/
def tiedObject (first second : String) (different : first ≠ second) :
    Output where
  value := .object [(first, .scalar .null), (second, .scalar .null)]
  distinct := by
    rw [Distinct, DistinctEntries, DistinctEntries, DistinctEntries, Distinct]
    refine ⟨List.nodup_cons.mpr ⟨?_, List.nodup_singleton _⟩, ⟨⟩, ⟨⟩, ⟨⟩⟩
    exact fun member => different (List.mem_singleton.mp member)

/-- Keys in another order are found to be a difference. -/
theorem not_equal_iff_same :
    ¬ ∀ (host : Host) (left right : Output) (traceId : String),
      (diffOutputs host left.value right.value traceId).equal = true ↔
        Same left.value right.value := by
  intro claimed
  have apart : "é" ≠ "e\u0301" := by decide
  let one := tiedObject "é" "e\u0301" apart
  let two := tiedObject "e\u0301" "é" apart.symm
  have same : Same one.value two.value := by
    have onceOne : (["é", "e\u0301"] : List String).Nodup := by decide
    have onceTwo : (["e\u0301", "é"] : List String).Nodup := by decide
    apply (@arranged_object_iff Collation.ordinal
      [("é", .scalar .null), ("e\u0301", .scalar .null)]
      [("e\u0301", .scalar .null), ("é", .scalar .null)] onceOne
      onceTwo).mpr
    refine ⟨⟨List.Perm.swap _ _ _, fun key first second inOne inTwo => ?_⟩,
      tiesAgree_ordinal onceOne onceTwo⟩
    have null : ∀ {entries : List (String × OutputValue)} {value},
        (∀ entry ∈ entries, entry.2 = .scalar .null) →
          (key, value) ∈ entries → value = .scalar .null :=
      fun all member => all _ member
    rw [null (by simp) inOne, null (by simp) inTwo]
  have equal := (claimed composingHost one two "trace").mpr same
  have aligned := ((equal_iff _ _ _ _).mp equal).2.2
  have agree : TiesAgree Collation.composing ["é", "e\u0301"]
      ["e\u0301", "é"] := aligned.1
  have before := (agree "é" (by decide) "e\u0301" (by decide) (by decide)
    (by decide)).mp (List.Sublist.refl _)
  exact absurd (List.Sublist.eq_of_length before rfl) (by decide)

end Mendpoint.Migration
