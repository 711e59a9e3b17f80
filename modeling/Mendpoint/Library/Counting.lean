import Mathlib.Data.List.Nodup
import Mathlib.Data.List.Perm.Subperm
import Mathlib.Algebra.BigOperators.Group.Finset.Piecewise
import Mathlib.Algebra.Order.BigOperators.Group.Finset
import Mathlib.Algebra.Order.Group.Int
import Mathlib.Tactic.Ring
import Mendpoint.Library.OrderedMap

/-!
# Counting into a map

The weight of a map once a key is set, with what the key had before on the
other side, and of a map into which items are counted one by one.
-/

namespace Mendpoint.Library.OrderedMap

universe u v w

variable {κ : Type u} {β : Type v} {α : Type w} [DecidableEq κ]

theorem weight_set (measure : β → Nat) (map : OrderedMap κ β) (key : κ)
    (value : β) :
    weight measure (map.set key value).entries +
        ((map.get? key).map measure).getD 0 =
      measure value + weight measure map.entries := by
  rw [set, weight_setEntry measure key value map.nodupKeys]
  cases found : map.get? key with
  | none =>
    have others : ∀ entry ∈ map.entries,
        decide (entry.1 ≠ key) = true := by
      intro entry inside
      rw [decide_eq_true_iff]
      intro same
      have missing := (not_mem_keys_iff map key).mpr found
      exact missing (same ▸ List.mem_map_of_mem inside)
    rw [List.filter_eq_self.mpr others]
    rfl
  | some old =>
    have whole := weight_setEntry measure key old map.nodupKeys
    rw [setEntry_of_lookupEntry found] at whole
    rw [whole]
    show _ + measure old = _
    omega

omit [DecidableEq κ] in
theorem weight_foldl (measure : β → Nat)
    (count : OrderedMap κ β → α → OrderedMap κ β)
    (counts : ∀ map item, weight measure (count map item).entries =
      weight measure map.entries + 1)
    (items : List α) (map : OrderedMap κ β) :
    weight measure (items.foldl count map).entries =
      weight measure map.entries + items.length := by
  induction items generalizing map with
  | nil => rfl
  | cons first rest inductionHypothesis =>
    rw [List.foldl_cons, inductionHypothesis, counts, List.length_cons]
    omega

end Mendpoint.Library.OrderedMap

/-!
## Lists without their repetitions

Dropping the later occurrences of the members of a list, as a set which
remembers the order of its members does.
-/

namespace Mendpoint.Library.Distinct

universe u v

variable {α : Type u} [DecidableEq α]

theorem nodup_eraseDups (items : List α) : items.eraseDups.Nodup := by
  induction size : items.length using Nat.strongRecOn
    generalizing items with
  | ind _ inductionHypothesis =>
    cases items with
    | nil => exact List.nodup_nil
    | cons first rest =>
      rw [List.eraseDups_cons, List.nodup_cons, List.mem_eraseDups,
        List.mem_filter]
      constructor
      · intro both
        rw [beq_self_eq_true] at both
        exact Bool.false_ne_true both.2
      · apply inductionHypothesis _ _ _ rfl
        rw [← size, List.length_cons]
        exact Nat.lt_succ_of_le (List.length_filter_le _ _)

theorem eraseDups_of_nodup {items : List α} (nodup : items.Nodup) :
    items.eraseDups = items := by
  induction items with
  | nil => rfl
  | cons first rest inductionHypothesis =>
    obtain ⟨fresh, nodupRest⟩ := List.nodup_cons.mp nodup
    have kept : rest.filter (fun other => !other == first) = rest := by
      rw [List.filter_eq_self]
      intro other member
      rw [Bool.not_eq_true', beq_eq_false_iff_ne]
      exact fun same => fresh (same ▸ member)
    rw [List.eraseDups_cons, kept, inductionHypothesis nodupRest]

theorem eraseDups_append_eraseDups (front rest : List α) :
    (front ++ (front ++ rest).eraseDups).eraseDups =
      (front ++ rest).eraseDups := by
  have again : (front ++ rest).eraseDups.removeAll front =
      (rest.removeAll front).eraseDups := by
    rw [List.eraseDups_append, List.removeAll, List.filter_append]
    have none : front.eraseDups.filter (fun item => !front.elem item) =
        [] := by
      rw [List.filter_eq_nil_iff]
      intro item member
      rw [Bool.not_eq_true, Bool.not_eq_false', List.elem_iff]
      exact List.mem_eraseDups.mp member
    have all : (rest.removeAll front).eraseDups.filter
        (fun item => !front.elem item) = (rest.removeAll front).eraseDups := by
      rw [List.filter_eq_self]
      intro item member
      exact (List.mem_filter.mp (List.mem_eraseDups.mp member)).2
    rw [none, all, List.nil_append]
  rw [List.eraseDups_append, again,
    eraseDups_of_nodup (nodup_eraseDups _), ← List.eraseDups_append]

theorem length_eraseDups_iff {items : List α} :
    items.eraseDups.length = items.length ↔ items.Nodup := by
  constructor
  · intro same
    have within : items.eraseDups.Subperm items :=
      List.subperm_of_subset (nodup_eraseDups items)
        fun _ member => List.mem_eraseDups.mp member
    exact (within.perm_of_length_le (Nat.le_of_eq same.symm)).nodup_iff.mp
      (nodup_eraseDups items)
  · exact fun nodup => congrArg List.length (eraseDups_of_nodup nodup)

theorem eq_of_map_eq {α : Type u} {β : Type v} {image : α → β}
    {items others : List α}
    (apart : ∀ item ∈ items, ∀ other ∈ others,
      image item = image other → item = other)
    (same : items.map image = others.map image) : items = others := by
  induction items generalizing others with
  | nil => exact (List.map_eq_nil_iff.mp same.symm).symm
  | cons item rest inductionHypothesis =>
    cases others with
    | nil => cases same
    | cons other more =>
      rw [List.map_cons, List.map_cons, List.cons.injEq] at same
      rw [apart item List.mem_cons_self other List.mem_cons_self same.1,
        inductionHypothesis (fun one inRest two inMore =>
          apart one (List.mem_cons_of_mem _ inRest) two
            (List.mem_cons_of_mem _ inMore)) same.2]

end Mendpoint.Library.Distinct

/-!
## Sums over parts of a list

The sum of an amount over the items which a condition selects, as a list
grows at its end, and its splitting by a second condition.
-/

namespace Mendpoint.Library.FilteredSum

universe u

variable {α : Type u}

/-- The sum of an amount over the selected items. -/
def sumWhere (amount : α → Int) (selected : α → Bool) (items : List α) :
    Int :=
  ((items.filter selected).map amount).sum

theorem sumWhere_append (amount : α → Int) (selected : α → Bool)
    (first second : List α) :
    sumWhere amount selected (first ++ second) =
      sumWhere amount selected first + sumWhere amount selected second := by
  rw [sumWhere, List.filter_append, List.map_append, List.sum_append]
  rfl

theorem sumWhere_singleton (amount : α → Int) (selected : α → Bool)
    (item : α) :
    sumWhere amount selected [item] =
      if selected item then amount item else 0 := by
  rw [sumWhere]
  split
  · next isSelected =>
      rw [List.filter_cons_of_pos isSelected]
      exact Int.add_zero _
  · next left =>
      rw [List.filter_cons_of_neg left]
      rfl

theorem sumWhere_concat (amount : α → Int) (selected : α → Bool)
    (items : List α) (item : α) :
    sumWhere amount selected (items ++ [item]) =
      sumWhere amount selected items +
        if selected item then amount item else 0 := by
  rw [sumWhere_append, sumWhere_singleton]

variable {items : List α}

theorem sumWhere_congr {amount : α → Int} {selected other : α → Bool}
    (same : ∀ item ∈ items, selected item = other item) :
    sumWhere amount selected items = sumWhere amount other items := by
  rw [sumWhere, sumWhere, List.filter_congr same]

theorem sumWhere_split (amount : α → Int) (selected among : α → Bool)
    (items : List α) :
    sumWhere amount selected items =
      sumWhere amount (fun item => selected item && among item) items +
        sumWhere amount (fun item => selected item && !among item) items := by
  induction items with
  | nil => rfl
  | cons item rest inductionHypothesis =>
    rw [← List.singleton_append, sumWhere_append, sumWhere_append,
      sumWhere_append, inductionHypothesis, sumWhere_singleton,
      sumWhere_singleton, sumWhere_singleton]
    cases selected item with
    | false => simp
    | true =>
      cases among item with
      | false => simp only [Bool.and_self, Bool.not_false, if_true,
          Bool.and_false, Bool.false_eq_true, if_false]; ring
      | true => simp only [Bool.and_self, Bool.not_true, if_true,
          Bool.and_false, Bool.false_eq_true, if_false]; ring

theorem filter_eq_singleton {κ : Type*} [DecidableEq κ] {key : α → κ}
    (distinct : (items.map key).Nodup) {item : α} (member : item ∈ items) :
    (items.filter fun other => decide (key other = key item)) = [item] := by
  induction items with
  | nil => cases member
  | cons first rest inductionHypothesis =>
    rw [List.map_cons, List.nodup_cons] at distinct
    rcases List.mem_cons.mp member with rfl | later
    · rw [List.filter_cons_of_pos, List.filter_eq_nil_iff.mpr]
      swap
      · exact decide_eq_true rfl
      intro other inside same
      rw [decide_eq_true_eq] at same
      apply distinct.1
      rw [← same]
      exact List.mem_map_of_mem inside
    · rw [List.filter_cons_of_neg, inductionHypothesis distinct.2 later]
      rw [decide_eq_true_eq]
      intro same
      apply distinct.1
      rw [same]
      exact List.mem_map_of_mem later

theorem sumWhere_key {κ : Type*} [DecidableEq κ] {key : α → κ}
    {amount : α → Int} (distinct : (items.map key).Nodup) {item : α}
    (member : item ∈ items) :
    sumWhere amount (fun other => decide (key other = key item)) items =
      amount item := by
  rw [sumWhere, filter_eq_singleton distinct member]
  exact List.sum_singleton

/-- A sum as the sums over the items under each of some keys. -/
theorem sum_by_key {κ : Type*} [DecidableEq κ] {key : α → κ}
    {keys : List κ} (distinct : keys.Nodup) (amount : α → Int)
    (listed : ∀ item ∈ items, key item ∈ keys) :
    (items.map amount).sum =
      (keys.map fun under =>
        sumWhere amount (fun item => decide (key item = under))
          items).sum := by
  induction items with
  | nil =>
    rw [List.map_nil, List.sum_nil, List.sum_eq_zero]
    intro part member
    rcases List.mem_map.mp member with ⟨under, _, rfl⟩
    rfl
  | cons item rest inductionHypothesis =>
    rcases List.forall_mem_cons.mp listed with ⟨isKey, others⟩
    have apart (under : κ) :
        sumWhere amount (fun other => decide (key other = under))
            (item :: rest) =
          (if under = key item then amount item else 0) +
            sumWhere amount (fun other => decide (key other = under))
              rest := by
      rw [← List.singleton_append, sumWhere_append, sumWhere_singleton]
      rw [if_congr decide_eq_true_iff rfl rfl, if_congr eq_comm rfl rfl]
    have once : (keys.map fun under =>
        if under = key item then amount item else 0).sum = amount item := by
      rw [List.sum_map_ite_eq, List.count_eq_one_of_mem distinct isKey]
      simp
    simp only [apart]
    rw [List.sum_map_add, once, ← inductionHypothesis others, List.map_cons,
      List.sum_cons]

end Mendpoint.Library.FilteredSum
