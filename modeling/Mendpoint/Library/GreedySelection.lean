import Mendpoint.Library.KeyedSort

/-!
# Greedy selection

Items are taken in their order as long as their group is free, given the groups
already taken; taking more never frees a group.  What is selected from a sorted
list does not depend on the order of the items which tie, exactly when an item
is never taken in the place of a later one which ties with it.
-/

namespace Mendpoint.Library.GreedySelection

open StableSort

universe u v

variable {α : Type u} {ρ : Type v} (group : α → ρ)
  (free : List ρ → ρ → Bool)

/-- The items which are taken after some groups are. -/
def select (taken : List ρ) : List α → List α
  | [] => []
  | item :: rest =>
    if free taken (group item) then
      item :: select (group item :: taken) rest
    else select taken rest

/-- The groups which are taken after some items have been passed. -/
def after (taken : List ρ) (items : List α) : List ρ :=
  ((select group free taken items).map group).reverse ++ taken

/-- No item is taken while a later one which ties with it could be. -/
def Settled (r : α → α → Prop) (taken : List ρ) : List α → Prop
  | [] => True
  | item :: rest =>
    if free taken (group item) then
      (∀ other ∈ rest, r other item → free taken (group other) = false) ∧
        Settled r (group item :: taken) rest
    else Settled r taken rest

variable {group free}

theorem select_sublist (taken : List ρ) (items : List α) :
    (select group free taken items).Sublist items := by
  induction items generalizing taken with
  | nil => exact List.Sublist.refl _
  | cons item rest inductionHypothesis =>
    rw [select]
    split
    · exact (inductionHypothesis _).cons_cons item
    · exact (inductionHypothesis _).cons item

theorem select_append (taken : List ρ) (items others : List α) :
    select group free taken (items ++ others) =
      select group free taken items ++
        select group free (after group free taken items) others := by
  induction items generalizing taken with
  | nil => rfl
  | cons item rest inductionHypothesis =>
    rw [List.cons_append, select, select, after, select]
    split
    · rw [inductionHypothesis, List.cons_append, after, List.map_cons,
        List.reverse_cons, List.append_assoc, List.singleton_append]
    · rw [inductionHypothesis, after]

variable {taken : List ρ} {items : List α}

theorem select_of_not_free
    (none : ∀ item ∈ items, free taken (group item) = false) :
    select group free taken items = [] := by
  induction items with
  | nil => rfl
  | cons item rest inductionHypothesis =>
    rw [select, none item List.mem_cons_self, if_neg Bool.false_ne_true]
    exact inductionHypothesis
      fun other member => none other (List.mem_cons_of_mem _ member)

theorem select_append_of_not_free {others : List α}
    (none : ∀ item ∈ items, free taken (group item) = false) :
    select group free taken (items ++ others) =
      select group free taken others := by
  rw [select_append, after, select_of_not_free none]
  rfl

theorem select_ne_nil {item : α} (member : item ∈ items)
    (isFree : free taken (group item) = true) :
    select group free taken items ≠ [] := by
  induction items with
  | nil => exact absurd member List.not_mem_nil
  | cons first rest inductionHypothesis =>
    rw [select]
    split
    · exact List.cons_ne_nil _ _
    · next passed =>
        rcases List.mem_cons.mp member with rfl | later
        · exact absurd isFree passed
        · exact inductionHypothesis later

theorem nodup_groups
    (once : ∀ taken one, free taken one = true → one ∉ taken)
    {taken : List ρ} (nodup : taken.Nodup) (items : List α) :
    (after group free taken items).Nodup := by
  induction items generalizing taken with
  | nil => exact nodup
  | cons item rest inductionHypothesis =>
    rw [after, select]
    split
    · next isFree =>
        have more := inductionHypothesis
          (List.nodup_cons.mpr ⟨once _ _ isFree, nodup⟩)
        rw [after] at more
        rwa [List.map_cons, List.reverse_cons, List.append_assoc,
          List.singleton_append]
    · exact inductionHypothesis nodup

theorem nodup_select
    (once : ∀ taken one, free taken one = true → one ∉ taken)
    (items : List α) : ((select group free [] items).map group).Nodup := by
  have reversed := @nodup_groups _ _ group free once [] List.nodup_nil items
  rw [after, List.append_nil] at reversed
  exact List.nodup_reverse.mp reversed

theorem length_after_le {limit : Int}
    (bounded : ∀ taken one, free taken one = true →
      (taken.length : Int) < limit)
    {taken : List ρ} (start : (taken.length : Int) ≤ limit)
    (items : List α) :
    ((after group free taken items).length : Int) ≤ limit := by
  induction items generalizing taken with
  | nil => exact start
  | cons item rest inductionHypothesis =>
    rw [after, select]
    split
    · next isFree =>
        have less := bounded _ _ isFree
        have more := @inductionHypothesis (group item :: taken) (by
          rw [List.length_cons]
          omega)
        rw [after] at more
        rwa [List.map_cons, List.reverse_cons, List.append_assoc,
          List.singleton_append]
    · exact inductionHypothesis start

/-! ## Ties -/

section Ties

variable {r : α → α → Prop}
  (shrinks : ∀ taken more one, List.Sublist taken more →
    free more one = true → free taken one = true)

include shrinks

theorem select_eq_of_perm {others : List α} (sorted : items.Pairwise r)
    (sortedOthers : others.Pairwise r) (permuted : items.Perm others)
    (settled : Settled group free r taken items) :
    select group free taken items = select group free taken others := by
  induction items generalizing taken others with
  | nil => rw [permuted.nil_eq]
  | cons item rest inductionHypothesis =>
    obtain ⟨front, back, rfl⟩ :=
      List.append_of_mem (permuted.mem_iff.mp List.mem_cons_self)
    have restPerm : rest.Perm (front ++ back) :=
      (permuted.trans List.perm_middle).cons_inv
    obtain ⟨_, sortedRest⟩ := List.pairwise_cons.mp sorted
    obtain ⟨_, sortedBack, between⟩ := List.pairwise_append.mp sortedOthers
    have sortedMore : (front ++ back).Pairwise r :=
      sortedOthers.sublist ((List.Sublist.refl front).append
        (List.sublist_cons_self item back))
    have ties : ∀ other ∈ front, r other item :=
      fun other member => between other member item List.mem_cons_self
    have inRest : ∀ other ∈ front, other ∈ rest := fun other member =>
      restPerm.mem_iff.mpr (List.mem_append_left _ member)
    rw [Settled] at settled
    rw [select]
    split
    · next isFree =>
        rw [if_pos isFree] at settled
        obtain ⟨alone, settledRest⟩ := settled
        have passed : ∀ other ∈ front, free taken (group other) = false :=
          fun other member =>
            alone other (inRest other member) (ties other member)
        have passedLater : ∀ other ∈ front,
            free (group item :: taken) (group other) = false := by
          intro other member
          rw [Bool.eq_false_iff]
          intro isFreeLater
          have before := shrinks _ _ _ (List.sublist_cons_self _ taken)
            isFreeLater
          rw [passed other member] at before
          exact Bool.false_ne_true before
        rw [select_append_of_not_free passed, select, if_pos isFree,
          inductionHypothesis sortedRest sortedMore restPerm settledRest,
          select_append_of_not_free passedLater]
    · next notFree =>
        rw [if_neg notFree] at settled
        rw [inductionHypothesis sortedRest sortedMore restPerm settled,
          select_append, select_append, select, if_neg]
        intro isFree
        exact notFree (shrinks _ _ _
          (List.sublist_append_right _ taken) isFree)

/--
When an item which ties with a taken one is put in front of it, and could be
taken as well, then it is taken first.
-/
theorem before_of_front {passed rest before behind : List α} {item other : α}
    (refl : ∀ one, r one one)
    (trans : ∀ {one two three}, r one two → r two three → r one three)
    (sorted : items.Pairwise r) (shape : items = passed ++ item :: rest)
    (isFree : free (after group free [] passed) (group item) = true)
    (ties : r other item) (different : other ≠ item)
    (otherFree : free (after group free [] passed) (group other) = true)
    (below : ∀ one ∈ before, ¬ r other one)
    (above : ∀ one ∈ behind, r other one)
    (same : select group free [] (before ++ other :: behind) = select group
      free [] items) : Before (select group free [] items) other item := by
  classical
  let strict : α → Bool := fun one => decide (¬ r other one)
  have selected : select group free [] items =
      select group free [] passed ++ item ::
        select group free (group item :: after group free [] passed) rest := by
    rw [shape, select_append, select, if_pos isFree]
  have tail : ∀ one ∈ item :: rest, r other one := by
    rw [shape] at sorted
    obtain ⟨_, sortedTail, _⟩ := List.pairwise_append.mp sorted
    intro one member
    rcases List.mem_cons.mp member with rfl | later
    · exact ties
    · exact trans ties ((List.pairwise_cons.mp sortedTail).1 one later)
  have lower : select group free [] before =
      (select group free [] passed).filter strict := by
    have whole := congrArg (List.filter strict) same
    rw [selected, select_append, List.filter_append, List.filter_append] at whole
    have kept : (select group free [] before).filter strict =
        select group free [] before := by
      rw [List.filter_eq_self]
      intro one member
      exact decide_eq_true (below one ((select_sublist _ _).subset member))
    have dropped : ∀ {taken : List ρ} {more : List α},
        (∀ one ∈ more, r other one) →
          (select group free taken more).filter strict = [] := by
      intro taken more all
      rw [List.filter_eq_nil_iff]
      intro one member
      rw [decide_eq_true_iff, not_not]
      exact all one ((select_sublist _ _).subset member)
    have droppedItem : (item ::
        select group free (group item :: after group free [] passed)
          rest).filter strict = [] := by
      rw [List.filter_cons_of_neg, dropped fun one member =>
        tail one (List.mem_cons_of_mem _ member)]
      rw [decide_eq_true_iff, not_not]
      exact ties
    rw [kept, droppedItem, List.append_nil, dropped, List.append_nil] at whole
    · exact whole
    · intro one member
      rcases List.mem_cons.mp member with rfl | later
      · exact refl one
      · exact above one later
  have otherFreeBefore : free (after group free [] before)
      (group other) = true := by
    apply shrinks _ _ _ _ otherFree
    rw [after, after, lower, List.append_nil, List.append_nil]
    exact (List.filter_sublist.map group).reverse
  rw [← same, select_append, select, if_pos otherFreeBefore]
  have inSelected : item ∈ select group free [] (before ++ other :: behind) := by
    rw [same, selected]
    exact List.mem_append_right _ List.mem_cons_self
  rw [select_append, select, if_pos otherFreeBefore] at inSelected
  rcases List.mem_append.mp inSelected with inBefore | inRest
  · exact absurd ties (below item ((select_sublist _ _).subset inBefore))
  · rcases List.mem_cons.mp inRest with rfl | later
    · exact absurd rfl different
    · exact (List.cons_sublist_cons.mpr
        (List.singleton_sublist.mpr later)).trans
          (List.sublist_append_right _ _)

/--
If putting any item first among those which tie with it changes nothing, then
the list is settled.
-/
theorem settled_of_front (refl : ∀ one, r one one)
    (trans : ∀ {one two three}, r one two → r two three → r one three)
    (nodup : items.Nodup) (sorted : items.Pairwise r)
    (front : ∀ item ∈ items, ∃ before behind : List α, (∀ other ∈ before, ¬
      r item other) ∧ (∀ other ∈ behind, r item other) ∧ select group free
      [] (before ++ item :: behind) = select group free [] items) :
    Settled group free r [] items := by
  have parts : ∀ rest passed : List α, items = passed ++ rest →
      Settled group free r (after group free [] passed) rest := by
    intro rest
    induction rest with
    | nil => exact fun _ _ => ⟨⟩
    | cons item rest inductionHypothesis =>
      intro passed shape
      have further := inductionHypothesis (passed ++ [item])
        (by rw [shape, List.append_assoc, List.singleton_append])
      have next : after group free [] (passed ++ [item]) =
          if free (after group free [] passed) (group item) then
            group item :: after group free [] passed
          else after group free [] passed := by
        rw [after, select_append, select, select, select]
        split
        · rw [List.map_append, List.reverse_append, after]
          rfl
        · rw [List.append_nil, List.append_nil, after, List.append_nil]
      rw [next] at further
      rw [Settled]
      split
      · next isFree =>
          rw [if_pos isFree] at further
          refine ⟨fun other inRest ties => ?_, further⟩
          rw [Bool.eq_false_iff]
          intro otherFree
          have stands : Before items item other := by
            rw [shape]
            exact (List.cons_sublist_cons.mpr
              (List.singleton_sublist.mpr inRest)).trans
                (List.sublist_append_right _ _)
          obtain ⟨before, behind, below, above, same⟩ :=
            front other (mem_of_before stands).2
          have first := before_of_front shrinks refl trans sorted shape
            isFree ties (ne_of_before nodup stands).symm otherFree below
            above same
          exact not_before_of_before nodup stands
            (first.trans (select_sublist _ _))
      · next notFree =>
          rw [if_neg notFree] at further
          exact further
  exact parts items [] rfl

end Ties

end Mendpoint.Library.GreedySelection
