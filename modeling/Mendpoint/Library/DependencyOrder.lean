import Mendpoint.Library.DependencyWaves

/-!
# Lists with dependencies first

A list in which every item stands after the items on which it depends.  Such a
list numbers its items against the dependencies, so these have no cycle.
-/

namespace Mendpoint.Library.DependencyWaves

open Relation

universe u v

variable {α : Type u} {κ : Type v} (id : α → κ) (deps : α → List κ)

/-- What an item depends on is in front of it. -/
def DependenciesFirst (items : List α) : Prop :=
  ∀ before item after, items = before ++ item :: after →
    ∀ dependency ∈ deps item, dependency ∈ before.map id

variable {id deps} {items before after : List α} {item : α}

theorem dependenciesFirst_nil : DependenciesFirst id deps [] := by
  intro before item after split
  cases before with
  | nil => cases split
  | cons => cases split

theorem DependenciesFirst.concat (first : DependenciesFirst id deps items)
    (known : ∀ dependency ∈ deps item, dependency ∈ items.map id) :
    DependenciesFirst id deps (items ++ [item]) := by
  intro before other after split
  rcases List.eq_nil_or_concat after with rfl | ⟨front, last, rfl⟩
  · rcases List.append_inj' split rfl with ⟨rfl, same⟩
    cases same
    exact known
  · have shifted : items ++ [item] = (before ++ other :: front) ++ [last] :=
      by simpa using split
    exact first before other front (List.append_inj' shifted rfl).1

theorem DependenciesFirst.map {change : α → α}
    (sameId : ∀ item, id (change item) = id item)
    (sameDeps : ∀ item, deps (change item) = deps item)
    (first : DependenciesFirst id deps items) :
    DependenciesFirst id deps (items.map change) := by
  intro before item after split
  rcases List.map_eq_append_iff.mp split with ⟨front, back, rfl, rfl, rest⟩
  rcases List.map_eq_cons_iff.mp rest with ⟨old, others, rfl, rfl, _⟩
  rw [sameDeps, List.map_map]
  have kept : id ∘ change = id := funext sameId
  rw [kept]
  exact first front old others rfl

theorem DependenciesFirst.closed
    (first : DependenciesFirst id deps items) : Closed id deps items := by
  intro item member dependency depends
  rcases List.append_of_mem member with ⟨before, after, split⟩
  rcases List.mem_map.mp (first before item after split dependency depends)
    with ⟨other, inside, named⟩
  exact ⟨other, split ▸ List.mem_append_left _ inside, named⟩

section Distinct

variable (first : DependenciesFirst id deps items)
  (distinct : (items.map id).Nodup)

include first distinct

theorem front_of_path {start stop : κ}
    (path : TransGen (Edge id deps items) start stop)
    (split : items = before ++ item :: after) (named : id item = stop) :
    start ∈ before.map id := by
  induction path generalizing before item after with
  | single edge =>
    rcases edge with ⟨other, inside, same, depends⟩
    have here : other = item := List.inj_on_of_nodup_map distinct inside
      (split ▸ List.mem_append_right _ List.mem_cons_self)
      (same.trans named.symm)
    exact first before item after split _ (here ▸ depends)
  | tail _ edge inductionHypothesis =>
    rcases edge with ⟨other, inside, same, depends⟩
    have here : other = item := List.inj_on_of_nodup_map distinct inside
      (split ▸ List.mem_append_right _ List.mem_cons_self)
      (same.trans named.symm)
    rcases List.mem_map.mp
      (first before item after split _ (here ▸ depends)) with
      ⟨middle, within, called⟩
    rcases List.append_of_mem within with ⟨front, back, rfl⟩
    rw [List.append_assoc, List.cons_append] at split
    rw [List.map_append, List.mem_append]
    exact Or.inl (inductionHypothesis split called)

theorem acyclic_of_dependenciesFirst : Acyclic (Edge id deps items) := by
  intro node cycle
  have known : ∃ item ∈ items, id item = node := by
    cases cycle with
    | single edge =>
      rcases edge with ⟨item, inside, same, _⟩
      exact ⟨item, inside, same⟩
    | tail _ edge =>
      rcases edge with ⟨item, inside, same, _⟩
      exact ⟨item, inside, same⟩
  rcases known with ⟨item, inside, rfl⟩
  rcases List.append_of_mem inside with ⟨before, after, split⟩
  have front := front_of_path first distinct cycle split rfl
  rw [split, List.map_append, List.map_cons, List.nodup_append] at distinct
  exact distinct.2.2 _ front _ List.mem_cons_self rfl

end Distinct

end Mendpoint.Library.DependencyWaves
