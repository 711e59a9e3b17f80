import Mathlib.Data.Finite.Prod
import Mathlib.Order.WellFounded
import Mathlib.Data.List.Forall2
import Mathlib.Order.Lattice
import Mathlib.Order.Max
import Mendpoint.Library.DepthFirst

/-!
# Waves of dependent items

Items which name the items on which they depend are processed in waves, each
after the items on which it depends.  All items can be processed exactly when
the dependencies have no cycle: without one some item is always ready, and the
waves themselves number the items against the dependencies.
-/

namespace Mendpoint.Library.DependencyWaves

open Relation

universe u v

variable {α : Type u} {κ : Type v} (id : α → κ) (deps : α → List κ)

/-- The second item depends on the first one. -/
def Edge (items : List α) (before after : κ) : Prop :=
  ∃ item ∈ items, id item = after ∧ before ∈ deps item

/-- Every dependency is the name of an item. -/
def Closed (items : List α) : Prop :=
  ∀ item ∈ items, ∀ dependency ∈ deps item,
    ∃ other ∈ items, id other = dependency

/-- An item of the name is in the wave of the index. -/
def Placed (waves : List (List α)) (name : κ) (index : Nat) : Prop :=
  ∃ wave, waves[index]? = some wave ∧ ∃ item ∈ wave, id item = name

/-- Waves which process the remaining items after the completed ones. -/
inductive Covers : List κ → List α → List (List α) → Prop where
  | done (completed : List κ) : Covers completed [] []
  | next {completed : List κ} {remaining wave rest : List α}
      {waves : List (List α)}
      (ready : ∀ item ∈ wave, ∀ dependency ∈ deps item,
        dependency ∈ completed)
      (split : (wave ++ rest).Perm remaining)
      (covers : Covers (completed ++ wave.map id) rest waves) :
      Covers completed remaining (wave :: waves)

variable {id deps} {items remaining : List α} {completed : List κ}
  {waves : List (List α)}

theorem Covers.perm (covers : Covers id deps completed remaining waves) :
    waves.flatten.Perm remaining := by
  induction covers with
  | done => exact List.Perm.refl _
  | next _ split _ inductionHypothesis =>
    rw [List.flatten_cons]
    exact (inductionHypothesis.append_left _).trans split

theorem Covers.before (covers : Covers id deps completed remaining waves)
    {index : Nat} {wave : List α} (found : waves[index]? = some wave)
    {item : α} (member : item ∈ wave) {dependency : κ}
    (depends : dependency ∈ deps item) :
    dependency ∈ completed ∨
      ∃ earlier < index, Placed id waves dependency earlier := by
  induction covers generalizing index with
  | done => cases found
  | @next completed remaining first rest others ready _ _
      inductionHypothesis =>
      cases index with
      | zero =>
        rw [List.getElem?_cons_zero, Option.some.injEq] at found
        subst found
        exact .inl (ready item member dependency depends)
      | succ index =>
        rw [List.getElem?_cons_succ] at found
        rcases inductionHypothesis found with known | later
        · rcases List.mem_append.mp known with before | named
          · exact .inl before
          · obtain ⟨other, inside, same⟩ := List.mem_map.mp named
            exact .inr ⟨0, Nat.succ_pos _, first, rfl, other, inside, same⟩
        · obtain ⟨earlier, less, previous, there, other⟩ := later
          exact .inr ⟨earlier + 1, Nat.succ_lt_succ less, previous, there,
            other⟩

theorem Covers.placed (covers : Covers id deps completed remaining waves)
    {item : α} (member : item ∈ remaining) :
    ∃ index, Placed id waves (id item) index := by
  obtain ⟨wave, inWaves, inWave⟩ :=
    List.mem_flatten.mp (covers.perm.mem_iff.mpr member)
  obtain ⟨index, found⟩ := List.mem_iff_getElem?.mp inWaves
  exact ⟨index, wave, found, item, inWave, rfl⟩

section Acyclic

variable (covers : Covers id deps [] items waves)
  (distinct : (items.map id).Nodup)

include covers distinct

theorem earlier_of_edge {before after : κ}
    (edge : Edge id deps items before after) {index : Nat}
    (placed : Placed id waves after index) :
    ∃ earlier < index, Placed id waves before earlier := by
  obtain ⟨known, inside, same, depends⟩ := edge
  obtain ⟨wave, found, item, member, rfl⟩ := placed
  have inItems : item ∈ items := covers.perm.mem_iff.mp
    (List.mem_flatten_of_mem (List.mem_of_getElem? found) member)
  rw [List.inj_on_of_nodup_map distinct inside inItems same] at depends
  rcases covers.before found member depends with impossible | there
  · exact absurd impossible List.not_mem_nil
  · exact there

theorem earlier_of_path {before after : κ}
    (path : TransGen (Edge id deps items) before after) {index : Nat}
    (placed : Placed id waves after index) :
    ∃ earlier < index, Placed id waves before earlier := by
  induction path generalizing index with
  | single edge => exact earlier_of_edge covers distinct edge placed
  | tail _ edge inductionHypothesis =>
    obtain ⟨middle, below, there⟩ :=
      earlier_of_edge covers distinct edge placed
    obtain ⟨less, lower, first⟩ := inductionHypothesis there
    exact ⟨less, lower.trans below, first⟩

theorem acyclic_of_covers : Acyclic (Edge id deps items) := by
  intro node cycle
  have nowhere : ∀ index, ¬ Placed id waves node index := by
    intro index
    induction index using Nat.strongRecOn with
    | ind index inductionHypothesis =>
      intro placed
      obtain ⟨less, lower, there⟩ :=
        earlier_of_path covers distinct cycle placed
      exact inductionHypothesis less lower there
  have item : ∃ item ∈ items, id item = node := by
    cases cycle with
    | single edge =>
      obtain ⟨item, inside, same, _⟩ := edge
      exact ⟨item, inside, same⟩
    | tail _ edge =>
      obtain ⟨item, inside, same, _⟩ := edge
      exact ⟨item, inside, same⟩
  obtain ⟨item, inside, rfl⟩ := item
  obtain ⟨index, placed⟩ := covers.placed inside
  exact nowhere index placed

end Acyclic

theorem exists_ready (acyclic : Acyclic (Edge id deps items))
    (closed : Closed id deps items)
    (known : ∀ item ∈ items, id item ∈ completed ∨ item ∈ remaining)
    (inside : ∀ item ∈ remaining, item ∈ items) (nonempty : remaining ≠ []) :
    ∃ item ∈ remaining, ∀ dependency ∈ deps item,
      dependency ∈ completed := by
  let precedes : {item // item ∈ remaining} → {item // item ∈ remaining} →
      Prop := fun one two => TransGen (Edge id deps items) (id one) (id two)
  have finite : Finite {item // item ∈ remaining} :=
    Finite.of_surjective (fun index : Fin remaining.length =>
      (⟨remaining[index], List.getElem_mem _⟩ :
        {item // item ∈ remaining})) fun item => by
      obtain ⟨index, bound, same⟩ := List.mem_iff_getElem.mp item.2
      exact ⟨⟨index, bound⟩, Subtype.ext same⟩
  have transitive : IsTrans _ precedes :=
    ⟨fun _ _ _ one two => TransGen.trans one two⟩
  have irreflexive : Std.Irrefl precedes := ⟨fun item => acyclic (id item)⟩
  have founded : WellFounded precedes :=
    Finite.wellFounded_of_trans_of_irrefl precedes
  obtain ⟨first, rest, shape⟩ := List.exists_cons_of_ne_nil nonempty
  have some' : first ∈ remaining := shape ▸ List.mem_cons_self
  obtain ⟨least, _, minimal⟩ :=
    founded.has_min Set.univ ⟨⟨first, some'⟩, ⟨⟩⟩
  refine ⟨least, least.2, fun dependency depends => ?_⟩
  obtain ⟨other, otherInside, named⟩ :=
    closed least (inside least least.2) dependency depends
  rcases known other otherInside with complete | remains
  · exact named ▸ complete
  · exact absurd (TransGen.single
      ⟨least, inside least least.2, rfl, named ▸ depends⟩)
      (minimal ⟨other, remains⟩ ⟨⟩)

end Mendpoint.Library.DependencyWaves

/-!
## Schedules along a sequence of windows

A sequence of half-open windows has an instant in each of them, none before an
earlier one, exactly when every window is open and none opens after a later one
has closed.
-/

namespace Mendpoint.Library

universe u

variable {τ : Type u} [LinearOrder τ]

/-- One instant in each window, none before an earlier one. -/
def Schedulable (windows : List (τ × τ)) : Prop :=
  ∃ instants : List τ,
    List.Forall₂ (fun window instant =>
      window.1 ≤ instant ∧ instant < window.2) windows instants ∧
    instants.Pairwise (· ≤ ·)

theorem schedule_from {windows : List (τ × τ)}
    (inTime : windows.Pairwise fun earlier later => earlier.1 < later.2)
    (wide : ∀ window ∈ windows, window.1 < window.2) {lower : τ}
    (above : ∀ window ∈ windows, lower < window.2) :
    ∃ instants : List τ,
      List.Forall₂ (fun window instant =>
        window.1 ≤ instant ∧ instant < window.2) windows instants ∧
      instants.Pairwise (· ≤ ·) ∧ ∀ instant ∈ instants, lower ≤ instant := by
  induction windows generalizing lower with
  | nil => exact ⟨[], .nil, .nil, List.forall_mem_nil _⟩
  | cons window rest inductionHypothesis =>
    rw [List.pairwise_cons] at inTime
    rw [List.forall_mem_cons] at wide above
    have later : ∀ other ∈ rest, max lower window.1 < other.2 :=
      fun other member =>
        max_lt (above.2 other member) (inTime.1 other member)
    rcases inductionHypothesis inTime.2 wide.2 later with
      ⟨instants, within, sorted, bounded⟩
    refine ⟨max lower window.1 :: instants,
      .cons ⟨le_max_right _ _, max_lt above.1 wide.1⟩ within,
      List.pairwise_cons.mpr ⟨bounded, sorted⟩, ?_⟩
    rw [List.forall_mem_cons]
    exact ⟨le_max_left _ _, fun instant member =>
      le_trans (le_max_left _ _) (bounded instant member)⟩

theorem schedulable_iff {windows : List (τ × τ)} :
    Schedulable windows ↔
      (∀ window ∈ windows, window.1 < window.2) ∧
        windows.Pairwise fun earlier later => earlier.1 < later.2 := by
  constructor
  · rintro ⟨instants, within, sorted⟩
    induction within with
    | nil => exact ⟨List.forall_mem_nil _, .nil⟩
    | @cons window instant rest others inside within inductionHypothesis =>
      rw [List.pairwise_cons] at sorted
      rcases inductionHypothesis sorted.2 with ⟨wide, inTime⟩
      rw [List.forall_mem_cons, List.pairwise_cons]
      refine ⟨⟨lt_of_le_of_lt inside.1 inside.2, wide⟩, ?_, inTime⟩
      intro later member
      rcases (List.forall₂_iff_get.mp within) with ⟨sizes, each⟩
      rcases List.mem_iff_get.mp member with ⟨place, rfl⟩
      have here := each place.1 place.2 (sizes ▸ place.2)
      exact lt_of_le_of_lt inside.1 (lt_of_le_of_lt
        (sorted.1 _ (List.get_mem _ _)) here.2)
  · rintro ⟨wide, inTime⟩
    cases windows with
    | nil => exact ⟨[], .nil, .nil⟩
    | cons window rest =>
      have both := List.pairwise_cons.mp inTime
      have above : ∀ other ∈ window :: rest, window.1 < other.2 := by
        rw [List.forall_mem_cons]
        exact ⟨wide window List.mem_cons_self, both.1⟩
      rcases schedule_from inTime wide above with ⟨instants, within, sorted, _⟩
      exact ⟨instants, within, sorted⟩

end Mendpoint.Library
