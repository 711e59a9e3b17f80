import Mathlib.Data.List.Basic
import Mathlib.Data.List.Nodup
import Mathlib.Data.List.Perm.Subperm
import Mathlib.Order.Basic

/-!
# Breadth-first search over expandable items

A search item carries a key, which is marked as visited when the item is
discovered, and a depth.  Expanding an item yields its candidates; a candidate
whose key is still unmarked is recorded and enqueued.

The search is exact.  Whenever deeper items do not expand further than
shallower ones with the same key, every item derivable from the seed is
represented among the discovered items by one of the same key and no greater
depth.
-/

namespace Mendpoint.Library

universe u v

/-- What a breadth-first search needs to know about its items. -/
structure Search (ι : Type u) (α : Type v) where
  key : ι → α
  depth : ι → Nat
  expand : ι → List ι
  depth_expand :
    ∀ {parent child}, child ∈ expand parent →
      depth child = depth parent + 1

namespace Search

variable {ι : Type u} {α : Type v}

/-- The mutable state of a search: pending items, marks and discoveries. -/
structure Frontier (ι : Type u) (α : Type v) where
  queue : List ι
  visited : List α
  hits : List ι

section Algorithm

variable [DecidableEq α]

/-- Record and enqueue a candidate unless its key is marked. -/
def discover (search : Search ι α) (state : Frontier ι α)
    (candidate : ι) : Frontier ι α :=
  if search.key candidate ∈ state.visited then state
  else
    { queue := state.queue ++ [candidate]
      visited := state.visited ++ [search.key candidate]
      hits := state.hits ++ [candidate] }

/-- Dequeue one item and discover its candidates. -/
def advance (search : Search ι α) (state : Frontier ι α) :
    Frontier ι α :=
  match state.queue with
  | [] => state
  | current :: rest =>
    (search.expand current).foldl search.discover
      { state with queue := rest }

/-- Advance a bounded number of times. -/
def loop (search : Search ι α) : Nat → Frontier ι α → Frontier ι α
  | 0, state => state
  | rounds + 1, state => search.loop rounds (search.advance state)

/-- The state in which only the seed is known. -/
def start (search : Search ι α) (seed : ι) : Frontier ι α where
  queue := [seed]
  visited := [search.key seed]
  hits := []

end Algorithm

/-- Items obtained from the seed by repeated expansion. -/
inductive Derived (search : Search ι α) (seed : ι) : ι → Prop where
  | seed : Derived search seed seed
  | expand {parent child : ι}
      (derived : Derived search seed parent)
      (member : child ∈ search.expand parent) :
      Derived search seed child

/--
The search invariant.

`done` lists the items already expanded.  The items known so far are the seed
and the discoveries, in the order in which they entered the queue; they are
marked, have distinct keys, and their depths never decrease.
-/
structure Invariant (search : Search ι α) (seed : ι)
    (done : List ι) (state : Frontier ι α) : Prop where
  known : done ++ state.queue = seed :: state.hits
  marked : state.visited = (seed :: state.hits).map search.key
  distinct : ((seed :: state.hits).map search.key).Nodup
  ordered :
    (seed :: state.hits).Pairwise fun left right =>
      search.depth left ≤ search.depth right
  derived : ∀ item ∈ state.hits, search.Derived seed item
  covered :
    ∀ parent ∈ done, ∀ child ∈ search.expand parent,
      ∃ item ∈ seed :: state.hits,
        search.key item = search.key child ∧
          search.depth item ≤ search.depth child

/-- No known item lies more than one layer below the queue's head. -/
def Layered (search : Search ι α) (seed : ι)
    (state : Frontier ι α) : Prop :=
  ∀ head ∈ state.queue.head?, ∀ item ∈ seed :: state.hits,
    search.depth item ≤ search.depth head + 1

theorem start_invariant (search : Search ι α) (seed : ι) :
    search.Invariant seed [] (search.start seed) where
  known := rfl
  marked := rfl
  distinct := by simp [start]
  ordered := by simp [start]
  derived := by simp [start]
  covered := by simp

theorem start_layered (search : Search ι α) (seed : ι) :
    search.Layered seed (search.start seed) := by
  intro head isHead item member
  simp only [start, List.head?_cons, Option.mem_def,
    Option.some.injEq] at isHead
  subst isHead
  simp only [start, List.mem_singleton] at member
  subst member
  omega

/--
The invariant while the candidates of `current` are being discovered.

`pending` are the candidates not yet looked at.  The expanded item is kept
apart from `done`, since its own coverage is still incomplete.
-/
structure Expanding (search : Search ι α) (seed : ι) (done : List ι)
    (current : ι) (pending : List ι) (state : Frontier ι α) : Prop where
  known : done ++ current :: state.queue = seed :: state.hits
  marked : state.visited = (seed :: state.hits).map search.key
  distinct : ((seed :: state.hits).map search.key).Nodup
  ordered :
    (seed :: state.hits).Pairwise fun left right =>
      search.depth left ≤ search.depth right
  derived : ∀ item ∈ state.hits, search.Derived seed item
  covered :
    ∀ parent ∈ done, ∀ child ∈ search.expand parent,
      ∃ item ∈ seed :: state.hits,
        search.key item = search.key child ∧
          search.depth item ≤ search.depth child
  shallow :
    ∀ item ∈ seed :: state.hits,
      search.depth item ≤ search.depth current + 1
  settled :
    ∀ child ∈ search.expand current, child ∉ pending →
      ∃ item ∈ seed :: state.hits,
        search.key item = search.key child ∧
          search.depth item ≤ search.depth child

theorem Invariant.derived_of_known
    {search : Search ι α} {seed : ι} {done : List ι}
    {state : Frontier ι α}
    (invariant : search.Invariant seed done state)
    {item : ι} (known : item ∈ seed :: state.hits) :
    search.Derived seed item := by
  rcases List.mem_cons.mp known with rfl | hit
  · exact .seed
  · exact invariant.derived item hit

section Correctness

variable [DecidableEq α]

variable {search : Search ι α} {seed : ι} {done : List ι} {current : ι}
  {state : Frontier ι α}

theorem Expanding.discover {candidate : ι} {pending : List ι}
    (expanding : search.Expanding seed done current (candidate :: pending)
      state) (currentDerived : search.Derived seed current)
    (member : candidate ∈ search.expand current) :
    search.Expanding seed done current pending
      (search.discover state candidate) := by
  have candidateDepth := search.depth_expand member
  by_cases seen : search.key candidate ∈ state.visited
  · -- the key is marked, so a known item already represents the candidate
    have unchanged : search.discover state candidate = state := by
      simp [Search.discover, seen]
    rw [unchanged]
    refine
      { expanding with
        settled := ?_ }
    intro child childMember notPending
    by_cases same : child = candidate
    · subst same
      rw [expanding.marked, List.mem_map] at seen
      obtain ⟨item, known, keyed⟩ := seen
      refine ⟨item, known, keyed, ?_⟩
      rw [candidateDepth]
      exact expanding.shallow item known
    · exact expanding.settled child childMember (by simp [same, notPending])
  · have grown :
        search.discover state candidate =
          { queue := state.queue ++ [candidate]
            visited := state.visited ++ [search.key candidate]
            hits := state.hits ++ [candidate] } := by
      simp [Search.discover, seen]
    rw [grown]
    have keep : ∀ {item : ι}, item ∈ seed :: state.hits →
        item ∈ seed :: (state.hits ++ [candidate]) := by
      intro item known
      rw [← List.cons_append]
      exact List.mem_append_left _ known
    constructor
    · change done ++ current :: (state.queue ++ [candidate]) =
        seed :: (state.hits ++ [candidate])
      rw [← List.cons_append, ← List.cons_append, ← List.append_assoc,
        expanding.known]
    · change state.visited ++ [search.key candidate] =
        (seed :: (state.hits ++ [candidate])).map search.key
      rw [← List.cons_append, List.map_append, expanding.marked]
      rfl
    · rw [expanding.marked] at seen
      change ((seed :: (state.hits ++ [candidate])).map search.key).Nodup
      rw [← List.cons_append, List.map_append, List.map_singleton]
      exact List.Nodup.append expanding.distinct
        (List.nodup_singleton _)
        (List.disjoint_singleton.mpr seen)
    · change (seed :: (state.hits ++ [candidate])).Pairwise _
      rw [← List.cons_append, List.pairwise_append]
      refine ⟨expanding.ordered, List.pairwise_singleton _ _, ?_⟩
      intro item known other last
      rw [List.mem_singleton] at last
      subst last
      rw [candidateDepth]
      exact expanding.shallow item known
    · intro item hit
      rcases List.mem_append.mp hit with old | new
      · exact expanding.derived item old
      · rw [List.mem_singleton] at new
        subst new
        exact .expand currentDerived member
    · intro parent parentDone child childMember
      obtain ⟨item, known, represents⟩ :=
        expanding.covered parent parentDone child childMember
      exact ⟨item, keep known, represents⟩
    · intro item known
      change item ∈ seed :: (state.hits ++ [candidate]) at known
      rw [← List.cons_append] at known
      rcases List.mem_append.mp known with old | new
      · exact expanding.shallow item old
      · rw [List.mem_singleton] at new
        subst new
        omega
    · intro child childMember notPending
      by_cases same : child = candidate
      · subst same
        refine ⟨child, ?_, rfl, Nat.le_refl _⟩
        change child ∈ seed :: (state.hits ++ [child])
        simp
      · obtain ⟨item, known, represents⟩ :=
          expanding.settled child childMember (by simp [same, notPending])
        exact ⟨item, keep known, represents⟩

theorem Expanding.discoverAll {pending : List ι}
    (expanding : search.Expanding seed done current pending state)
    (currentDerived : search.Derived seed current)
    (members : ∀ child ∈ pending, child ∈ search.expand current) :
    search.Expanding seed done current []
      (pending.foldl search.discover state) := by
  induction pending generalizing state with
  | nil => exact expanding
  | cons candidate rest induction =>
    rw [List.foldl_cons]
    exact induction
      (expanding.discover currentDerived
        (members candidate (by simp)))
      (fun child member => members child (by simp [member]))

theorem Invariant.advance {rest : List ι}
    (invariant : search.Invariant seed done state)
    (layered : search.Layered seed state)
    (queued : state.queue = current :: rest) :
    search.Invariant seed (done ++ [current]) (search.advance state) ∧
      search.Layered seed (search.advance state) := by
  have headKnown : current ∈ seed :: state.hits := by
    rw [← invariant.known, queued]
    simp
  have currentDerived := invariant.derived_of_known headKnown
  have before :
      search.Expanding seed done current (search.expand current)
        { state with queue := rest } :=
    { known := by rw [← invariant.known, queued]
      marked := invariant.marked
      distinct := invariant.distinct
      ordered := invariant.ordered
      derived := invariant.derived
      covered := invariant.covered
      shallow := layered current (by simp [queued])
      settled := fun child member absent => (absent member).elim }
  have after :=
    before.discoverAll currentDerived (fun child member => member)
  have advanced :
      search.advance state =
        (search.expand current).foldl search.discover
          { state with queue := rest } := by
    simp [Search.advance, queued]
  rw [← advanced] at after
  constructor
  · exact
      { known := by
          rw [List.append_assoc, List.singleton_append]
          exact after.known
        marked := after.marked
        distinct := after.distinct
        ordered := after.ordered
        derived := after.derived
        covered := by
          intro parent parentDone child childMember
          rcases List.mem_append.mp parentDone with old | new
          · exact after.covered parent old child childMember
          · rw [List.mem_singleton] at new
            subst new
            exact after.settled child childMember (by simp) }
  · intro head isHead item known
    have headQueued : head ∈ (search.advance state).queue :=
      List.mem_of_mem_head? isHead
    have notShallower : search.depth current ≤ search.depth head := by
      have sorted := after.ordered
      rw [← after.known, List.pairwise_append] at sorted
      exact List.rel_of_pairwise_cons sorted.2.1 headQueued
    have bound := after.shallow item known
    omega

/-- Running the loop keeps the invariant and empties the queue or expands
one more item in every round. -/
theorem Invariant.loop (rounds : Nat)
    (invariant : search.Invariant seed done state)
    (layered : search.Layered seed state) :
    ∃ expanded,
      search.Invariant seed expanded (search.loop rounds state) ∧
        ((search.loop rounds state).queue = [] ∨
          done.length + rounds ≤ expanded.length) := by
  induction rounds generalizing done state with
  | zero => exact ⟨done, invariant, Or.inr (by simp)⟩
  | succ rounds induction =>
    cases queued : state.queue with
    | nil =>
      have idle : search.advance state = state := by
        simp [Search.advance, queued]
      have settled : ∀ count, search.loop count state = state := by
        intro count
        induction count with
        | zero => rfl
        | succ count step =>
          rw [Search.loop, idle, step]
      rw [settled]
      exact ⟨done, invariant, Or.inl queued⟩
    | cons current rest =>
      obtain ⟨next, nextLayered⟩ := invariant.advance layered queued
      obtain ⟨expanded, final, finished⟩ :=
        induction next nextLayered
      refine ⟨expanded, final, ?_⟩
      rcases finished with empty | long
      · exact Or.inl empty
      · right
        simp only [List.length_append, List.length_singleton] at long
        omega

end Correctness

section Exactness

variable [DecidableEq α]

/-- The discoveries of a search from a seed within a number of rounds. -/
def hitsWithin (search : Search ι α) (rounds : Nat) (seed : ι) :
    List ι :=
  (search.loop rounds (search.start seed)).hits

/--
If all reachable keys come from a finite list, as many rounds as the list has
members, and one for the seed, exhaust the queue.
-/
theorem exhausted
    (search : Search ι α) (seed : ι) (pool : List α)
    (closed :
      ∀ item, search.Derived seed item → item = seed ∨
        search.key item ∈ pool) :
    ∃ done,
      search.Invariant seed done
          (search.loop (pool.length + 2) (search.start seed)) ∧
        (search.loop (pool.length + 2)
          (search.start seed)).queue = [] := by
  obtain ⟨done, invariant, finished⟩ :=
    (search.start_invariant seed).loop (pool.length + 2)
      (search.start_layered seed)
  refine ⟨done, invariant, ?_⟩
  rcases finished with empty | long
  · exact empty
  · exfalso
    have hitKeys :
        ((search.loop (pool.length + 2)
          (search.start seed)).hits.map search.key) ⊆
          pool := by
      intro key member
      obtain ⟨item, hit, rfl⟩ := List.mem_map.mp member
      rcases closed item (invariant.derived item hit) with rfl | inside
      · have distinct := invariant.distinct
        rw [List.map_cons, List.nodup_cons] at distinct
        exact (distinct.1 member).elim
      · exact inside
    have distinctHits := invariant.distinct
    rw [List.map_cons, List.nodup_cons] at distinctHits
    have hitBound :=
      (List.subperm_of_subset distinctHits.2 hitKeys).length_le
    have knownLength := congrArg List.length invariant.known
    simp only [List.length_append, List.length_cons, List.length_nil,
      List.length_map] at knownLength hitBound long
    omega

/--
Exactness of breadth-first search.  The discoveries have distinct keys
different from the seed's, each is derivable, and every derivable item is
represented by a known item of the same key and no greater depth.
-/
theorem hitsWithin_exact
    (search : Search ι α) (seed : ι) (pool : List α)
    (closed :
      ∀ item, search.Derived seed item → item = seed ∨
        search.key item ∈ pool)
    (monotone :
      ∀ {shallow deep child : ι}, search.key shallow = search.key deep →
        search.depth shallow ≤ search.depth deep →
        child ∈ search.expand deep →
        ∃ other ∈ search.expand shallow,
          search.key other = search.key child) :
    let hits := search.hitsWithin (pool.length + 2) seed
    ((seed :: hits).map search.key).Nodup ∧
      (∀ item ∈ hits, search.Derived seed item) ∧
      ∀ item, search.Derived seed item →
        ∃ known ∈ seed :: hits,
          search.key known = search.key item ∧
            search.depth known ≤ search.depth item := by
  obtain ⟨done, invariant, empty⟩ :=
    search.exhausted seed pool closed
  have allDone :
      done = seed :: search.hitsWithin (pool.length + 2) seed := by
    have known := invariant.known
    rw [empty, List.append_nil] at known
    exact known
  refine ⟨invariant.distinct, invariant.derived, ?_⟩
  intro item derived
  induction derived with
  | seed => exact ⟨seed, by simp, rfl, Nat.le_refl _⟩
  | @expand parent child parentDerived member represented =>
    obtain ⟨known, isKnown, keyed, shallower⟩ := represented
    obtain ⟨other, otherMember, otherKey⟩ :=
      monotone keyed shallower member
    obtain ⟨item, itemKnown, itemKey, itemDepth⟩ :=
      invariant.covered known (allDone ▸ isKnown) other otherMember
    refine ⟨item, itemKnown, itemKey.trans otherKey, ?_⟩
    have otherDepth := search.depth_expand otherMember
    have childDepth := search.depth_expand member
    omega

end Exactness

end Search

end Mendpoint.Library
