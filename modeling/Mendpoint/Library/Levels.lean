import Mendpoint.Library.PathTree

/-!
# The levels of a breadth-first search

What is reached within a number of steps, and what a search which goes from
level to level has seen of it: everything, where nothing was left out.
-/

namespace Mendpoint.Library.Levels

open Mendpoint.Library.PathTree

universe u v

variable {ι : Type u} {ε : Type v} {step : ι → ι → Prop} {start : ι}

/-- Reached in at most so many steps. -/
def Within (step : ι → ι → Prop) (start : ι) : Nat → ι → Prop
  | 0, node => node = start
  | hops + 1, node =>
    Within step start hops node ∨
      ∃ near, Within step start hops near ∧ step near node

theorem Within.mono {hops more : Nat} (le : hops ≤ more) {node : ι}
    (within : Within step start hops node) : Within step start more node := by
  induction le with
  | refl => exact within
  | step _ inductionHypothesis => exact .inl inductionHypothesis

theorem within_iff_walk {next : ι → List ε} {target : ε → ι} (hops : Nat)
    (node : ι) :
    Within (fun near other => ∃ edge ∈ next near, target edge = other)
        start hops node ↔
      ∃ walk, IsWalk next target start walk ∧
        lastNode target start walk = node ∧ walk.length ≤ hops := by
  induction hops generalizing node with
  | zero =>
    constructor
    · rintro rfl
      exact ⟨[], trivial, rfl, Nat.le_refl 0⟩
    · rintro ⟨walk, _, last, short⟩
      rw [List.length_eq_zero_iff.mp (Nat.le_zero.mp short)] at last
      exact last.symm
  | succ hops inductionHypothesis =>
    constructor
    · rintro (earlier | ⟨near, within, edge, member, rfl⟩)
      · obtain ⟨walk, isWalk, last, short⟩ :=
          (inductionHypothesis node).mp earlier
        exact ⟨walk, isWalk, last, Nat.le_succ_of_le short⟩
      · obtain ⟨walk, isWalk, rfl, short⟩ :=
          (inductionHypothesis near).mp within
        refine ⟨walk ++ [edge], isWalk_append.mpr ⟨isWalk, member, trivial⟩,
          lastNode_append start walk [edge], ?_⟩
        rw [List.length_append]
        exact Nat.succ_le_succ short
    · rintro ⟨walk, isWalk, rfl, short⟩
      rcases List.eq_nil_or_concat' walk with rfl | ⟨others, edge, rfl⟩
      · exact .inl (Within.mono (Nat.zero_le hops) rfl)
      · obtain ⟨before, member, _⟩ := isWalk_append.mp isWalk
        rw [List.length_append] at short
        refine .inr ⟨_, (inductionHypothesis _).mpr
          ⟨others, before, rfl, Nat.succ_le_succ_iff.mp short⟩,
          edge, member, ?_⟩
        exact (lastNode_append start others [edge]).symm

/-- What is seen after so many steps, and from where the search goes on. -/
structure Level (step : ι → ι → Prop) (start : ι) (hops : Nat)
    (seen frontier : List ι) : Prop where
  seen_iff : ∀ node, node ∈ seen ↔ Within step start hops node
  inside : frontier ⊆ seen
  closed : ∀ node ∈ seen, node ∉ frontier → ∀ other,
    step node other → other ∈ seen

namespace Level

variable {hops : Nat} {seen frontier : List ι}

theorem initial : Level step start 0 [start] [start] where
  seen_iff := fun _ => List.mem_singleton
  inside := List.Subset.refl _
  closed := fun _ member outside => absurd member outside

theorem next (level : Level step start hops seen frontier)
    {after found : List ι}
    (new : ∀ node, node ∈ after ↔ node ∈ seen ∨ node ∈ found)
    (reached : ∀ node ∈ found, ∃ near ∈ frontier, step near node)
    (all : ∀ near ∈ frontier, ∀ node, step near node → node ∈ after) :
    Level step start (hops + 1) after found := by
  have onward : ∀ node ∈ seen, ∀ other, step node other → other ∈ after := by
    intro node member other follows
    by_cases inside : node ∈ frontier
    · exact all node inside other follows
    · exact (new other).mpr
        (.inl (level.closed node member inside other follows))
  refine ⟨fun node => ⟨fun member => ?_, ?_⟩,
    fun node member => (new node).mpr (.inr member),
    fun node member outside => onward node
      (((new node).mp member).resolve_right outside)⟩
  · rcases (new node).mp member with old | late
    · exact .inl ((level.seen_iff node).mp old)
    · obtain ⟨near, inside, follows⟩ := reached node late
      exact .inr ⟨near, (level.seen_iff near).mp (level.inside inside),
        follows⟩
  · rintro (earlier | ⟨near, within, follows⟩)
    · exact (new node).mpr (.inl ((level.seen_iff node).mpr earlier))
    · exact onward near ((level.seen_iff near).mpr within) node follows

theorem exhausted (level : Level step start hops seen []) {more : Nat}
    (le : hops ≤ more) : Level step start more seen [] := by
  induction le with
  | refl => exact level
  | step _ inductionHypothesis =>
    exact inductionHypothesis.next
      (fun node => by rw [or_iff_left List.not_mem_nil])
      (fun _ never => absurd never List.not_mem_nil)
      (fun _ never => absurd never List.not_mem_nil)

end Level

end Mendpoint.Library.Levels
