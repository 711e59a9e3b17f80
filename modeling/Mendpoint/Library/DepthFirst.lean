import Mathlib.Data.List.Basic
import Mathlib.Logic.Relation

/-!
# Depth-first search and cycles

A search with a stack along the edges of a list tells whether one node is
reached from another.  An edge keeps a relation without cycles as it is
exactly when its end does not reach its start.
-/

namespace Mendpoint.Library

universe u

open Relation

/-! ## Relations without cycles -/

section Acyclic

variable {α : Type u}

/-- No node is reached from itself by one step or more. -/
def Acyclic (edge : α → α → Prop) : Prop :=
  ∀ node, ¬ TransGen edge node node

/-- The relation with one more edge. -/
def withEdge (edge : α → α → Prop) (start stop : α) (left right : α) :
    Prop :=
  edge left right ∨ (left = start ∧ right = stop)

theorem reaches_withEdge {edge : α → α → Prop} {start stop left right : α}
    (reached : ReflTransGen (withEdge edge start stop) left right) :
    ReflTransGen edge left right ∨
      (ReflTransGen edge left start ∧ ReflTransGen edge stop right) := by
  induction reached with
  | refl => exact Or.inl .refl
  | tail _ last inductionHypothesis =>
    rcases last with old | ⟨rfl, rfl⟩
    · rcases inductionHypothesis with without | ⟨before, after⟩
      · exact Or.inl (without.tail old)
      · exact Or.inr ⟨before, after.tail old⟩
    · rcases inductionHypothesis with without | ⟨before, _⟩
      · exact Or.inr ⟨without, .refl⟩
      · exact Or.inr ⟨before, .refl⟩

theorem acyclic_withEdge_iff {edge : α → α → Prop}
    (acyclic : Acyclic edge) (start stop : α) :
    Acyclic (withEdge edge start stop) ↔ ¬ ReflTransGen edge stop start := by
  constructor
  · intro without reached
    refine without start (TransGen.head' (Or.inr ⟨rfl, rfl⟩) ?_)
    exact ReflTransGen.mono (fun _ _ old => Or.inl old) _ _ reached
  · intro unreached node cycle
    rcases TransGen.head'_iff.mp cycle with ⟨next, first, back⟩
    rcases first with old | ⟨rfl, rfl⟩
    · rcases reaches_withEdge back with without | ⟨before, after⟩
      · exact acyclic node (.head' old without)
      · exact unreached (after.trans (.head old before))
    · rcases reaches_withEdge back with without | ⟨_, after⟩
      · exact unreached without
      · exact unreached after

end Acyclic

/-! ## The search -/

namespace DepthFirst

variable {α : Type u}

/-- Whether the list has an edge. -/
def Edge (edges : List (α × α)) (left right : α) : Prop :=
  (left, right) ∈ edges

theorem reaches_of_seen {edges : List (α × α)} {target : α}
    {seen stack : List α}
    (closed : ∀ node ∈ seen, node ≠ target ∧
      ∀ next, Edge edges node next → next ∈ seen ∨ next ∈ stack)
    {node : α} (isSeen : node ∈ seen)
    (reached : ReflTransGen (Edge edges) node target) :
    ∃ start ∈ stack, ReflTransGen (Edge edges) start target := by
  induction reached using ReflTransGen.head_induction_on with
  | refl => exact absurd rfl (closed target isSeen).1
  | head first rest inductionHypothesis =>
    rcases (closed _ isSeen).2 _ first with again | waiting
    · exact inductionHypothesis again
    · exact ⟨_, waiting, rest⟩

section Search

variable [DecidableEq α]

/-- The ends of the edges from a node, in the order of the list. -/
def successors (edges : List (α × α)) (node : α) : List α :=
  (edges.filter fun edge => decide (edge.1 = node)).map Prod.snd

theorem mem_successors {edges : List (α × α)} {node next : α} :
    next ∈ successors edges node ↔ Edge edges node next := by
  rw [successors, List.mem_map, Edge]
  constructor
  · rintro ⟨⟨start, stop⟩, member, rfl⟩
    rw [List.mem_filter, decide_eq_true_eq] at member
    rw [← member.2]
    exact member.1
  · intro member
    exact ⟨(node, next), List.mem_filter.mpr ⟨member, decide_eq_true rfl⟩,
      rfl⟩

/--
Take the last node from the stack, and push its successors the first time.
-/
def search (edges : List (α × α)) (target : α) :
    Nat → List α → List α → Bool
  | 0, _, _ => false
  | _ + 1, _, [] => false
  | rounds + 1, seen, current :: stack =>
    if current = target then true
    else if current ∈ seen then search edges target rounds seen stack
    else
      search edges target rounds (current :: seen)
        ((successors edges current).reverse ++ stack)

/-- The rounds which are left: what is on the stack, and unseen edges. -/
def work (edges : List (α × α)) (seen stack : List α) : Nat :=
  stack.length + (edges.filter fun edge => decide (edge.1 ∉ seen)).length

theorem work_push (edges : List (α × α)) {seen : List α} {current : α}
    (unseen : current ∉ seen) (stack : List α) :
    work edges (current :: seen)
        ((successors edges current).reverse ++ stack) + 1 =
      work edges seen (current :: stack) := by
  have split : (edges.filter fun edge => decide (edge.1 ∉ seen)).length =
      (successors edges current).length +
        (edges.filter fun edge =>
          decide (edge.1 ∉ current :: seen)).length := by
    rw [successors, List.length_map]
    induction edges with
    | nil => rfl
    | cons edge rest inductionHypothesis =>
      simp only [List.filter_cons, decide_eq_true_eq, List.mem_cons,
        not_or]
      by_cases here : edge.1 = current
      · have fresh : edge.1 ∉ seen := here ▸ unseen
        simp only [here, unseen, not_false_eq_true, if_true,
          not_true_eq_false, false_and, if_false, List.length_cons]
        simp only [List.mem_cons, not_or] at inductionHypothesis
        omega
      · simp only [here, not_false_eq_true, true_and, if_false]
        simp only [List.mem_cons, not_or] at inductionHypothesis
        split
        · rw [List.length_cons, List.length_cons]
          omega
        · exact inductionHypothesis
  rw [work, work, List.length_append, List.length_reverse,
    List.length_cons]
  omega

theorem search_iff {edges : List (α × α)} {target : α} {rounds : Nat}
    {seen stack : List α} (enough : work edges seen stack ≤ rounds)
    (closed : ∀ node ∈ seen, node ≠ target ∧
      ∀ next, Edge edges node next → next ∈ seen ∨ next ∈ stack) :
    search edges target rounds seen stack = true ↔
      ∃ start ∈ stack, ReflTransGen (Edge edges) start target := by
  induction rounds generalizing seen stack with
  | zero =>
    have empty : stack = [] := by
      rw [work] at enough
      exact List.eq_nil_of_length_eq_zero (by omega)
    simp [search, empty]
  | succ rounds inductionHypothesis =>
    cases stack with
    | nil => simp [search]
    | cons current stack =>
      rw [search]
      split
      · next found =>
          exact iff_of_true rfl
            ⟨current, List.mem_cons_self, found ▸ .refl⟩
      · next other =>
          split
          · next isSeen =>
              have closedStack : ∀ node ∈ seen, node ≠ target ∧
                  ∀ next, Edge edges node next →
                    next ∈ seen ∨ next ∈ stack := by
                intro node member
                refine ⟨(closed node member).1, fun next edge => ?_⟩
                rcases (closed node member).2 next edge with
                  again | waiting
                · exact Or.inl again
                · rcases List.mem_cons.mp waiting with rfl | later
                  · exact Or.inl isSeen
                  · exact Or.inr later
              rw [work, List.length_cons] at enough
              rw [inductionHypothesis (by rw [work]; omega) closedStack]
              constructor
              · rintro ⟨start, member, reached⟩
                exact ⟨start, List.mem_cons_of_mem _ member, reached⟩
              · rintro ⟨start, member, reached⟩
                rcases List.mem_cons.mp member with rfl | later
                · exact reaches_of_seen closedStack isSeen reached
                · exact ⟨start, later, reached⟩
          · next unseen =>
              have pushed := work_push edges unseen stack
              rw [inductionHypothesis (by omega)]
              · constructor
                · rintro ⟨start, member, reached⟩
                  rw [List.mem_append, List.mem_reverse,
                    mem_successors] at member
                  rcases member with edge | waiting
                  · exact ⟨current, List.mem_cons_self,
                      .head edge reached⟩
                  · exact ⟨start, List.mem_cons_of_mem _ waiting,
                      reached⟩
                · rintro ⟨start, member, reached⟩
                  rcases List.mem_cons.mp member with rfl | later
                  · rcases ReflTransGen.cases_head reached with
                      same | ⟨next, edge, rest⟩
                    · exact absurd same other
                    · refine ⟨next, List.mem_append_left _ ?_, rest⟩
                      rw [List.mem_reverse, mem_successors]
                      exact edge
                  · exact ⟨start, List.mem_append_right _ later,
                      reached⟩
              · intro node member
                rcases List.mem_cons.mp member with rfl | earlier
                · refine ⟨other, fun next edge => Or.inr ?_⟩
                  rw [List.mem_append, List.mem_reverse,
                    mem_successors]
                  exact Or.inl edge
                · refine ⟨(closed node earlier).1, fun next edge => ?_⟩
                  rcases (closed node earlier).2 next edge with
                    again | waiting
                  · exact Or.inl (List.mem_cons_of_mem _ again)
                  · rcases List.mem_cons.mp waiting with rfl | later
                    · exact Or.inl List.mem_cons_self
                    · exact Or.inr (List.mem_append_right _ later)

theorem search_from_iff (edges : List (α × α)) (start target : α) :
    search edges target (edges.length + 1) [] [start] = true ↔
      ReflTransGen (Edge edges) start target := by
  rw [search_iff ?_ (List.forall_mem_nil _)]
  · simp
  · have fewer := List.length_filter_le
      (fun edge : α × α => decide (edge.1 ∉ ([] : List α))) edges
    rw [work, List.length_singleton]
    omega

end Search

end DepthFirst

end Mendpoint.Library
