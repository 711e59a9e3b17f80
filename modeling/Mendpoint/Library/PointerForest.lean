import Mathlib.Logic.Function.Basic

/-!
# Forests of pointers with ranks

Every node points to a parent, and a root to itself.  Where ranks rise along
pointers and are bounded, following the pointers ends at a root.  Linking one
root below another joins their trees, and pointing a node at its own root
changes no root.
-/

namespace Mendpoint.Library

universe u

variable {κ : Type u}

/-- The pointers lead from a node to a root. -/
inductive Leads (parent : κ → κ) : κ → κ → Prop where
  | root {node : κ} (own : parent node = node) : Leads parent node node
  | step {node root : κ} (other : parent node ≠ node)
      (onward : Leads parent (parent node) root) : Leads parent node root

namespace Leads

variable {parent : κ → κ}

variable {node root : κ}

theorem parent_root (leads : Leads parent node root) : parent root = root := by
  induction leads with
  | root own => exact own
  | step _ _ inductionHypothesis => exact inductionHypothesis

theorem unique {other : κ} (leads : Leads parent node root)
    (leadsOther : Leads parent node other) : root = other := by
  induction leads with
  | root own =>
    cases leadsOther with
    | root _ => rfl
    | step otherwise _ => exact absurd own otherwise
  | step pointed _ inductionHypothesis =>
    cases leadsOther with
    | root own => exact absurd own pointed
    | step _ onward => exact inductionHypothesis onward

theorem tail (pointed : parent node ≠ node) (leads : Leads parent node root) :
    Leads parent (parent node) root := by
  cases leads with
  | root own => exact absurd own pointed
  | step _ onward => exact onward

theorem eq_of_root (own : parent node = node)
    (leads : Leads parent node root) : root = node :=
  leads.unique (.root own)

theorem rank_le {rank : κ → Nat}
    (rises : ∀ node, parent node ≠ node → rank node < rank (parent node))
    (leads : Leads parent node root) : rank node ≤ rank root := by
  induction leads with
  | root own => exact Nat.le_refl _
  | step pointed _ inductionHypothesis =>
    exact Nat.le_trans (Nat.le_of_lt (rises _ pointed)) inductionHypothesis

theorem rank_lt {rank : κ → Nat}
    (rises : ∀ node, parent node ≠ node → rank node < rank (parent node))
    (leads : Leads parent node root) (below : node ≠ root) :
    rank node < rank root := by
  cases leads with
  | root _ => exact absurd rfl below
  | step pointed onward =>
    exact Nat.lt_of_lt_of_le (rises _ pointed) (onward.rank_le rises)

end Leads

section Follow

variable [DecidableEq κ] {parent : κ → κ}

theorem leads_link {winner loser : κ} (winnerRoot : parent winner = winner)
    (loserRoot : parent loser = loser) (distinct : winner ≠ loser)
    {node root : κ} (leads : Leads parent node root) :
    Leads (Function.update parent loser winner) node
      (if root = loser then winner else root) := by
  have winnerKept :
      Function.update parent loser winner winner = winner := by
    rw [Function.update_of_ne distinct, winnerRoot]
  induction leads with
  | @root node own =>
    split
    · next same =>
        subst same
        apply Leads.step
        · rw [Function.update_self]
          exact distinct
        · rw [Function.update_self]
          exact .root winnerKept
    · next other =>
        apply Leads.root
        rw [Function.update_of_ne other, own]
  | @step node root pointed _ inductionHypothesis =>
    have other : node ≠ loser := by
      intro same
      rw [same] at pointed
      exact pointed loserRoot
    apply Leads.step
    · rw [Function.update_of_ne other]
      exact pointed
    · rw [Function.update_of_ne other]
      exact inductionHypothesis

theorem leads_redirect {target root : κ}
    (targetLeads : Leads parent target root) {node end_ : κ}
    (leads : Leads parent node end_) :
    Leads (Function.update parent target root) node end_ := by
  have kept : Function.update parent target root root = root := by
    by_cases same : root = target
    · rw [same, Function.update_self]
    · rw [Function.update_of_ne same, targetLeads.parent_root]
  induction leads with
  | @root node own =>
    apply Leads.root
    by_cases same : node = target
    · subst same
      rw [Function.update_self]
      exact targetLeads.eq_of_root own
    · rw [Function.update_of_ne same, own]
  | @step node end_ pointed onward inductionHypothesis =>
    by_cases same : node = target
    · subst same
      have ends : root = end_ := targetLeads.unique (.step pointed onward)
      subst ends
      by_cases atRoot : root = node
      · rw [atRoot] at kept
        rw [atRoot]
        exact .root kept
      · apply Leads.step
        · rw [Function.update_self]
          exact atRoot
        · rw [Function.update_self]
          exact .root kept
    · apply Leads.step
      · rw [Function.update_of_ne same]
        exact pointed
      · rw [Function.update_of_ne same]
        exact inductionHypothesis

end Follow

end Mendpoint.Library
