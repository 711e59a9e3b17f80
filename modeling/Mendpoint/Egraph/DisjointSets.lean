import Mathlib.Data.List.Induction
import Mathlib.Logic.Relation
import Mendpoint.Library.PointerForest
import Mendpoint.Library.OrderedMap

/-!
# Disjoint sets

The maps of the union-find structure, as its calls leave them: looking an id
up makes the ids on its way, and points them at the leader which it returns.
Ranks rise along the pointers, and no rank is above the number of the calls;
so the pointers have no cycles and `find` comes to an end.
-/

namespace Mendpoint.Egraph

open Mendpoint.Library

/-- The maps of a `UnionFind`. -/
structure DisjointSets (κ : Type) where
  parent : OrderedMap κ κ
  rank : OrderedMap κ Nat

namespace DisjointSets

variable {κ : Type} [DecidableEq κ]

def empty : DisjointSets κ where
  parent := OrderedMap.empty
  rank := OrderedMap.empty

def makeSet (uf : DisjointSets κ) (id : κ) : DisjointSets κ :=
  if uf.parent.has id then uf
  else { parent := uf.parent.set id id, rank := uf.rank.set id 0 }

/-- `find`, where at most so many calls of it may be open at a time. -/
def find : Nat → κ → DisjointSets κ → Option (κ × DisjointSets κ)
  | 0, _, _ => none
  | depth + 1, id, uf =>
    let made := uf.makeSet id
    let p := made.parent.getD id id
    if p ≠ id then do
      let (leader, found) ← find depth p made
      return (leader, { found with parent := found.parent.set id leader })
    else some (p, made)

/-- The first of two leaders above the second, which has no higher rank. -/
def link (uf : DisjointSets κ) (ra rb : κ) : DisjointSets κ :=
  let rankA := uf.rank.getD ra 0
  let rankB := uf.rank.getD rb 0
  let winner := if rankA < rankB then rb else ra
  let loser := if rankA < rankB then ra else rb
  { parent := uf.parent.set loser winner
    rank := if rankA = rankB then uf.rank.set winner (rankA + 1)
      else uf.rank }

/-- Returns true if a merge happened. -/
def union (depth : Nat) (a b : κ) (uf : DisjointSets κ) :
    Option (Bool × DisjointSets κ) := do
  let (ra, uf) ← find depth a uf
  let (rb, uf) ← find depth b uf
  if ra = rb then return (false, uf)
  return (true, uf.link ra rb)

def same (depth : Nat) (a b : κ) (uf : DisjointSets κ) :
    Option (Bool × DisjointSets κ) := do
  let (ra, uf) ← find depth a uf
  let (rb, uf) ← find depth b uf
  return (decide (ra = rb), uf)

/-- A call on the structure. -/
inductive Call (κ : Type) where
  | makeSet (id : κ)
  | find (id : κ)
  | union (a b : κ)

def Call.run (depth : Nat) (call : Call κ) (uf : DisjointSets κ) :
    Option (DisjointSets κ) :=
  match call with
  | .makeSet id => some (uf.makeSet id)
  | .find id => (DisjointSets.find depth id uf).map Prod.snd
  | .union a b => (DisjointSets.union depth a b uf).map Prod.snd

/-- The structure after calls on a new one. -/
def run (depth : Nat) (calls : List (Call κ)) : Option (DisjointSets κ) :=
  calls.foldlM (fun uf call => call.run depth uf) empty

variable (uf : DisjointSets κ)

/-! ## Pointers and ranks -/

/-- Where an id points. -/
def parentOf (id : κ) : κ :=
  uf.parent.getD id id

def rankOf (id : κ) : Nat :=
  uf.rank.getD id 0

/-- An id has been made. -/
def Has (id : κ) : Prop :=
  uf.parent.get? id ≠ none

/-- One id points at another. -/
def Points (id other : κ) : Prop :=
  uf.parent.get? id = some other ∧ other ≠ id

/-- Pointers lead to roots, along rising ranks which are bounded. -/
structure Rooted (uf : DisjointSets κ) (root : κ → κ) (height : Nat) :
    Prop where
  leads : ∀ id, Leads uf.parentOf id (root id)
  rises : ∀ id, uf.parentOf id ≠ id →
    uf.rankOf id < uf.rankOf (uf.parentOf id)
  bounded : ∀ id, uf.rankOf id ≤ height
  ranked : ∀ id, uf.parent.get? id = none → uf.rank.get? id = none

theorem rooted_empty : Rooted (empty : DisjointSets κ) id 0 where
  leads _ := .root rfl
  rises _ pointed := absurd rfl pointed
  bounded _ := Nat.le_refl 0
  ranked _ _ := rfl

variable {uf} {root : κ → κ} {height depth : Nat}

namespace Rooted

variable (rooted : Rooted uf root height)

include rooted

theorem root_eq {id other : κ} (leads : Leads uf.parentOf id other) :
    root id = other :=
  (rooted.leads id).unique leads

theorem parentOf_root (id : κ) : uf.parentOf (root id) = root id :=
  (rooted.leads id).parent_root

theorem root_root (id : κ) : root (root id) = root id :=
  rooted.root_eq (.root (rooted.parentOf_root id))

theorem root_parentOf (id : κ) (pointed : uf.parentOf id ≠ id) :
    root (uf.parentOf id) = root id :=
  rooted.root_eq ((rooted.leads id).tail pointed)

theorem weaken {higher : Nat} (above : height ≤ higher) :
    Rooted uf root higher :=
  { rooted with
    bounded := fun id => Nat.le_trans (rooted.bounded id) above }

theorem rank_lt_of_points {id other : κ}
    (chain : Relation.TransGen uf.Points id other) :
    uf.rankOf id < uf.rankOf other := by
  have step {one two : κ} (points : uf.Points one two) :
      uf.rankOf one < uf.rankOf two := by
    have parent : uf.parentOf one = two := by
      rw [parentOf, OrderedMap.getD, points.1]
      rfl
    have rises := rooted.rises one
    rw [parent] at rises
    exact rises points.2
  induction chain with
  | single points => exact step points
  | tail _ points inductionHypothesis =>
    exact Nat.lt_trans inductionHypothesis (step points)

/-- No chain of pointers comes back to where it starts. -/
theorem acyclic (id : κ) : ¬ Relation.TransGen uf.Points id id :=
  fun chain => Nat.lt_irrefl _ (rooted.rank_lt_of_points chain)

end Rooted

/-! ## New ids -/

theorem has_iff {id : κ} : uf.parent.has id = true ↔ uf.Has id := by
  rw [OrderedMap.has_iff, Has, OrderedMap.mem_keys_iff]
  exact Option.ne_none_iff_exists'.symm

theorem parentOf_makeSet (id : κ) : (uf.makeSet id).parentOf = uf.parentOf := by
  rw [makeSet]
  split
  · rfl
  · next absent =>
      rw [has_iff, Has, not_not] at absent
      ext node
      rw [parentOf, parentOf, OrderedMap.getD_set]
      split
      · next here =>
          rw [← here, OrderedMap.getD, absent]
          rfl
      · rfl

theorem Rooted.rankOf_makeSet (rooted : Rooted uf root height) (id : κ) :
    (uf.makeSet id).rankOf = uf.rankOf := by
  rw [makeSet]
  split
  · rfl
  · next absent =>
      rw [has_iff, Has, not_not] at absent
      ext node
      rw [rankOf, rankOf, OrderedMap.getD_set]
      split
      · next here =>
          rw [← here, OrderedMap.getD, rooted.ranked id absent]
          rfl
      · rfl

theorem has_makeSet {id other : κ} :
    (uf.makeSet id).Has other ↔ other = id ∨ uf.Has other := by
  rw [makeSet]
  split
  · next present =>
      constructor
      · exact Or.inr
      · rintro (rfl | has)
        · exact has_iff.mp present
        · exact has
  · rw [Has, OrderedMap.get?_set]
    split
    · next here => simp [here]
    · next other' => simp [Has, Ne.symm other']

theorem Rooted.makeSet (rooted : Rooted uf root height) (id : κ) :
    Rooted (uf.makeSet id) root height where
  leads node := by
    rw [parentOf_makeSet]
    exact rooted.leads node
  rises node := by
    rw [parentOf_makeSet, rooted.rankOf_makeSet]
    exact rooted.rises node
  bounded node := by
    rw [rooted.rankOf_makeSet]
    exact rooted.bounded node
  ranked node missing := by
    have lacks : ¬ (uf.makeSet id).Has node := not_not.mpr missing
    rw [has_makeSet, not_or, Has, not_not] at lacks
    rw [DisjointSets.makeSet]
    split
    · exact rooted.ranked node lacks.2
    · rw [OrderedMap.get?_set_of_ne _ _ (Ne.symm lacks.1)]
      exact rooted.ranked node lacks.2

/-! ## Finding leaders -/

/-- What looking an id up leaves as it was. -/
structure Kept (uf next : DisjointSets κ) : Prop where
  ranks : next.rankOf = uf.rankOf
  has : ∀ id, uf.Has id → next.Has id

theorem Kept.trans {next last : DisjointSets κ} (kept : Kept uf next)
    (keptNext : Kept next last) : Kept uf last where
  ranks := keptNext.ranks.trans kept.ranks
  has id present := keptNext.has id (kept.has id present)

/-- An id pointed at the leader of it. -/
def compressed (uf : DisjointSets κ) (id leader : κ) : DisjointSets κ :=
  { uf with parent := uf.parent.set id leader }

theorem parentOf_compressed (id leader : κ) :
    (uf.compressed id leader).parentOf =
      Function.update uf.parentOf id leader := by
  ext node
  rw [parentOf, compressed, OrderedMap.getD_set, Function.update_apply]
  by_cases here : id = node
  · rw [if_pos here, if_pos here.symm]
  · rw [if_neg here, if_neg (Ne.symm here)]
    rfl

theorem Rooted.compressed (rooted : Rooted uf root height) (id : κ) :
    Rooted (uf.compressed id (root id)) root height where
  leads node := by
    rw [parentOf_compressed]
    exact leads_redirect (rooted.leads id) (rooted.leads node)
  rises node pointed := by
    rw [parentOf_compressed, Function.update_apply] at pointed ⊢
    split at pointed
    · next here =>
        rw [if_pos here, here]
        rw [here] at pointed
        exact (rooted.leads id).rank_lt rooted.rises (Ne.symm pointed)
    · next other =>
        rw [if_neg other]
        exact rooted.rises node pointed
  bounded node := rooted.bounded node
  ranked node missing := by
    apply rooted.ranked node
    by_cases here : id = node
    · rw [here, DisjointSets.compressed, OrderedMap.get?_set_self] at missing
      cases missing
    · rw [DisjointSets.compressed, OrderedMap.get?_set_of_ne _ _ here]
        at missing
      exact missing

theorem kept_compressed (id leader : κ) :
    Kept uf (uf.compressed id leader) where
  ranks := rfl
  has node present := by
    rw [Has, compressed, OrderedMap.get?_set]
    split
    · exact Option.some_ne_none _
    · exact present

theorem find_succ (id : κ) (uf : DisjointSets κ) :
    find (depth + 1) id uf =
      if uf.parentOf id = id then some (id, uf.makeSet id)
      else (find depth (uf.parentOf id) (uf.makeSet id)).map fun found =>
        (found.1, found.2.compressed id found.1) := by
  have pointer : (uf.makeSet id).parent.getD id id = uf.parentOf id :=
    congrFun (parentOf_makeSet id) id
  rw [find]
  simp only [pointer]
  by_cases own : uf.parentOf id = id
  · rw [if_neg (not_not.mpr own), if_pos own, own]
  · rw [if_pos own, if_neg own]
    cases find depth (uf.parentOf id) (uf.makeSet id) with
    | none => rfl
    | some found => rfl

/-- `find` comes to an end, at the leader, and no leader changes. -/
theorem Rooted.find_eq (rooted : Rooted uf root height) {id : κ}
    (enough : height < uf.rankOf id + depth) :
    ∃ next, find depth id uf = some (root id, next) ∧
      Rooted next root height ∧ Kept uf next ∧ next.Has (root id) := by
  induction depth generalizing id uf with
  | zero => exact absurd (rooted.bounded id) (Nat.not_le.mpr enough)
  | succ depth inductionHypothesis =>
    have made : Kept uf (uf.makeSet id) :=
      ⟨rooted.rankOf_makeSet id, fun _ has => has_makeSet.mpr (Or.inr has)⟩
    rw [find_succ]
    by_cases own : uf.parentOf id = id
    · rw [if_pos own, rooted.root_eq (.root own)]
      exact ⟨uf.makeSet id, rfl, rooted.makeSet id, made,
        has_makeSet.mpr (Or.inl rfl)⟩
    · have above := rooted.rises id own
      have sameRoot : root (uf.parentOf id) = root id :=
        rooted.root_parentOf id own
      have deeper : height <
          (uf.makeSet id).rankOf (uf.parentOf id) + depth := by
        rw [rooted.rankOf_makeSet]
        omega
      rcases inductionHypothesis (rooted.makeSet id) deeper with
        ⟨next, found, rootedNext, kept, has⟩
      rw [sameRoot] at found has
      rw [if_neg own, found]
      have compress := @kept_compressed _ _ next id (root id)
      exact ⟨_, rfl, rootedNext.compressed id,
        (made.trans kept).trans compress, compress.has _ has⟩

theorem Rooted.find_within (rooted : Rooted uf root height) (id : κ)
    (enough : height < depth) :
    ∃ next, find depth id uf = some (root id, next) ∧
      Rooted next root height ∧ Kept uf next ∧ next.Has (root id) :=
  rooted.find_eq (Nat.lt_of_lt_of_le enough (Nat.le_add_left _ _))

/-! ## Joining classes -/

/-- The classes of two ids become one. -/
structure Joined (root next : κ → κ) (a b : κ) : Prop where
  iff : ∀ x y, next x = next y ↔
    root x = root y ∨ (root x = root a ∧ root y = root b) ∨
      (root x = root b ∧ root y = root a)

omit [DecidableEq κ] in
theorem joined_of_same {a b : κ} (same : root a = root b) :
    Joined root root a b where
  iff x y := by
    constructor
    · exact Or.inl
    · rintro (here | ⟨first, second⟩ | ⟨first, second⟩)
      · exact here
      · rw [first, second, same]
      · rw [first, second, same]

/-- The roots once a loser is below a winner. -/
def below (root : κ → κ) (winner loser id : κ) : κ :=
  if root id = loser then winner else root id

theorem joined_below {a b winner loser : κ} (distinct : winner ≠ loser)
    (ends : (winner = root a ∧ loser = root b) ∨
      (winner = root b ∧ loser = root a)) :
    Joined root (below root winner loser) a b where
  iff x y := by
    have cases' : below root winner loser x = below root winner loser y ↔
        root x = root y ∨ (root x = winner ∧ root y = loser) ∨
          (root x = loser ∧ root y = winner) := by
      rw [below, below]
      by_cases atX : root x = loser
      · by_cases atY : root y = loser
        · simp [atX, atY]
        · simp only [atX, atY, if_true, if_false, true_and, and_false,
            false_or, eq_comm]
          constructor
          · exact Or.inr
          · rintro (same | same)
            · exact absurd same.symm atY
            · exact same
      · by_cases atY : root y = loser
        · simp [atX, atY]
        · simp [atX, atY]
    rw [cases']
    rcases ends with ⟨rfl, rfl⟩ | ⟨rfl, rfl⟩
    · rfl
    · rw [or_comm (a := root x = root b ∧ root y = root a)]

/-- A leader which ranks no higher is put below another. -/
theorem Rooted.linked (rooted : Rooted uf root height) {winner loser : κ}
    {rank : OrderedMap κ Nat} (winnerRoot : uf.parentOf winner = winner)
    (loserRoot : uf.parentOf loser = loser) (distinct : winner ≠ loser)
    (has : uf.Has winner) (above : uf.rankOf loser ≤ uf.rankOf winner)
    (isRank : rank = if uf.rankOf winner = uf.rankOf loser then
      uf.rank.set winner (uf.rankOf winner + 1) else uf.rank) :
    Rooted { parent := uf.parent.set loser winner, rank := rank }
      (below root winner loser) (height + 1) := by
  have parents : parentOf
        { parent := uf.parent.set loser winner, rank := rank } =
      Function.update uf.parentOf loser winner :=
    parentOf_compressed loser winner
  have ranks (id : κ) : rankOf
        { parent := uf.parent.set loser winner, rank := rank } id =
      if id = winner ∧ uf.rankOf winner = uf.rankOf loser then
        uf.rankOf winner + 1 else uf.rankOf id := by
    rw [rankOf]
    show rank.getD id 0 = _
    rw [isRank]
    by_cases tie : uf.rankOf winner = uf.rankOf loser
    · rw [if_pos tie, OrderedMap.getD_set]
      by_cases here : winner = id
      · rw [if_pos here, if_pos ⟨here.symm, tie⟩]
      · rw [if_neg here, if_neg fun both => here both.1.symm]
        rfl
    · rw [if_neg tie, if_neg fun both => tie both.2]
      rfl
  refine ⟨fun id => ?_, fun id pointed => ?_, fun id => ?_,
    fun id missing => ?_⟩
  · rw [parents]
    exact leads_link winnerRoot loserRoot distinct (rooted.leads id)
  · rw [parents, Function.update_apply] at pointed ⊢
    rw [ranks, ranks]
    by_cases atLoser : id = loser
    · rw [if_pos atLoser]
      rw [atLoser, if_neg fun both => distinct both.1.symm]
      by_cases tie : uf.rankOf winner = uf.rankOf loser
      · rw [if_pos ⟨rfl, tie⟩]
        omega
      · rw [if_neg fun both => tie both.2]
        omega
    · rw [if_neg atLoser] at pointed ⊢
      have rises := rooted.rises id pointed
      have notWinner : id ≠ winner := by
        rintro rfl
        exact pointed winnerRoot
      rw [if_neg fun both => notWinner both.1]
      split
      · next both =>
          rw [both.1] at rises
          omega
      · exact rises
  · rw [ranks]
    have bounded := rooted.bounded id
    have boundedWinner := rooted.bounded winner
    split <;> omega
  · have other : loser ≠ id := by
      rintro rfl
      rw [OrderedMap.get?_set_self] at missing
      cases missing
    rw [OrderedMap.get?_set_of_ne _ _ other] at missing
    show rank.get? id = none
    rw [isRank]
    split
    · rw [OrderedMap.get?_set_of_ne]
      · exact rooted.ranked id missing
      · rintro rfl
        exact has missing
    · exact rooted.ranked id missing

theorem Rooted.link (rooted : Rooted uf root height) {a b : κ}
    (apart : root a ≠ root b) (hasA : uf.Has (root a))
    (hasB : uf.Has (root b)) :
    ∃ next, Rooted (uf.link (root a) (root b)) next (height + 1) ∧
      Joined root next a b := by
  have rankEq (id : κ) : uf.rank.getD id 0 = uf.rankOf id := rfl
  rw [DisjointSets.link]
  simp only [rankEq]
  by_cases lower : uf.rankOf (root a) < uf.rankOf (root b)
  · rw [if_pos lower, if_pos lower]
    refine ⟨below root (root b) (root a), ?_,
      joined_below (Ne.symm apart) (Or.inr ⟨rfl, rfl⟩)⟩
    refine rooted.linked (rooted.parentOf_root b) (rooted.parentOf_root a)
      (Ne.symm apart) hasB (Nat.le_of_lt lower) ?_
    rw [if_neg (Nat.ne_of_lt lower), if_neg (Nat.ne_of_gt lower)]
  · rw [if_neg lower, if_neg lower]
    exact ⟨below root (root a) (root b),
      rooted.linked (rooted.parentOf_root a) (rooted.parentOf_root b) apart
        hasA (Nat.le_of_not_lt lower) rfl,
      joined_below apart (Or.inl ⟨rfl, rfl⟩)⟩

theorem Rooted.same_eq (rooted : Rooted uf root height) (a b : κ)
    (enough : height < depth) :
    ∃ next, same depth a b uf = some (decide (root a = root b), next) ∧
      Rooted next root height ∧ next.Has (root a) ∧ next.Has (root b) := by
  rcases rooted.find_within a enough with
    ⟨first, foundA, rootedFirst, _, hasA⟩
  rcases rootedFirst.find_within b enough with
    ⟨next, foundB, rootedNext, kept, hasB⟩
  refine ⟨next, ?_, rootedNext, kept.has _ hasA, hasB⟩
  rw [same, foundA]
  simp only [Option.bind_eq_bind, Option.bind_some, foundB]
  rfl

/-- A union joins two classes, and tells whether they were apart. -/
theorem Rooted.union_eq (rooted : Rooted uf root height) (a b : κ)
    (enough : height < depth) :
    ∃ last next, union depth a b uf =
        some (decide (root a ≠ root b), last) ∧
      Rooted last next (height + 1) ∧ Joined root next a b := by
  rcases rooted.find_within a enough with
    ⟨first, foundA, rootedFirst, _, hasA⟩
  rcases rootedFirst.find_within b enough with
    ⟨second, foundB, rootedSecond, kept, hasB⟩
  rw [union, foundA]
  simp only [Option.bind_eq_bind, Option.bind_some, foundB]
  by_cases together : root a = root b
  · rw [if_pos together]
    exact ⟨second, root, by simp [together],
      rootedSecond.weaken (Nat.le_succ height), joined_of_same together⟩
  · rw [if_neg together]
    rcases rootedSecond.link together (kept.has _ hasA) hasB with
      ⟨next, rootedLast, joined⟩
    exact ⟨_, next, by simp [together], rootedLast, joined⟩

/-! ## Runs -/

/-- A union which was called. -/
def Unions (calls : List (Call κ)) (a b : κ) : Prop :=
  Call.union a b ∈ calls

/-- The classes of the ids are those which the unions make. -/
def Classes (root : κ → κ) (calls : List (Call κ)) : Prop :=
  ∀ a b, root a = root b ↔ Relation.EqvGen (Unions calls) a b

variable {calls : List (Call κ)} {call : Call κ}

omit [DecidableEq κ] in
theorem unions_mono {a b : κ} (related : Relation.EqvGen (Unions calls) a b) :
    Relation.EqvGen (Unions (calls ++ [call])) a b :=
  related.mono fun _ _ called => List.mem_append_left _ called

omit [DecidableEq κ] in
theorem classes_of_same (classes : Classes root calls)
    (noUnion : ∀ a b, call ≠ .union a b) : Classes root (calls ++ [call]) := by
  intro a b
  rw [classes a b]
  constructor
  · exact unions_mono
  · intro related
    apply related.mono
    intro x y called
    rcases List.mem_append.mp called with before | last
    · exact before
    · exact absurd (List.mem_singleton.mp last).symm (noUnion x y)

omit [DecidableEq κ] in
theorem classes_of_joined {next : κ → κ} {a b : κ}
    (classes : Classes root calls) (joined : Joined root next a b) :
    Classes next (calls ++ [.union a b]) := by
  have last : Relation.EqvGen (Unions (calls ++ [.union a b])) a b :=
    .rel _ _ (List.mem_append_right _ (List.mem_singleton.mpr rfl))
  have before {x y : κ} (same : root x = root y) :
      Relation.EqvGen (Unions (calls ++ [.union a b])) x y :=
    unions_mono ((classes x y).mp same)
  intro x y
  constructor
  · intro same
    rcases (joined.iff x y).mp same with here | ⟨atA, atB⟩ | ⟨atB, atA⟩
    · exact before here
    · exact (before atA).trans _ _ _ (last.trans _ _ _ (before atB.symm))
    · exact (before atB).trans _ _ _
        ((last.symm _ _).trans _ _ _ (before atA.symm))
  · intro related
    induction related with
    | rel x y called =>
      apply (joined.iff x y).mpr
      rcases List.mem_append.mp called with earlier | isLast
      · exact Or.inl ((classes x y).mpr (.rel _ _ earlier))
      · cases List.mem_singleton.mp isLast
        exact Or.inr (Or.inl ⟨rfl, rfl⟩)
    | refl x => rfl
    | symm _ _ _ inductionHypothesis => exact inductionHypothesis.symm
    | trans _ _ _ _ _ first second => exact first.trans second

theorem run_eq (calls : List (Call κ)) (enough : calls.length ≤ depth) :
    ∃ uf root, run depth calls = some uf ∧
      Rooted uf root calls.length ∧ Classes root calls := by
  induction calls using List.reverseRecOn with
  | nil =>
    refine ⟨empty, id, rfl, rooted_empty, fun a b => ⟨?_, fun related => ?_⟩⟩
    · rintro rfl
      exact .refl a
    · induction related with
      | rel _ _ called => cases called
      | refl _ => rfl
      | symm _ _ _ inductionHypothesis => exact inductionHypothesis.symm
      | trans _ _ _ _ _ first second => exact first.trans second
  | append_singleton calls call inductionHypothesis =>
    rw [List.length_append, List.length_singleton] at enough ⊢
    rcases inductionHypothesis (Nat.le_of_succ_le enough) with
      ⟨uf, root, before, rooted, classes⟩
    have ran : run depth (calls ++ [call]) = call.run depth uf := by
      rw [run, List.foldlM_append]
      rw [run] at before
      rw [before]
      exact bind_pure (call.run depth uf)
    rw [ran]
    cases call with
    | makeSet id =>
      exact ⟨uf.makeSet id, root, rfl,
        (rooted.makeSet id).weaken (Nat.le_succ _),
        classes_of_same classes fun _ _ same => by cases same⟩
    | find id =>
      rcases rooted.find_within id enough with
        ⟨next, found, rootedNext, _, _⟩
      refine ⟨next, root, ?_, rootedNext.weaken (Nat.le_succ _),
        classes_of_same classes fun _ _ same => by cases same⟩
      rw [Call.run, found]
      rfl
    | union a b =>
      rcases rooted.union_eq a b enough with
        ⟨last, next, united, rootedLast, joined⟩
      refine ⟨last, next, ?_, rootedLast, classes_of_joined classes joined⟩
      rw [Call.run, united]
      rfl

/-- After any calls, with room for one open call of `find` more than there
were calls: two ids are the same exactly where the unions relate them, `find`
comes to an end at one member of the class which finds itself, and no chain of
pointers comes back to its start. -/
theorem disjointSets_correct (calls : List (Call κ)) (depth : Nat)
    (enough : calls.length < depth) :
    ∃ uf, run depth calls = some uf ∧
      (∀ a b, ∃ answer next, same depth a b uf = some (answer, next) ∧
        (answer = true ↔ Relation.EqvGen (Unions calls) a b)) ∧
      (∀ id, ∃ leader next, find depth id uf = some (leader, next) ∧
        Relation.EqvGen (Unions calls) id leader ∧
        ∃ last, find depth leader next = some (leader, last)) ∧
      ∀ id, ¬ Relation.TransGen uf.Points id id := by
  rcases run_eq calls (Nat.le_of_lt enough) with
    ⟨uf, root, ran, rooted, classes⟩
  refine ⟨uf, ran, fun a b => ?_, fun id => ?_, rooted.acyclic⟩
  · rcases rooted.same_eq a b enough with ⟨next, answered, _⟩
    refine ⟨_, next, answered, ?_⟩
    rw [decide_eq_true_eq]
    exact classes a b
  · rcases rooted.find_within id enough with ⟨next, found, rootedNext, _⟩
    refine ⟨root id, next, found,
      (classes id (root id)).mp (rooted.root_root id).symm, ?_⟩
    rcases rootedNext.find_within (root id) enough with ⟨last, again, _⟩
    rw [rooted.root_root id] at again
    exact ⟨last, again⟩

theorem disjointSets_correct_chain :
    ∃ uf : DisjointSets Nat,
      run 4 [.union 1 2, .union 3 4, .union 4 2] = some uf ∧
      ∃ answer next, same 4 1 3 uf = some (answer, next) ∧
        (answer = true ↔ Relation.EqvGen
          (Unions [.union 1 2, .union 3 4, .union 4 2]) 1 3) := by
  rcases disjointSets_correct [.union 1 2, .union 3 4, .union 4 2] 4
    (by decide) with ⟨uf, ran, same, _⟩
  exact ⟨uf, ran, same 1 3⟩

end DisjointSets

end Mendpoint.Egraph
