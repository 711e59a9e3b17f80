import Mathlib.Data.List.Nodup
import Mathlib.Logic.Relation
import Mathlib.Data.List.Forall2
import Mathlib.Data.List.Induction

/-!
# Rows which supersede one another

A table to which rows are only appended, where a row may supersede an earlier
one.  Where none is superseded twice the rows form chains, each in one line.
-/

namespace Mendpoint.Library.Succession

universe u v

variable {ρ : Type u} {κ : Type v}

section Chains

variable (key : ρ → κ) (supersedes : ρ → Option κ)

/-- A row of a table supersedes another one of it. -/
def Supersedes (rows : List ρ) (prior row : ρ) : Prop :=
  prior ∈ rows ∧ row ∈ rows ∧ supersedes row = some (key prior)

/-- A row is another one, or a later state of its chain. -/
def Later (rows : List ρ) : ρ → ρ → Prop :=
  Relation.ReflTransGen (Supersedes key supersedes rows)

/-- A row which nothing supersedes. -/
def IsHead (rows : List ρ) (row : ρ) : Prop :=
  row ∈ rows ∧ ∀ other ∈ rows, supersedes other ≠ some (key row)

/-- A row which may be appended: it is new, and so is what it supersedes. -/
structure Extends (rows : List ρ) (row : ρ) : Prop where
  fresh : ∀ other ∈ rows, key other ≠ key row
  known : ∀ prior, supersedes row = some prior →
    ∃ other ∈ rows, key other = prior
  first : ∀ prior, supersedes row = some prior →
    ∀ other ∈ rows, supersedes other ≠ some prior

/-- A table built by appending rows which may be appended. -/
inductive Grown : List ρ → Prop where
  | nil : Grown []
  | snoc {rows : List ρ} {row : ρ} (grown : Grown rows)
      (extending : Extends key supersedes rows row) : Grown (rows ++ [row])

/-- The rows form disjoint chains, each of which is in one line. -/
structure LinearChains (rows : List ρ) : Prop where
  once : ∀ prior left right,
    Supersedes key supersedes rows prior left →
    Supersedes key supersedes rows prior right → left = right
  onward : ∀ prior left right, Later key supersedes rows prior left →
    Later key supersedes rows prior right →
    Later key supersedes rows left right ∨
      Later key supersedes rows right left
  backward : ∀ left right row, Later key supersedes rows left row →
    Later key supersedes rows right row →
    Later key supersedes rows left right ∨
      Later key supersedes rows right left
  acyclic : ∀ row,
    ¬ Relation.TransGen (Supersedes key supersedes rows) row row

/-- Each row supersedes the one before it, and the first one what is given. -/
def Line : Option κ → List ρ → Prop
  | _, [] => True
  | prior, row :: rest =>
    supersedes row = prior ∧ Line (some (key row)) rest

end Chains

variable {key : ρ → κ} {supersedes : ρ → Option κ} {rows : List ρ}

namespace Grown

theorem nodup (grown : Grown key supersedes rows) :
    (rows.map key).Nodup := by
  induction grown with
  | nil => exact List.nodup_nil
  | snoc grown extending inductionHypothesis =>
    rw [List.map_append, List.map_singleton, ← List.concat_eq_append,
      List.nodup_concat]
    refine ⟨fun member => ?_, inductionHypothesis⟩
    rcases List.mem_map.mp member with ⟨other, inside, same⟩
    exact extending.fresh other inside same

theorem eq_of_key (grown : Grown key supersedes rows) {left right : ρ}
    (leftMem : left ∈ rows) (rightMem : right ∈ rows)
    (same : key left = key right) : left = right :=
  List.inj_on_of_nodup_map grown.nodup leftMem rightMem same

theorem known (grown : Grown key supersedes rows) {row : ρ}
    (member : row ∈ rows) {prior : κ} (named : supersedes row = some prior) :
    ∃ other ∈ rows, key other = prior := by
  induction grown with
  | nil => cases member
  | @snoc earlier last grown extending inductionHypothesis =>
    rcases List.mem_append.mp member with inside | new
    · rcases inductionHypothesis inside with ⟨other, known, same⟩
      exact ⟨other, List.mem_append_left _ known, same⟩
    · rw [List.mem_singleton] at new
      subst new
      rcases extending.known prior named with ⟨other, known, same⟩
      exact ⟨other, List.mem_append_left _ known, same⟩

theorem once (grown : Grown key supersedes rows) {left right : ρ}
    (leftMem : left ∈ rows) (rightMem : right ∈ rows) {prior : κ}
    (leftNamed : supersedes left = some prior)
    (rightNamed : supersedes right = some prior) : left = right := by
  induction grown with
  | nil => cases leftMem
  | @snoc earlier last grown extending inductionHypothesis =>
    rcases List.mem_append.mp leftMem with leftOld | leftNew
    · rcases List.mem_append.mp rightMem with rightOld | rightNew
      · exact inductionHypothesis leftOld rightOld
      · rw [List.mem_singleton] at rightNew
        subst rightNew
        exact absurd leftNamed
          (extending.first prior rightNamed left leftOld)
    · rw [List.mem_singleton] at leftNew
      subst leftNew
      rcases List.mem_append.mp rightMem with rightOld | rightNew
      · exact absurd rightNamed
          (extending.first prior leftNamed right rightOld)
      · exact (List.mem_singleton.mp rightNew).symm

theorem supersedes_snoc {row : ρ} (grown : Grown key supersedes rows)
    (extending : Extends key supersedes rows row) {prior later : ρ}
    (step : Supersedes key supersedes (rows ++ [row]) prior later) :
    prior ∈ rows ∧
      (later = row ∨ Supersedes key supersedes rows prior later) := by
  rcases step with ⟨priorMem, laterMem, named⟩
  have later_cases : later ∈ rows ∨ later = row :=
    (List.mem_append.mp laterMem).imp_right List.mem_singleton.mp
  have old : ∃ other ∈ rows, key other = key prior := by
    rcases later_cases with inside | rfl
    · exact grown.known inside named
    · exact extending.known _ named
  have inside : prior ∈ rows := by
    rcases List.mem_append.mp priorMem with inside | new
    · exact inside
    · rw [List.mem_singleton] at new
      subst new
      rcases old with ⟨other, member, same⟩
      exact absurd same (extending.fresh other member)
  rcases later_cases with laterInside | rfl
  · exact ⟨inside, .inr ⟨inside, laterInside, named⟩⟩
  · exact ⟨inside, .inl rfl⟩

theorem acyclic (grown : Grown key supersedes rows) (row : ρ) :
    ¬ Relation.TransGen (Supersedes key supersedes rows) row row := by
  induction grown generalizing row with
  | nil =>
    intro path
    rcases Relation.TransGen.head'_iff.mp path with ⟨next, step, _⟩
    cases step.1
  | @snoc earlier last grown extending inductionHypothesis =>
    have confined : ∀ start stop, Relation.TransGen
        (Supersedes key supersedes (earlier ++ [last])) start stop →
        start ∈ earlier ∧ (stop = last ∨ Relation.TransGen
          (Supersedes key supersedes earlier) start stop) := by
      intro start stop path
      induction path with
      | single step =>
        exact (grown.supersedes_snoc extending step).imp_right
          (Or.imp_right .single)
      | tail path step pathHypothesis =>
        refine ⟨pathHypothesis.1, ?_⟩
        have next := grown.supersedes_snoc extending step
        refine next.2.imp_right fun inner => ?_
        rcases pathHypothesis.2 with rfl | within
        · exact absurd rfl (extending.fresh _ next.1)
        · exact within.tail inner
    intro path
    rcases confined row row path with ⟨inside, rfl | within⟩
    · exact extending.fresh row inside rfl
    · exact inductionHypothesis row within

theorem linearChains (grown : Grown key supersedes rows) :
    LinearChains key supersedes rows where
  once _ _ _ leftStep rightStep :=
    grown.once leftStep.2.1 rightStep.2.1 leftStep.2.2 rightStep.2.2
  onward _ _ _ leftPath rightPath :=
    Relation.ReflTransGen.total_of_right_unique
      (fun _ _ _ leftStep rightStep =>
        grown.once leftStep.2.1 rightStep.2.1 leftStep.2.2 rightStep.2.2)
      leftPath rightPath
  backward left right row leftPath rightPath := by
    have unique : Relator.RightUnique
        (Function.swap (Supersedes key supersedes rows)) := by
      intro later one two oneStep twoStep
      refine grown.eq_of_key oneStep.1 twoStep.1 ?_
      rw [← Option.some_inj, ← oneStep.2.2, ← twoStep.2.2]
    have turned := Relation.ReflTransGen.total_of_right_unique unique
      leftPath.swap rightPath.swap
    rcases turned with path | path
    · exact .inr path.swap
    · exact .inl path.swap
  acyclic := grown.acyclic

end Grown

theorem Later.carries {property : ρ → Prop}
    (handed : ∀ prior row, Supersedes key supersedes rows prior row →
      property prior → property row)
    {prior row : ρ} (later : Later key supersedes rows prior row)
    (holds : property prior) : property row := by
  induction later with
  | refl => exact holds
  | tail _ step inductionHypothesis =>
    exact handed _ _ step inductionHypothesis

/-! ## One line -/

theorem line_concat {prior : Option κ} {row : ρ} :
    Line key supersedes prior (rows ++ [row]) ↔
      Line key supersedes prior rows ∧
        supersedes row = (rows.getLast?.map key).or prior := by
  induction rows generalizing prior with
  | nil =>
    rw [List.nil_append, Line, Line, Line, List.getLast?_nil,
      Option.map_none, Option.none_or, and_true, true_and]
  | cons first rest inductionHypothesis =>
    rw [List.cons_append, Line, Line, inductionHypothesis, and_assoc]
    cases rest with
    | nil => rfl
    | cons second others =>
      rw [List.getLast?_cons_cons, List.getLast?_cons, Option.map_some,
        Option.some_or, Option.some_or]

theorem line_map {α : Type u} {row : α → ρ} {prior : Option κ}
    {items : List α} :
    Line key supersedes prior (items.map row) ↔
      Line (fun item => key (row item)) (fun item => supersedes (row item))
        prior items := by
  induction items generalizing prior with
  | nil => exact Iff.rfl
  | cons first rest inductionHypothesis =>
    rw [List.map_cons, Line, Line, inductionHypothesis]

end Mendpoint.Library.Succession

/-!
## Hash chains

Lists in which every entry is valid for its place and for the hash of the entry
before it.  Where the hash of a valid entry determines the hash before it and
the entry up to a relation, the last hash determines the whole list up to that
relation.
-/

namespace Mendpoint.Library.HashChain

universe u v

variable {ε : Type u} {η : Type v}

/-- The hash at the end of a list. -/
def lastHash (hash : ε → η) (entries : List ε) : Option η :=
  entries.getLast?.map hash

@[simp]
theorem lastHash_nil (hash : ε → η) : lastHash hash [] = none := rfl

@[simp]
theorem lastHash_append_singleton (hash : ε → η) (entries : List ε)
    (entry : ε) : lastHash hash (entries ++ [entry]) = some (hash entry) := by
  rw [lastHash, List.getLast?_concat, Option.map_some]

/-- Every entry is valid for the hash before it and its place. -/
def Linked (valid : Option η → Nat → ε → Prop) (hash : ε → η)
    (entries : List ε) : Prop :=
  ∀ front entry back, entries = front ++ entry :: back →
    valid (lastHash hash front) front.length entry

variable {valid validOther : Option η → Nat → ε → Prop} {hash : ε → η}

theorem linked_nil : Linked valid hash [] := by
  intro front entry back split
  cases front with
  | nil => cases split
  | cons => cases split

theorem Linked.front {first second : List ε}
    (linked : Linked valid hash (first ++ second)) :
    Linked valid hash first := by
  intro front entry back split
  apply linked front entry (back ++ second)
  rw [split, List.append_assoc, List.cons_append]

theorem linked_append_singleton {entries : List ε} {entry : ε} :
    Linked valid hash (entries ++ [entry]) ↔
      Linked valid hash entries ∧
        valid (lastHash hash entries) entries.length entry := by
  constructor
  · intro linked
    exact ⟨linked.front, linked entries entry [] rfl⟩
  · rintro ⟨linked, validLast⟩ front other back split
    rcases List.append_eq_append_iff.mp split with
      ⟨later, frontEq, tailEq⟩ | ⟨later, entriesEq, tailEq⟩
    · cases later with
      | nil =>
        rw [List.append_nil] at frontEq
        rw [List.nil_append] at tailEq
        cases tailEq
        rw [frontEq]
        exact validLast
      | cons _ more =>
        have lengths := congrArg List.length tailEq
        simp only [List.length_cons, List.length_nil, List.length_append]
          at lengths
        omega
    · cases later with
      | nil =>
        rw [List.append_nil] at entriesEq
        rw [List.nil_append] at tailEq
        cases tailEq
        rw [← entriesEq]
        exact validLast
      | cons there more =>
        rw [List.cons_append] at tailEq
        cases tailEq
        exact linked front other more entriesEq

theorem forall₂_of_lastHash {related : ε → ε → Prop}
    (determined : ∀ before before' index index' entry entry',
      valid before index entry → validOther before' index' entry' →
      hash entry = hash entry' → before = before' ∧ related entry entry')
    {entries others : List ε} (linked : Linked valid hash entries)
    (linkedOthers : Linked validOther hash others)
    (same : lastHash hash entries = lastHash hash others) :
    List.Forall₂ related entries others := by
  induction entries using List.reverseRecOn generalizing others with
  | nil =>
    cases others using List.reverseRecOn with
    | nil => exact .nil
    | append_singleton front entry =>
      rw [lastHash_nil, lastHash_append_singleton] at same
      cases same
  | append_singleton front entry inductionHypothesis =>
    cases others using List.reverseRecOn with
    | nil =>
      rw [lastHash_nil, lastHash_append_singleton] at same
      cases same
    | append_singleton front' entry' =>
      rw [lastHash_append_singleton, lastHash_append_singleton,
        Option.some.injEq] at same
      rcases linked_append_singleton.mp linked with ⟨left, here⟩
      rcases linked_append_singleton.mp linkedOthers with ⟨right, there⟩
      rcases determined _ _ _ _ _ _ here there same with
        ⟨sameBefore, isRelated⟩
      exact List.rel_append (inductionHypothesis left right sameBefore)
        (.cons isRelated .nil)

end Mendpoint.Library.HashChain
