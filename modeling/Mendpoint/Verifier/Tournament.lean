import Mathlib.Data.List.Rotate
import Mathlib.Data.Sym.Sym2
import Mathlib.Order.Lattice
import Mendpoint.Library.Delimited
import Mendpoint.Library.Fallible
import Mendpoint.Library.Numbers
import Mendpoint.Library.TextOrder

/-!
# Tournament schedules

The candidates of a verification meet in a ring, in a shuffled order.  The
best of them by the scores of the ring are the pivots, and every pair with a
pivot which the ring has left out is played after it.
-/

namespace Mendpoint.Verifier

open Mendpoint.Library
open Mendpoint.Library.Fallible

/-! ## Identifiers -/

/-- `[\u0000-\u001f\u007f]` -/
def isControl (char : Char) : Bool :=
  char.toNat ≤ 0x1f || char.toNat == 0x7f

def boundedText (value code : String) (maximum : Nat) :
    Except String String := do
  throwIf (Text.trim value ≠ value ∨ (Text.codeUnits value).length < 1 ∨
    maximum < (Text.codeUnits value).length ∨
    value.toList.any isControl = true) code
  return value

/-- `[._:-]` -/
def isSeparator (char : Char) : Bool :=
  char ∈ ['.', '_', ':', '-']

/-- `^[A-Za-z0-9]+(?:[._:-][A-Za-z0-9]+)*$` -/
def isIdentifier (value : String) : Bool :=
  (value.toList.splitOnP isSeparator).all fun part =>
    !part.isEmpty && part.all Pattern.isAlphanumeric

def identifier (value code : String) : Except String String := do
  let result ← boundedText value code 256
  throwIf (isIdentifier result = false) code
  return result

/-! ## Shuffling -/

/-- `[values[index], values[target]] = [values[target], values[index]]` -/
def swap (values : List String) (index target : Nat) : List String :=
  match values[index]?, values[target]? with
  | some left, some right => (values.set index right).set target left
  | _, _ => values

/-- One step of the generator, on 32 bits. -/
def advance (state : Nat) : Nat :=
  (state * 1664525 + 1013904223) % 2 ^ 32

/-- The swaps from an index down to the second place. -/
def shuffleFrom : Nat → Nat → List String → List String
  | 0, _, values => values
  | index + 1, state, values =>
    shuffleFrom index (advance state)
      (swap values (index + 1) (advance state * (index + 2) / 2 ^ 32))

def seededShuffle (values : List String) (seed : Int) :
    Except String (List String) := do
  throwIf (¬ (SafeInteger.Safe seed ∧ 0 ≤ seed ∧ seed ≤ 0x7fffffff))
    "verifier_seed_invalid"
  return shuffleFrom (values.length - 1) (seed.toNat ^^^ 0x9e3779b9) values

/-! ## The schedule -/

structure TournamentComparison where
  candidateAId : String
  candidateBId : String
  deriving DecidableEq

structure PivotTournamentSchedule where
  ring : List TournamentComparison
  pivot : List TournamentComparison
  pivotCandidateIds : List String
  comparisons : List TournamentComparison
  deriving DecidableEq

def pairKey (left right : String) : String :=
  if Text.codeUnitLe left right then left ++ "\x00" ++ right
  else right ++ "\x00" ++ left

def TournamentComparison.key (edge : TournamentComparison) : String :=
  pairKey edge.candidateAId edge.candidateBId

/-- Each candidate with the next one, and the last with the first. -/
def ringOf (order : List String) : List TournamentComparison :=
  if 1 < order.length then
    List.zipWith TournamentComparison.mk order (order.rotate 1)
  else []

universe u

section Scores

variable {ν : Type u} [LinearOrder ν] [Zero ν]

/-- The higher score first, and by code units where scores are equal. -/
def Ranked (ringScores : String → Option ν) (left right : String) : Prop :=
  (ringScores right).getD 0 < (ringScores left).getD 0 ∨
    (ringScores left).getD 0 = (ringScores right).getD 0 ∧
      Text.codeUnitLe left right = true

instance (ringScores : String → Option ν) : DecidableRel (Ranked ringScores) :=
  fun _ _ => inferInstanceAs (Decidable (_ ∨ _ ∧ _))

/-- The best candidates by their scores. -/
def pivotsOf (ringScores : String → Option ν) (candidateIds : List String)
    (pivots : Nat) : List String :=
  (candidateIds.insertionSort (Ranked ringScores)).take pivots

end Scores

/-- The pairs of a candidate which is no pivot with the pivots. -/
def outerPairs (candidateIds pivotCandidateIds : List String) :
    List TournamentComparison :=
  ((Text.sortTexts candidateIds).filter fun id =>
      decide (id ∉ pivotCandidateIds)).flatMap
    (fun id => pivotCandidateIds.map (TournamentComparison.mk id))

/-- The pairs of each element of a list with the later ones. -/
def laterPairs : List String → List TournamentComparison
  | [] => []
  | first :: rest =>
    rest.map (TournamentComparison.mk first) ++ laterPairs rest

/-- The pairs which the two loops add, those of the ring among them. -/
def pivotPairs (candidateIds pivotCandidateIds : List String) :
    List TournamentComparison :=
  outerPairs candidateIds pivotCandidateIds ++ laterPairs pivotCandidateIds

/-- The keys of the scheduled pairs, and the comparisons which are added. -/
structure Added where
  existingPairs : List String
  pivot : List TournamentComparison

def Added.add (added : Added) (edge : TournamentComparison) : Added :=
  if edge.key ∈ added.existingPairs then added
  else
    { existingPairs := added.existingPairs ++ [edge.key]
      pivot := added.pivot ++ [edge] }

def buildPivotTournamentSchedule {ν : Type u} [LinearOrder ν] [Zero ν]
    (candidateIdsInput : List String) (pivots seed : Int)
    (ringScores : String → Option ν) :
    Except String PivotTournamentSchedule := do
  throwIf (candidateIdsInput = []) "verifier_candidates_required"
  throwIf (64 < candidateIdsInput.length) "verifier_candidates_too_many"
  let candidateIds ← candidateIdsInput.mapM fun id =>
    identifier id "verifier_candidate_id_invalid"
  throwIf (¬ candidateIds.Nodup) "verifier_candidate_duplicate"
  throwIf (¬ (SafeInteger.Safe pivots ∧ 1 ≤ pivots ∧
    pivots ≤ candidateIds.length)) "verifier_pivots_invalid"
  let order ← seededShuffle candidateIds seed
  let ring := ringOf order
  let pivotCandidateIds := pivotsOf ringScores candidateIds pivots.toNat
  let added := (pivotPairs candidateIds pivotCandidateIds).foldl Added.add
    { existingPairs := ring.map TournamentComparison.key, pivot := [] }
  return {
    ring := ring
    pivot := added.pivot
    pivotCandidateIds := pivotCandidateIds
    comparisons := ring ++ added.pivot }

/-! ## The shuffled order -/

theorem swap_perm (values : List String) (index target : Nat) :
    (swap values index target).Perm values := by
  rw [swap]
  split
  · next left right isLeft isRight =>
      rcases List.getElem?_eq_some_iff.mp isLeft with ⟨inLeft, rfl⟩
      rcases List.getElem?_eq_some_iff.mp isRight with ⟨inRight, rfl⟩
      exact List.set_set_perm inLeft inRight
  · exact List.Perm.refl _

theorem shuffleFrom_perm (index state : Nat) (values : List String) :
    (shuffleFrom index state values).Perm values := by
  induction index generalizing state values with
  | zero => exact List.Perm.refl _
  | succ index inductionHypothesis =>
    exact (inductionHypothesis _ _).trans (swap_perm _ _ _)

/-! ## Pairs and their keys -/

/-- The two candidates of a comparison, in no order. -/
def TournamentComparison.pair (edge : TournamentComparison) : Sym2 String :=
  s(edge.candidateAId, edge.candidateBId)

/-- A text without NUL characters. -/
def Plain (value : String) : Prop :=
  ∀ char ∈ value.toList, decide (char ≠ '\x00') = true

theorem join_inj {left right first second : String} (plain : Plain left)
    (plainFirst : Plain first)
    (same : left ++ "\x00" ++ right = first ++ "\x00" ++ second) :
    left = first ∧ right = second := by
  have chars := congrArg String.toList same
  simp only [String.toList_append, List.append_assoc] at chars
  rcases Delimited.append_cons_inj_front plain plainFirst (by decide)
    (by decide) chars with ⟨fronts, _, backs⟩
  exact ⟨String.toList_inj.mp fronts, String.toList_inj.mp backs⟩

theorem pairKey_comm (left right : String) :
    pairKey left right = pairKey right left := by
  rw [pairKey, pairKey]
  by_cases forth : Text.codeUnitLe left right = true
  · by_cases back : Text.codeUnitLe right left = true
    · rw [Text.codeUnitLe_antisymm forth back]
    · rw [if_pos forth, if_neg back]
  · have back : Text.codeUnitLe right left = true :=
      (Text.unitsLe_total _ _).resolve_left forth
    rw [if_neg forth, if_pos back]

theorem pairKey_eq_or (left right : String) :
    pairKey left right = left ++ "\x00" ++ right ∨
      pairKey left right = right ++ "\x00" ++ left := by
  rw [pairKey]
  split
  · exact Or.inl rfl
  · exact Or.inr rfl

theorem pairKey_eq_iff {left right first second : String}
    (plain : Plain left) (plainRight : Plain right)
    (plainFirst : Plain first) (plainSecond : Plain second) :
    pairKey left right = pairKey first second ↔
      s(left, right) = s(first, second) := by
  rw [Sym2.eq_iff]
  constructor
  · intro same
    rcases pairKey_eq_or left right with here | here <;>
      rcases pairKey_eq_or first second with there | there <;>
        rw [here, there] at same
    · exact Or.inl (join_inj plain plainFirst same)
    · exact Or.inr (join_inj plain plainSecond same)
    · exact Or.inr (join_inj plainRight plainFirst same).symm
    · exact Or.inl (join_inj plainRight plainSecond same).symm
  · rintro (⟨rfl, rfl⟩ | ⟨rfl, rfl⟩)
    · rfl
    · exact pairKey_comm left right

/-- A comparison of two candidates of a list. -/
def TournamentComparison.Among (candidateIds : List String)
    (edge : TournamentComparison) : Prop :=
  edge.candidateAId ∈ candidateIds ∧ edge.candidateBId ∈ candidateIds

variable {candidateIds order pivotCandidateIds : List String}
  {pairs edges : List TournamentComparison}

theorem key_eq_iff (plain : ∀ id ∈ candidateIds, Plain id)
    {edge other : TournamentComparison} (among : edge.Among candidateIds)
    (within : other.Among candidateIds) :
    edge.key = other.key ↔ edge.pair = other.pair :=
  pairKey_eq_iff (plain _ among.1) (plain _ among.2) (plain _ within.1)
    (plain _ within.2)

theorem mem_map_key_iff (plain : ∀ id ∈ candidateIds, Plain id)
    {edge : TournamentComparison} (among : edge.Among candidateIds)
    (within : ∀ other ∈ edges, other.Among candidateIds) :
    edge.key ∈ edges.map TournamentComparison.key ↔
      edge.pair ∈ edges.map TournamentComparison.pair := by
  rw [List.mem_map, List.mem_map]
  refine exists_congr fun other => and_congr_right fun member => ?_
  exact key_eq_iff plain (within other member) among

/-! ## The ring -/

theorem ringOf_of_lt (many : 1 < order.length) :
    ringOf order =
      List.zipWith TournamentComparison.mk order (order.rotate 1) :=
  if_pos many

theorem ring_among {edge : TournamentComparison}
    (member : edge ∈ ringOf order) : edge.Among order := by
  rw [ringOf] at member
  split at member
  · rcases List.mem_iff_getElem.mp member with ⟨index, bound, rfl⟩
    rw [List.getElem_zipWith]
    exact ⟨List.getElem_mem _, (order.rotate_perm 1).mem_iff.mp
      (List.getElem_mem _)⟩
  · cases member

theorem ring_nodup (distinct : order.Nodup) (many : 3 ≤ order.length) :
    ((ringOf order).map TournamentComparison.pair).Nodup := by
  rw [ringOf_of_lt (by omega), List.Nodup, List.pairwise_iff_getElem]
  intro first second inFirst inSecond before same
  rw [List.length_map, List.length_zipWith, List.length_rotate,
    Nat.min_self] at inFirst inSecond
  rw [List.getElem_map, List.getElem_map, List.getElem_zipWith,
    List.getElem_zipWith, TournamentComparison.pair,
    TournamentComparison.pair, Sym2.eq_iff, List.getElem_rotate,
    List.getElem_rotate, distinct.getElem_inj_iff, distinct.getElem_inj_iff,
    distinct.getElem_inj_iff, distinct.getElem_inj_iff] at same
  rcases same with ⟨same, _⟩ | ⟨fronts, backs⟩
  · omega
  · by_cases last : second + 1 < order.length
    · rw [Nat.mod_eq_of_lt last] at fronts
      omega
    · have wrapped : second + 1 = order.length := by omega
      rw [wrapped, Nat.mod_self] at fronts
      rw [fronts, Nat.mod_eq_of_lt (by omega)] at backs
      omega

/-! ## The pairs with a pivot -/

theorem mem_laterPairs {first second : String} {values : List String}
    (inFirst : first ∈ values) (inSecond : second ∈ values)
    (apart : first ≠ second) :
    s(first, second) ∈ (laterPairs values).map TournamentComparison.pair := by
  induction values with
  | nil => cases inFirst
  | cons head rest inductionHypothesis =>
    rw [laterPairs, List.map_append, List.mem_append, List.map_map]
    rcases List.mem_cons.mp inFirst with rfl | laterFirst
    · rcases List.mem_cons.mp inSecond with rfl | laterSecond
      · exact absurd rfl apart
      · exact Or.inl (List.mem_map.mpr ⟨second, laterSecond, rfl⟩)
    · rcases List.mem_cons.mp inSecond with rfl | laterSecond
      · exact Or.inl (List.mem_map.mpr ⟨first, laterFirst, Sym2.eq_swap⟩)
      · exact Or.inr (inductionHypothesis laterFirst laterSecond)

theorem laterPairs_among {values : List String} {edge : TournamentComparison}
    (member : edge ∈ laterPairs values) : edge.Among values := by
  induction values with
  | nil => cases member
  | cons head rest inductionHypothesis =>
    rcases List.mem_append.mp member with here | later
    · rcases List.mem_map.mp here with ⟨other, inside, rfl⟩
      exact ⟨List.mem_cons_self, List.mem_cons_of_mem _ inside⟩
    · exact (inductionHypothesis later).imp (List.mem_cons_of_mem _)
        (List.mem_cons_of_mem _)

theorem laterPairs_nodup {values : List String} (distinct : values.Nodup) :
    ((laterPairs values).map TournamentComparison.pair).Nodup := by
  induction values with
  | nil => exact List.nodup_nil
  | cons head rest inductionHypothesis =>
    rw [List.nodup_cons] at distinct
    rw [laterPairs, List.map_append, List.map_map, List.nodup_append]
    refine ⟨distinct.2.map fun left right same => ?_,
      inductionHypothesis distinct.2, ?_⟩
    · exact Sym2.congr_right.mp same
    · intro pair here other there same
      rcases List.mem_map.mp here with ⟨second, _, rfl⟩
      rcases List.mem_map.mp there with ⟨edge, inside, rfl⟩
      have headIn : head ∈ edge.pair := same ▸ Sym2.mem_mk_left _ _
      rcases Sym2.mem_iff.mp headIn with rfl | rfl
      · exact distinct.1 (laterPairs_among inside).1
      · exact distinct.1 (laterPairs_among inside).2

theorem mem_outerPairs {edge : TournamentComparison} :
    edge ∈ outerPairs candidateIds pivotCandidateIds ↔
      edge.candidateAId ∈ candidateIds ∧
        edge.candidateAId ∉ pivotCandidateIds ∧
        edge.candidateBId ∈ pivotCandidateIds := by
  rw [outerPairs, List.mem_flatMap]
  constructor
  · rintro ⟨id, member, here⟩
    rcases List.mem_map.mp here with ⟨pivotId, inside, rfl⟩
    rw [List.mem_filter, decide_eq_true_eq,
      (Text.sortTexts_perm _).mem_iff] at member
    exact ⟨member.1, member.2, inside⟩
  · rintro ⟨member, outside, inside⟩
    refine ⟨edge.candidateAId, List.mem_filter.mpr
      ⟨(Text.sortTexts_perm _).mem_iff.mpr member,
        decide_eq_true outside⟩, ?_⟩
    exact List.mem_map.mpr ⟨edge.candidateBId, inside, rfl⟩

theorem outerPairs_nodup (distinct : candidateIds.Nodup)
    (distinctPivots : pivotCandidateIds.Nodup) :
    ((outerPairs candidateIds pivotCandidateIds).map
      TournamentComparison.pair).Nodup := by
  have edges : (outerPairs candidateIds pivotCandidateIds).Nodup := by
    rw [outerPairs, List.nodup_flatMap]
    refine ⟨fun id _ => distinctPivots.map fun left right same =>
      (TournamentComparison.mk.inj same).2, ?_⟩
    refine List.Pairwise.imp ?_
      (((Text.sortTexts_perm candidateIds).nodup_iff.mpr distinct).filter _)
    intro left right apart edge here there
    rcases List.mem_map.mp here with ⟨_, _, rfl⟩
    rcases List.mem_map.mp there with ⟨_, _, same⟩
    exact apart (TournamentComparison.mk.inj same).1.symm
  refine edges.map_on fun left isLeft right isRight same => ?_
  rw [mem_outerPairs] at isLeft isRight
  rcases left with ⟨first, second⟩
  rcases right with ⟨third, fourth⟩
  rcases Sym2.eq_iff.mp same with ⟨rfl, rfl⟩ | ⟨rfl, rfl⟩
  · rfl
  · exact absurd isRight.2.2 isLeft.2.1

theorem pivotPairs_nodup (distinct : candidateIds.Nodup)
    (distinctPivots : pivotCandidateIds.Nodup) :
    ((pivotPairs candidateIds pivotCandidateIds).map
      TournamentComparison.pair).Nodup := by
  rw [pivotPairs, List.map_append, List.nodup_append]
  refine ⟨outerPairs_nodup distinct distinctPivots,
    laterPairs_nodup distinctPivots, ?_⟩
  intro pair here other there same
  rcases List.mem_map.mp here with ⟨edge, outer, rfl⟩
  rcases List.mem_map.mp there with ⟨later, inner, rfl⟩
  have outside := (mem_outerPairs.mp outer).2.1
  have inside := laterPairs_among inner
  have named : edge.candidateAId ∈ later.pair :=
    same ▸ Sym2.mem_mk_left _ _
  rcases Sym2.mem_iff.mp named with equal | equal
  · exact outside (equal ▸ inside.1)
  · exact outside (equal ▸ inside.2)

theorem pivotPairs_among
    (known : ∀ id ∈ pivotCandidateIds, id ∈ candidateIds)
    {edge : TournamentComparison}
    (member : edge ∈ pivotPairs candidateIds pivotCandidateIds) :
    edge.Among candidateIds := by
  rcases List.mem_append.mp member with outer | inner
  · have parts := mem_outerPairs.mp outer
    exact ⟨parts.1, known _ parts.2.2⟩
  · exact (laterPairs_among inner).imp (known _) (known _)

theorem mem_pivotPairs {id pivotId : String} (member : id ∈ candidateIds)
    (isPivot : pivotId ∈ pivotCandidateIds) (apart : id ≠ pivotId) :
    s(id, pivotId) ∈ (pivotPairs candidateIds pivotCandidateIds).map
      TournamentComparison.pair := by
  rw [pivotPairs, List.map_append, List.mem_append]
  by_cases also : id ∈ pivotCandidateIds
  · exact Or.inr (mem_laterPairs also isPivot apart)
  · exact Or.inl (List.mem_map.mpr
      ⟨⟨id, pivotId⟩, mem_outerPairs.mpr ⟨member, also, isPivot⟩, rfl⟩)

/-! ## The added comparisons -/

theorem foldl_add {added : Added}
    (distinct : (pairs.map TournamentComparison.key).Nodup) :
    (pairs.foldl Added.add added).pivot = added.pivot ++
      pairs.filter fun edge => decide (edge.key ∉ added.existingPairs) := by
  induction pairs generalizing added with
  | nil => exact (List.append_nil _).symm
  | cons edge rest inductionHypothesis =>
    rw [List.map_cons, List.nodup_cons] at distinct
    rw [List.foldl_cons, inductionHypothesis distinct.2, Added.add]
    by_cases known : edge.key ∈ added.existingPairs
    · rw [if_pos known, List.filter_cons_of_neg (by simp [known])]
    · rw [if_neg known, List.filter_cons_of_pos (by simp [known]),
        List.append_assoc, List.singleton_append]
      congr 2
      refine List.filter_congr fun other member => ?_
      have apart : other.key ≠ edge.key := fun same =>
        distinct.1 (same ▸ List.mem_map_of_mem member)
      rw [decide_eq_decide, List.mem_append, List.mem_singleton, not_or,
        and_iff_left apart]

/-! ## Pivots -/

section Pivots

variable {ν : Type u} [LinearOrder ν] [Zero ν]
  {ringScores : String → Option ν} {pivots : Nat}

theorem ranked_total (ringScores : String → Option ν) (left right : String) :
    Ranked ringScores left right ∨ Ranked ringScores right left := by
  rcases lt_trichotomy ((ringScores left).getD 0)
    ((ringScores right).getD 0) with below | same | above
  · exact Or.inr (Or.inl below)
  · rcases Text.unitsLe_total (Text.codeUnits left) (Text.codeUnits right)
      with forth | back
    · exact Or.inl (Or.inr ⟨same, forth⟩)
    · exact Or.inr (Or.inr ⟨same.symm, back⟩)
  · exact Or.inl (Or.inl above)

theorem ranked_trans {left middle right : String}
    (first : Ranked ringScores left middle)
    (second : Ranked ringScores middle right) :
    Ranked ringScores left right := by
  rcases first with above | ⟨same, forth⟩ <;>
    rcases second with higher | ⟨equal, further⟩
  · exact Or.inl (higher.trans above)
  · exact Or.inl (equal ▸ above)
  · exact Or.inl (same.symm ▸ higher)
  · exact Or.inr ⟨same.trans equal,
      Text.unitsLe_trans _ _ _ forth further⟩

theorem ranked_antisymm {left right : String}
    (forth : Ranked ringScores left right)
    (back : Ranked ringScores right left) : left = right := by
  rcases forth with above | ⟨same, before⟩
  · rcases back with below | ⟨equal, _⟩
    · exact absurd (above.trans below) (lt_irrefl _)
    · exact absurd above (by rw [equal]; exact lt_irrefl _)
  · rcases back with below | ⟨_, after⟩
    · exact absurd below (by rw [same]; exact lt_irrefl _)
    · exact Text.codeUnitLe_antisymm before after

instance (ringScores : String → Option ν) :
    Std.Total (Ranked ringScores) :=
  ⟨ranked_total ringScores⟩

instance (ringScores : String → Option ν) :
    IsTrans String (Ranked ringScores) :=
  ⟨fun _ _ _ first second => ranked_trans first second⟩

theorem pivotsOf_sublist_perm (ringScores : String → Option ν)
    (candidateIds : List String) (pivots : Nat) :
    ∃ others, (pivotsOf ringScores candidateIds pivots ++ others).Perm
        candidateIds ∧
      ∀ pivotId ∈ pivotsOf ringScores candidateIds pivots,
        ∀ id ∈ others, Ranked ringScores pivotId id := by
  have sorted := List.pairwise_insertionSort (Ranked ringScores) candidateIds
  refine ⟨(candidateIds.insertionSort (Ranked ringScores)).drop pivots, ?_,
    ?_⟩
  · rw [pivotsOf, List.take_append_drop]
    exact List.perm_insertionSort _ _
  · rw [← List.take_append_drop pivots
      (candidateIds.insertionSort (Ranked ringScores)),
      List.pairwise_append] at sorted
    exact sorted.2.2

theorem pivotsOf_eq_of_perm {others : List String}
    (same : others.Perm candidateIds) :
    pivotsOf ringScores others pivots =
      pivotsOf ringScores candidateIds pivots := by
  rw [pivotsOf, pivotsOf]
  congr 1
  refine List.Perm.eq_of_pairwise
    (fun _ _ _ _ forth back => ranked_antisymm forth back)
    (List.pairwise_insertionSort _ _) (List.pairwise_insertionSort _ _) ?_
  exact (List.perm_insertionSort _ _).trans
    (same.trans (List.perm_insertionSort _ _).symm)

end Pivots

/-! ## Schedules -/

theorem plain_of_identifier {id code result : String}
    (accepted : identifier id code = .ok result) :
    result = id ∧ Plain result := by
  simp only [identifier, boundedText, bind_eq_ok, throwIf_eq_ok, pure_eq_ok]
    at accepted
  rcases accepted with ⟨_, ⟨_, bounded, rfl⟩, _, _, rfl⟩
  refine ⟨rfl, fun char member => decide_eq_true fun null => ?_⟩
  simp only [not_or] at bounded
  refine bounded.2.2.2 (List.any_eq_true.mpr ⟨char, member, ?_⟩)
  rw [null]
  rfl

/-- What a schedule has to do with its candidates and their scores. -/
structure PivotTournamentSchedule.Plays {ν : Type u} [LinearOrder ν] [Zero ν]
    (schedule : PivotTournamentSchedule) (candidateIds : List String)
    (pivots : Int) (ringScores : String → Option ν) : Prop where
  ring : ∃ order : List String, order.Perm candidateIds ∧
    schedule.ring =
      List.zipWith TournamentComparison.mk order (order.rotate 1)
  count : (schedule.pivotCandidateIds.length : Int) = pivots
  distinct : schedule.pivotCandidateIds.Nodup
  known : ∀ pivotId ∈ schedule.pivotCandidateIds, pivotId ∈ candidateIds
  best : ∀ pivotId ∈ schedule.pivotCandidateIds, ∀ id ∈ candidateIds,
    id ∉ schedule.pivotCandidateIds → Ranked ringScores pivotId id
  once : (schedule.comparisons.map TournamentComparison.pair).Nodup
  covers : ∀ pivotId ∈ schedule.pivotCandidateIds, ∀ id ∈ candidateIds,
    id ≠ pivotId →
      s(id, pivotId) ∈ schedule.comparisons.map TournamentComparison.pair

/-- The comparisons of a list which are not in a ring. -/
def outside (ring edges : List TournamentComparison) :
    List TournamentComparison :=
  edges.filter fun edge =>
    decide (edge.pair ∉ ring.map TournamentComparison.pair)

section Schedules

variable {ν : Type u} [LinearOrder ν] [Zero ν] {pivots seed : Int}
  {ringScores : String → Option ν} {schedule : PivotTournamentSchedule}

theorem schedule_spec
    (made : buildPivotTournamentSchedule candidateIds pivots seed ringScores =
      .ok schedule) :
    candidateIds.Nodup ∧ 1 ≤ pivots ∧ pivots ≤ candidateIds.length ∧
      schedule.pivotCandidateIds =
        pivotsOf ringScores candidateIds pivots.toNat ∧
      schedule.comparisons = schedule.ring ++ schedule.pivot ∧
      (∃ order : List String, order.Perm candidateIds ∧
        schedule.ring = ringOf order) ∧
      schedule.pivot = outside schedule.ring
        (pivotPairs candidateIds schedule.pivotCandidateIds) := by
  simp only [buildPivotTournamentSchedule, seededShuffle, bind_eq_ok,
    throwIf_eq_ok, pure_eq_ok, not_not] at made
  rcases made with ⟨_, _, _, _, ids, mapped, _, distinct, _, counted, order,
    ⟨_, _, rfl⟩, rfl⟩
  have plain : ∀ id ∈ ids, Plain id :=
    forall_mem_of_mapM mapped fun id _ result accepted =>
      (plain_of_identifier accepted).2
  have same : ids = candidateIds := by
    have kept := @map_eq_of_mapM _ _ _ _ _ _ _ (fun id => id)
      (fun id => id) mapped fun id _ result accepted =>
        (plain_of_identifier accepted).1
    rw [List.map_id', List.map_id'] at kept
    exact kept
  subst same
  rcases pivotsOf_sublist_perm ringScores ids pivots.toNat with
    ⟨others, whole, _⟩
  have known : ∀ pivotId ∈ pivotsOf ringScores ids pivots.toNat,
      pivotId ∈ ids :=
    fun pivotId member => whole.mem_iff.mp (List.mem_append_left _ member)
  have distinctPivots : (pivotsOf ringScores ids pivots.toNat).Nodup :=
    (List.nodup_append.mp (whole.nodup_iff.mpr distinct)).1
  have shuffled := shuffleFrom_perm (ids.length - 1)
    (seed.toNat ^^^ 0x9e3779b9) ids
  refine ⟨distinct, counted.2.1, counted.2.2, rfl, rfl, ⟨_, shuffled, rfl⟩,
    ?_⟩
  have among : ∀ edge ∈ pivotPairs ids (pivotsOf ringScores ids pivots.toNat),
      edge.Among ids := fun edge member => pivotPairs_among known member
  have keys : ((pivotPairs ids (pivotsOf ringScores ids pivots.toNat)).map
      TournamentComparison.key).Nodup := by
    have edges := pivotPairs_nodup distinct distinctPivots
    refine (List.Nodup.of_map _ edges).map_on
      fun left isLeft right isRight equal => ?_
    exact List.inj_on_of_nodup_map edges isLeft isRight
      ((key_eq_iff plain (among left isLeft) (among right isRight)).mp equal)
  show (List.foldl Added.add _ _).pivot = _
  rw [foldl_add keys, List.nil_append, outside]
  refine List.filter_congr fun edge member => ?_
  rw [decide_eq_decide, mem_map_key_iff plain (among edge member)]
  intro other inRing
  exact (ring_among inRing).imp shuffled.mem_iff.mp shuffled.mem_iff.mp

theorem mem_outside {ring edges : List TournamentComparison}
    {edge : TournamentComparison} :
    edge ∈ outside ring edges ↔
      edge ∈ edges ∧ edge.pair ∉ ring.map TournamentComparison.pair := by
  rw [outside, List.mem_filter, decide_eq_true_eq]

theorem schedule_plays (many : 3 ≤ candidateIds.length)
    (made : buildPivotTournamentSchedule candidateIds pivots seed ringScores =
      .ok schedule) : schedule.Plays candidateIds pivots ringScores := by
  rcases schedule_spec made with ⟨distinct, positive, enough, picked,
    comparisons, ⟨order, same, ring⟩, pivot⟩
  rcases pivotsOf_sublist_perm ringScores candidateIds pivots.toNat with
    ⟨others, whole, best⟩
  rw [← picked] at whole best
  have distinctPivots :=
    (List.nodup_append.mp (whole.nodup_iff.mpr distinct)).1
  have size : 3 ≤ order.length := same.length_eq.symm ▸ many
  exact {
    ring := ⟨order, same, by rw [ring, ringOf_of_lt (by omega)]⟩
    count := by
      rw [picked, pivotsOf, List.length_take, List.length_insertionSort]
      omega
    distinct := distinctPivots
    known := fun pivotId member =>
      whole.mem_iff.mp (List.mem_append_left _ member)
    best := by
      intro pivotId isPivot id member other
      exact best pivotId isPivot id ((List.mem_append.mp
        (whole.mem_iff.mpr member)).resolve_left other)
    once := by
      rw [comparisons, List.map_append, List.nodup_append, ring]
      refine ⟨ring_nodup (same.nodup_iff.mpr distinct) size, ?_, ?_⟩
      · rw [pivot]
        exact (pivotPairs_nodup distinct distinctPivots).sublist
          (List.filter_sublist.map _)
      · rintro pair inRing other inPivot rfl
        rcases List.mem_map.mp inPivot with ⟨edge, member, rfl⟩
        rw [pivot, ring, mem_outside] at member
        exact member.2 inRing
    covers := by
      intro pivotId isPivot id member apart
      rw [comparisons, List.map_append, List.mem_append]
      by_cases inRing :
          s(id, pivotId) ∈ schedule.ring.map TournamentComparison.pair
      · exact Or.inl inRing
      · rcases List.mem_map.mp (mem_pivotPairs member isPivot apart) with
          ⟨edge, inPairs, named⟩
        refine Or.inr (List.mem_map.mpr ⟨edge, ?_, named⟩)
        rw [pivot, mem_outside, named]
        exact ⟨inPairs, inRing⟩ }

/-- The conditions that the validation checks. -/
structure Playable (candidateIds : List String) (pivots seed : Int) : Prop where
  few : candidateIds.length ≤ 64
  named : ∀ id ∈ candidateIds,
    identifier id "verifier_candidate_id_invalid" = .ok id
  distinct : candidateIds.Nodup
  pivots : 1 ≤ pivots ∧ pivots ≤ candidateIds.length
  seed : 0 ≤ seed ∧ seed ≤ 0x7fffffff

theorem schedule_made (ringScores : String → Option ν)
    (many : 3 ≤ candidateIds.length)
    (playable : Playable candidateIds pivots seed) :
    ∃ schedule, buildPivotTournamentSchedule candidateIds pivots seed
      ringScores = .ok schedule := by
  have named : candidateIds.mapM (fun id =>
      identifier id "verifier_candidate_id_invalid") = .ok candidateIds :=
    mapM_eq_ok.mpr (List.forall₂_same.mpr playable.named)
  have few := playable.few
  have counted : SafeInteger.Safe pivots ∧ 1 ≤ pivots ∧
      pivots ≤ candidateIds.length := by
    have bounds := playable.pivots
    refine ⟨?_, bounds⟩
    rw [SafeInteger.Safe, SafeInteger.maxSafe]
    omega
  have seeded : SafeInteger.Safe seed ∧ 0 ≤ seed ∧ seed ≤ 0x7fffffff := by
    have bounds := playable.seed
    refine ⟨?_, bounds⟩
    rw [SafeInteger.Safe, SafeInteger.maxSafe]
    omega
  simp only [buildPivotTournamentSchedule, seededShuffle, bind_eq_ok,
    throwIf_eq_ok, pure_eq_ok, not_not]
  refine ⟨_, ⟨⟩, fun none => ?_, ⟨⟩, by omega, candidateIds, named, ⟨⟩,
    playable.distinct, ⟨⟩, counted, _, ⟨⟨⟩, seeded, rfl⟩, rfl⟩
  rw [none, List.length_nil] at many
  omega

/--
Every playable list has a schedule, which plays one ring, every pair with a
pivot, and no pair twice.  The pivots depend on the candidates as a set, and
so do the comparisons which are added to the ring, but for those which are in
a ring.
-/
theorem tournament_plays (candidateIds : List String) (pivots seed : Int)
    (ringScores : String → Option ν) (many : 3 ≤ candidateIds.length)
    (playable : Playable candidateIds pivots seed) :
    ∃ schedule : PivotTournamentSchedule,
      buildPivotTournamentSchedule candidateIds pivots seed ringScores =
        .ok schedule ∧
      schedule.Plays candidateIds pivots ringScores ∧
      ∀ (others : List String) (otherSeed : Int)
        (other : PivotTournamentSchedule), others.Perm candidateIds →
        buildPivotTournamentSchedule others pivots otherSeed ringScores =
          .ok other →
        other.pivotCandidateIds = schedule.pivotCandidateIds ∧
          outside schedule.ring other.pivot =
            outside other.ring schedule.pivot := by
  rcases schedule_made ringScores many playable with ⟨schedule, made⟩
  refine ⟨schedule, made, schedule_plays many made, ?_⟩
  intro others otherSeed other same otherMade
  rcases schedule_spec made with ⟨_, _, _, picked, _, _, pivot⟩
  rcases schedule_spec otherMade with ⟨_, _, _, otherPicked, _, _, otherPivot⟩
  have pivotIds : other.pivotCandidateIds = schedule.pivotCandidateIds := by
    rw [otherPicked, picked, pivotsOf_eq_of_perm same]
  refine ⟨pivotIds, ?_⟩
  have pairs : pivotPairs others other.pivotCandidateIds =
      pivotPairs candidateIds schedule.pivotCandidateIds := by
    rw [pivotIds, pivotPairs, pivotPairs, outerPairs, outerPairs,
      Text.sortTexts_eq_of_perm same]
  rw [otherPivot, pivot, pairs, outside, outside, outside, outside,
    List.filter_filter, List.filter_filter]
  exact List.filter_congr fun edge _ => Bool.and_comm _ _

end Schedules

theorem tournament_plays_sample :
    ∃ schedule : PivotTournamentSchedule,
      buildPivotTournamentSchedule ["a", "b", "c", "d"] 1 0
        (fun _ => none (α := Int)) = .ok schedule ∧
      schedule.Plays ["a", "b", "c", "d"] 1 (fun _ => none (α := Int)) ∧
      ∀ (others : List String) (otherSeed : Int)
        (other : PivotTournamentSchedule), others.Perm ["a", "b", "c", "d"] →
        buildPivotTournamentSchedule others 1 otherSeed
            (fun _ => none (α := Int)) = .ok other →
        other.pivotCandidateIds = schedule.pivotCandidateIds ∧
          outside schedule.ring other.pivot =
            outside other.ring schedule.pivot :=
  tournament_plays ["a", "b", "c", "d"] 1 0 _ (by decide)
    ⟨by decide, by decide, by decide, by decide, by decide⟩

/-- The schedule of four candidates in one ring with one pivot. -/
def sampleSchedule (first second third fourth rival : String) :
    PivotTournamentSchedule where
  ring := [⟨first, second⟩, ⟨second, third⟩, ⟨third, fourth⟩,
    ⟨fourth, first⟩]
  pivot := [⟨rival, "a"⟩]
  pivotCandidateIds := ["a"]
  comparisons := [⟨first, second⟩, ⟨second, third⟩, ⟨third, fourth⟩,
    ⟨fourth, first⟩, ⟨rival, "a"⟩]

/-- Two orders of the same candidates with different added comparisons. -/
theorem added_of_order :
    ["c", "b", "a", "d"].Perm ["a", "b", "c", "d"] ∧
      buildPivotTournamentSchedule ["a", "b", "c", "d"] 1 0
        (fun _ => none (α := Int)) =
          .ok (sampleSchedule "d" "a" "c" "b" "b") ∧
      buildPivotTournamentSchedule ["c", "b", "a", "d"] 1 0
        (fun _ => none (α := Int)) =
          .ok (sampleSchedule "d" "c" "a" "b" "d") ∧
      (sampleSchedule "d" "a" "c" "b" "b").pivot ≠
        (sampleSchedule "d" "c" "a" "b" "d").pivot := by
  decide

end Mendpoint.Verifier
