import Mathlib.Data.List.Perm.Basic
import Mathlib.Data.List.TakeWhile
import Mendpoint.Library.Fallible
import Mendpoint.StagedPr.Plan
import Mendpoint.Library.DependencyWaves
import Mendpoint.Library.GreedySelection
import Mendpoint.Library.TextOrder

/-!
# What a plan contains

The waves of a plan hold every unit once, and a wave holds units of different
repositories.  Every planned unit has passed its checks.
-/

namespace Mendpoint.StagedPr

open Mendpoint.Library

theorem requires_eq_nil {holds : Prop} [Decidable holds] {reason : String} :
    requires holds reason = [] ↔ holds := by
  rw [requires]
  split
  · next held => simp only [held]
  · next failed => simp only [failed, List.cons_ne_nil]

/-! ## Waves -/

section Waves

variable {collation : Collation} {maximum : Int}

theorem takeWave_sublist (repositories : List String)
    (units : List VerifiedUnit) :
    (takeWave maximum repositories units).Sublist units := by
  induction units generalizing repositories with
  | nil => exact List.Sublist.refl _
  | cons unit rest inductionHypothesis =>
    rw [takeWave]
    split
    · exact (inductionHypothesis _).cons unit
    · exact (inductionHypothesis _).cons_cons unit

theorem takeWave_repositories (repositories : List String)
    (units : List VerifiedUnit) :
    ((takeWave maximum repositories units).map
      VerifiedUnit.repositoryId).Nodup ∧
    ∀ unit ∈ takeWave maximum repositories units,
      unit.repositoryId ∉ repositories := by
  induction units generalizing repositories with
  | nil => exact ⟨List.nodup_nil, fun _ member => nomatch member⟩
  | cons unit rest inductionHypothesis =>
    rw [takeWave]
    split
    · exact inductionHypothesis _
    · next kept =>
        rcases inductionHypothesis (unit.repositoryId :: repositories) with
          ⟨nodup, new⟩
        constructor
        · rw [List.map_cons, List.nodup_cons]
          refine ⟨fun again => ?_, nodup⟩
          rcases List.mem_map.mp again with ⟨other, member, same⟩
          apply new other member
          rw [same]
          exact List.mem_cons_self
        · intro other member
          rcases List.mem_cons.mp member with rfl | later
          · exact fun before => kept (Or.inl before)
          · exact fun before =>
              new other later (List.mem_cons_of_mem _ before)

variable (collation) (maximum)

theorem nextWave_subset {completed : List String}
    {remaining : List VerifiedUnit} {unit : VerifiedUnit}
    (member : unit ∈ nextWave collation maximum completed remaining) :
    unit ∈ remaining := by
  have sorted := (takeWave_sublist _ _).subset member
  have ready := (collation.perm_sortBy _ _).mem_iff.mp sorted
  exact (List.mem_filter.mp ready).1

theorem nextWave_repositories (completed : List String)
    (remaining : List VerifiedUnit) :
    ((nextWave collation maximum completed remaining).map
      VerifiedUnit.repositoryId).Nodup :=
  (takeWave_repositories _ _).1

theorem nextWave_nodup {completed : List String}
    {remaining : List VerifiedUnit}
    (nodup : (remaining.map VerifiedUnit.id).Nodup) :
    ((nextWave collation maximum completed remaining).map
      VerifiedUnit.id).Nodup := by
  have taken : List.Sublist
      (nextWave collation maximum completed remaining) _ :=
    takeWave_sublist _ _
  refine (taken.map VerifiedUnit.id).nodup ?_
  have ordered := collation.perm_sortBy VerifiedUnit.id (remaining.filter
    fun unit => unit.dependsOn.all fun dependency =>
      decide (dependency ∈ completed))
  rw [(ordered.map VerifiedUnit.id).nodup_iff]
  exact (List.filter_sublist.map VerifiedUnit.id).nodup nodup

variable {collation} {maximum}

theorem perm_append_others {wave remaining : List VerifiedUnit}
    (subset : ∀ unit ∈ wave, unit ∈ remaining)
    (nodupWave : (wave.map VerifiedUnit.id).Nodup)
    (nodup : (remaining.map VerifiedUnit.id).Nodup) :
    (wave ++ remaining.filter fun unit =>
      decide (unit.id ∉ wave.map VerifiedUnit.id)).Perm remaining := by
  have inWave : wave.Perm (remaining.filter fun unit =>
      decide (unit.id ∈ wave.map VerifiedUnit.id)) := by
    rw [List.perm_ext_iff_of_nodup (nodupWave.of_map)
      ((List.filter_sublist).nodup nodup.of_map)]
    intro unit
    rw [List.mem_filter, decide_eq_true_iff]
    constructor
    · exact fun member => ⟨subset unit member, List.mem_map_of_mem member⟩
    · rintro ⟨member, named⟩
      rcases List.mem_map.mp named with ⟨other, inside, same⟩
      have equal := List.inj_on_of_nodup_map nodup (subset other inside)
        member same
      rw [← equal]
      exact inside
  have split := List.filter_append_perm
    (fun unit => decide (unit.id ∈ wave.map VerifiedUnit.id)) remaining
  refine (inWave.append_right _).trans ?_
  simpa only [decide_not] using split

theorem dependencyWavesFrom_perm {rounds : Nat} {completed : List String}
    {remaining : List VerifiedUnit} {waves : List (List VerifiedUnit)}
    (nodup : (remaining.map VerifiedUnit.id).Nodup)
    (enough : remaining.length ≤ rounds)
    (ordered : dependencyWavesFrom collation maximum rounds completed
      remaining = .ok waves) :
    waves.flatten.Perm remaining := by
  induction rounds generalizing completed remaining waves with
  | zero =>
    rw [List.length_eq_zero_iff.mp (Nat.le_zero.mp enough)]
    cases ordered
    exact List.Perm.refl _
  | succ rounds inductionHypothesis =>
    cases remaining with
    | nil =>
      cases ordered
      exact List.Perm.refl _
    | cons first rest =>
      rw [dependencyWavesFrom] at ordered
      split at ordered
      · cases ordered
      · next nonempty =>
          rcases Fallible.bind_eq_ok.mp ordered with
            ⟨later, recursive, returned⟩
          cases returned
          have whole := perm_append_others
            (fun _ member => nextWave_subset collation maximum member)
            (@nextWave_nodup collation maximum completed _
              nodup) nodup
          have nodupOthers := (whole.map VerifiedUnit.id).nodup_iff.mpr
            nodup
          rw [List.map_append, List.nodup_append] at nodupOthers
          have size := whole.length_eq
          rw [List.length_append] at size
          have some' := List.length_pos_iff.mpr nonempty
          have others := inductionHypothesis nodupOthers.2.1 (by omega)
            recursive
          rw [List.flatten_cons]
          exact (others.append_left _).trans whole

theorem dependencyWavesFrom_wave {rounds : Nat} {completed : List String}
    {remaining : List VerifiedUnit} {waves : List (List VerifiedUnit)}
    (ordered : dependencyWavesFrom collation maximum rounds completed
      remaining = .ok waves) {wave : List VerifiedUnit}
    (member : wave ∈ waves) :
    wave ≠ [] ∧ (wave.map VerifiedUnit.repositoryId).Nodup := by
  induction rounds generalizing completed remaining waves with
  | zero =>
    cases ordered
    cases member
  | succ rounds inductionHypothesis =>
    cases remaining with
    | nil =>
      cases ordered
      cases member
    | cons first rest =>
      rw [dependencyWavesFrom] at ordered
      split at ordered
      · cases ordered
      · next nonempty =>
          rcases Fallible.bind_eq_ok.mp ordered with
            ⟨later, recursive, returned⟩
          cases returned
          rcases List.mem_cons.mp member with rfl | inLater
          · exact ⟨nonempty, nextWave_repositories _ _ _ _⟩
          · exact inductionHypothesis recursive inLater

end Waves

/-! ## Intake -/

/-- What an intake without reasons has read. -/
structure Intake.Clean (policy : Policy) (intake : Intake) : Prop where
  ids : ∀ id unit, intake.byId.get? id = some unit → unit.id = id
  passed : ∀ id unit, intake.byId.get? id = some unit →
    unitReasons policy unit = []

theorem Intake.Clean.add {policy : Policy} {intake : Intake}
    {unit : VerifiedUnit}
    (clean : intake.reasons = [] → intake.Clean policy)
    (none' : (intake.add policy unit).reasons = []) :
    (intake.add policy unit).Clean policy := by
  rw [Intake.add] at none' ⊢
  split at none'
  · next valid =>
      rw [if_pos valid]
      simp only [List.append_eq_nil_iff, requires_eq_nil] at none'
      rcases none' with ⟨⟨⟨before, new⟩, _⟩, passed⟩
      have kept := clean before
      constructor
      · intro id other found
        rw [if_neg (Bool.eq_false_iff.mp new)] at found
        rw [OrderedMap.get?_set] at found
        split at found
        · next same =>
            cases found
            exact same
        · exact kept.ids id other found
      · intro id other found
        rw [if_neg (Bool.eq_false_iff.mp new)] at found
        rw [OrderedMap.get?_set] at found
        split at found
        · cases found
          exact passed
        · exact kept.passed id other found
  · next invalid =>
      simp only [List.append_eq_nil_iff, List.cons_ne_nil, and_false] at none'

theorem foldl_add_clean {policy : Policy} {units : List VerifiedUnit}
    {intake : Intake} (clean : intake.reasons = [] → intake.Clean policy)
    (none' : (units.foldl (Intake.add policy) intake).reasons = []) :
    (units.foldl (Intake.add policy) intake).Clean policy := by
  induction units generalizing intake with
  | nil => exact clean none'
  | cons unit rest inductionHypothesis =>
    exact inductionHypothesis (Intake.Clean.add clean) none'

theorem intake_clean {policy : Policy} {units : List VerifiedUnit}
    (none' : (intake policy units).reasons = []) :
    (intake policy units).Clean policy := by
  apply foldl_add_clean _ none'
  intro _
  constructor
  · exact fun _ _ found => nomatch found
  · exact fun _ _ found => nomatch found

theorem Intake.Clean.values {policy : Policy} {intake : Intake}
    (clean : intake.Clean policy) :
    (intake.byId.values.map VerifiedUnit.id).Nodup ∧
      ∀ unit ∈ intake.byId.values, unitReasons policy unit = [] := by
  constructor
  · have same : intake.byId.values.map VerifiedUnit.id =
        intake.byId.keys := by
      rw [OrderedMap.values, OrderedMap.keys, List.map_map]
      apply List.map_congr_left
      rintro ⟨id, unit⟩ member
      exact clean.ids id unit ((intake.byId.mem_entries_iff id unit).mp member)
    rw [same]
    exact intake.byId.nodup_keys
  · intro unit member
    rcases (intake.byId.mem_values_iff unit).mp member with ⟨id, found⟩
    exact clean.passed id unit found

/-! ## Plans -/

section Plans

variable {collation : Collation} {sha256 : String → String}
  {input : PlanningInput} {plan : Plan}

/-- A plan comes from checked units in their waves. -/
structure Planned (collation : Collation) (sha256 : String → String)
    (input : PlanningInput) (plan : Plan)
    (waves : List (List VerifiedUnit)) : Prop where
  checked : inputReasons input = []
  units : ∀ wave ∈ waves, ∀ unit ∈ wave, unitReasons input.policy unit = []
  ids : (waves.flatten.map VerifiedUnit.id).Nodup
  ordered : dependencyWaves collation
    (intake input.policy input.units).byId.values
    input.policy.maxDraftPullRequestsPerWave = .ok waves
  body : plan.toPlanBody = planBody input waves
  digest : plan.digest = digestOf collation sha256 plan.toPlanBody
  id : plan.id = planId plan.digest

theorem planned_of_ok
    (accepted : planStagedPullRequestBatches collation sha256 input =
      .ok plan) :
    ∃ waves, Planned collation sha256 input plan waves := by
  rw [planStagedPullRequestBatches] at accepted
  simp only at accepted
  split at accepted
  · cases accepted
  · next noReasons =>
      rw [not_not, List.append_eq_nil_iff, List.append_eq_nil_iff]
        at noReasons
      rcases noReasons with ⟨⟨checked, taken⟩, _⟩
      split at accepted
      · cases accepted
      · next waves ordered =>
          cases accepted
          have clean := (intake_clean taken).values
          have whole := dependencyWavesFrom_perm clean.1 (Nat.le_refl _)
            ordered
          refine ⟨waves, checked, ?_, ?_, ordered, rfl, rfl, rfl⟩
          · intro wave inWaves unit inWave
            apply clean.2
            exact whole.mem_iff.mp
              (List.mem_flatten_of_mem inWaves inWave)
          · rw [(whole.map VerifiedUnit.id).nodup_iff]
            exact clean.1

end Plans

end Mendpoint.StagedPr

/-!
## How units are put into waves

A wave is a greedy selection from the ready units in the order of their ids.
The waves process every unit after the units on which it depends, they get
stuck on a cycle alone, and they do not depend on the order of the units exactly
when no unit is taken in the place of another one whose id compares equal.
-/

namespace Mendpoint.StagedPr

open Mendpoint.Library
open Mendpoint.Library.DependencyWaves
open Mendpoint.Library.GreedySelection

/-! ## Waves as selections -/

section Selection

variable (collation : Collation) (maximum : Int)

/-- Another unit of the repository may go into a wave of these repositories. -/
def repositoryFree (repositories : List String) (repositoryId : String) :
    Bool :=
  decide ¬ (repositoryId ∈ repositories ∨ maximum ≤ repositories.length)

theorem takeWave_eq (repositories : List String) (units : List VerifiedUnit) :
    takeWave maximum repositories units =
      select VerifiedUnit.repositoryId (repositoryFree maximum) repositories
        units := by
  induction units generalizing repositories with
  | nil => rfl
  | cons unit rest inductionHypothesis =>
    rw [takeWave, select, inductionHypothesis, inductionHypothesis,
      repositoryFree]
    split
    · next taken =>
        rw [if_neg]
        rw [decide_eq_true_iff, not_not]
        exact taken
    · next open' => rw [if_pos (decide_eq_true open')]

/-- The units whose dependencies are completed, in the order of their ids. -/
def readyUnits (completed : List String) (remaining : List VerifiedUnit) :
    List VerifiedUnit :=
  collation.sortBy VerifiedUnit.id (remaining.filter fun unit =>
    unit.dependsOn.all fun dependency => decide (dependency ∈ completed))

theorem nextWave_eq (completed : List String)
    (remaining : List VerifiedUnit) :
    nextWave collation maximum completed remaining =
      select VerifiedUnit.repositoryId (repositoryFree maximum) []
        (readyUnits collation completed remaining) :=
  takeWave_eq maximum [] _

variable {collation} {maximum}

theorem mem_readyUnits {completed : List String}
    {remaining : List VerifiedUnit} {unit : VerifiedUnit} :
    unit ∈ readyUnits collation completed remaining ↔
      unit ∈ remaining ∧
        ∀ dependency ∈ unit.dependsOn, dependency ∈ completed := by
  rw [readyUnits, (collation.perm_sortBy _ _).mem_iff, List.mem_filter,
    List.all_eq_true]
  simp only [decide_eq_true_iff]

theorem repositoryFree_shrinks (taken more : List String) (one : String)
    (within : List.Sublist taken more)
    (isFree : repositoryFree maximum more one = true) :
    repositoryFree maximum taken one = true := by
  rw [repositoryFree, decide_eq_true_iff, not_or] at isFree ⊢
  refine ⟨fun member => isFree.1 (within.subset member), fun full => ?_⟩
  have longer := within.length_le
  exact isFree.2 (full.trans (Int.ofNat_le.mpr longer))

theorem repositoryFree_bounded (taken : List String) (one : String)
    (isFree : repositoryFree maximum taken one = true) :
    (taken.length : Int) < maximum := by
  rw [repositoryFree, decide_eq_true_iff, not_or] at isFree
  exact lt_of_not_ge isFree.2

theorem length_nextWave_le (positive : 0 ≤ maximum)
    (completed : List String) (remaining : List VerifiedUnit) :
    ((nextWave collation maximum completed remaining).length : Int) ≤
      maximum := by
  have bound := @length_after_le _ _ VerifiedUnit.repositoryId
    (repositoryFree maximum) maximum repositoryFree_bounded [] positive
    (readyUnits collation completed remaining)
  rwa [after, List.append_nil, List.length_reverse, List.length_map,
    ← nextWave_eq] at bound

theorem nextWave_ne_nil (positive : 0 < maximum) {completed : List String}
    {remaining : List VerifiedUnit} {unit : VerifiedUnit}
    (member : unit ∈ remaining)
    (ready : ∀ dependency ∈ unit.dependsOn, dependency ∈ completed) :
    nextWave collation maximum completed remaining ≠ [] := by
  rw [nextWave_eq]
  apply select_ne_nil (mem_readyUnits.mpr ⟨member, ready⟩)
  rw [repositoryFree, decide_eq_true_iff, not_or]
  exact ⟨List.not_mem_nil, not_le_of_gt positive⟩

theorem ready_of_mem_nextWave {completed : List String}
    {remaining : List VerifiedUnit} {unit : VerifiedUnit}
    (member : unit ∈ nextWave collation maximum completed remaining) :
    ∀ dependency ∈ unit.dependsOn, dependency ∈ completed := by
  rw [nextWave_eq] at member
  exact (mem_readyUnits.mp ((select_sublist _ _).subset member)).2

end Selection

/-! ## What the waves cover -/

section Covering

variable {collation : Collation} {maximum : Int} {rounds : Nat}
  {completed : List String} {remaining : List VerifiedUnit}
  {waves : List (List VerifiedUnit)}

theorem perm_nextWave (nodup : (remaining.map VerifiedUnit.id).Nodup) :
    (nextWave collation maximum completed remaining ++
      remaining.filter fun unit => decide (unit.id ∉
        (nextWave collation maximum completed remaining).map
          VerifiedUnit.id)).Perm remaining :=
  perm_append_others
    (fun _ member => nextWave_subset collation maximum member)
    (nextWave_nodup collation maximum nodup) nodup

theorem nodup_others (nodup : (remaining.map VerifiedUnit.id).Nodup) :
    ((remaining.filter fun unit => decide (unit.id ∉
      (nextWave collation maximum completed remaining).map
        VerifiedUnit.id)).map VerifiedUnit.id).Nodup :=
  (List.filter_sublist.map VerifiedUnit.id).nodup nodup

theorem length_others_le (nodup : (remaining.map VerifiedUnit.id).Nodup)
    (enough : remaining.length ≤ rounds + 1)
    (nonempty : nextWave collation maximum completed remaining ≠ []) :
    (remaining.filter fun unit => decide (unit.id ∉
      (nextWave collation maximum completed remaining).map
        VerifiedUnit.id)).length ≤ rounds := by
  have size := (@perm_nextWave collation maximum completed remaining
    nodup).length_eq
  rw [List.length_append] at size
  have some' := List.length_pos_iff.mpr nonempty
  omega

theorem dependencyWavesFrom_covers
    (nodup : (remaining.map VerifiedUnit.id).Nodup)
    (enough : remaining.length ≤ rounds)
    (ordered : dependencyWavesFrom collation maximum rounds completed
      remaining = .ok waves) :
    Covers VerifiedUnit.id VerifiedUnit.dependsOn completed remaining
      waves := by
  induction rounds generalizing completed remaining waves with
  | zero =>
    rw [List.length_eq_zero_iff.mp (Nat.le_zero.mp enough)]
    cases ordered
    exact .done _
  | succ rounds inductionHypothesis =>
    cases remaining with
    | nil =>
      cases ordered
      exact .done _
    | cons first rest =>
      rw [dependencyWavesFrom] at ordered
      split at ordered
      · cases ordered
      · next nonempty =>
          obtain ⟨later, recursive, returned⟩ :=
            Fallible.bind_eq_ok.mp ordered
          cases returned
          exact .next (fun _ member => ready_of_mem_nextWave member)
            (perm_nextWave nodup)
            (inductionHypothesis (nodup_others nodup)
              (length_others_le nodup enough nonempty) recursive)

theorem dependencyWavesFrom_length (positive : 0 ≤ maximum)
    (ordered : dependencyWavesFrom collation maximum rounds completed
      remaining = .ok waves) {wave : List VerifiedUnit}
    (member : wave ∈ waves) : (wave.length : Int) ≤ maximum := by
  induction rounds generalizing completed remaining waves with
  | zero =>
    cases ordered
    cases member
  | succ rounds inductionHypothesis =>
    cases remaining with
    | nil =>
      cases ordered
      cases member
    | cons first rest =>
      rw [dependencyWavesFrom] at ordered
      split at ordered
      · cases ordered
      · obtain ⟨later, recursive, returned⟩ :=
          Fallible.bind_eq_ok.mp ordered
        cases returned
        rcases List.mem_cons.mp member with rfl | inLater
        · exact length_nextWave_le positive _ _
        · exact inductionHypothesis recursive inLater

theorem dependencyWavesFrom_cases :
    (∃ waves, dependencyWavesFrom collation maximum rounds completed
        remaining = .ok waves) ∨
      ∃ ids, dependencyWavesFrom collation maximum rounds completed
        remaining = .error ("unit_dependency_cycle:" ++ ids) := by
  induction rounds generalizing completed remaining with
  | zero => exact .inl ⟨[], rfl⟩
  | succ rounds inductionHypothesis =>
    cases remaining with
    | nil => exact .inl ⟨[], rfl⟩
    | cons first rest =>
      rw [dependencyWavesFrom]
      split
      · exact .inr ⟨_, rfl⟩
      · generalize completed ++ (nextWave collation maximum completed
          (first :: rest)).map VerifiedUnit.id = next
        generalize ((first :: rest).filter fun unit =>
          decide (unit.id ∉ (nextWave collation maximum completed
            (first :: rest)).map VerifiedUnit.id)) = others
        rcases @inductionHypothesis next others with
          ⟨waves, ordered⟩ | ⟨ids, stuck⟩
        · exact .inl ⟨_, by rw [ordered]; rfl⟩
        · exact .inr ⟨ids, by rw [stuck]; rfl⟩

end Covering

/-! ## The order of the units -/

section Order

variable (collation : Collation) (maximum : Int)

/--
In every round no unit is taken while a later one with an id which compares
equal could be.
-/
def UndisputedFrom : Nat → List String → List VerifiedUnit → Prop
  | 0, _, _ => True
  | _ + 1, _, [] => True
  | rounds + 1, completed, first :: rest =>
    let remaining := first :: rest
    let wave := nextWave collation maximum completed remaining
    Settled VerifiedUnit.repositoryId (repositoryFree maximum)
        (collation.ordered VerifiedUnit.id) []
        (readyUnits collation completed remaining) ∧
      UndisputedFrom rounds (completed ++ wave.map VerifiedUnit.id)
        (remaining.filter fun unit =>
          decide (unit.id ∉ wave.map VerifiedUnit.id))

variable {collation} {maximum} {rounds : Nat} {completed : List String}
  {remaining others : List VerifiedUnit} {waves : List (List VerifiedUnit)}

theorem nextWave_eq_of_perm (permuted : remaining.Perm others)
    (settled : Settled VerifiedUnit.repositoryId (repositoryFree maximum)
      (collation.ordered VerifiedUnit.id) []
      (readyUnits collation completed remaining)) :
    nextWave collation maximum completed remaining =
      nextWave collation maximum completed others := by
  rw [nextWave_eq, nextWave_eq]
  refine select_eq_of_perm repositoryFree_shrinks
    (collation.sorted_sortBy _ _) (collation.sorted_sortBy _ _) ?_ settled
  exact ((collation.perm_sortBy _ _).trans (permuted.filter _)).trans
    (collation.perm_sortBy _ _).symm

theorem dependencyWavesFrom_eq_of_perm (permuted : remaining.Perm others)
    (undisputed : UndisputedFrom collation maximum rounds completed
      remaining) :
    dependencyWavesFrom collation maximum rounds completed others =
      dependencyWavesFrom collation maximum rounds completed remaining := by
  induction rounds generalizing completed remaining others with
  | zero => rfl
  | succ rounds inductionHypothesis =>
    cases remaining with
    | nil => rw [permuted.nil_eq]
    | cons first rest =>
      cases others with
      | nil => exact absurd permuted.eq_nil (List.cons_ne_nil _ _)
      | cons other more =>
        obtain ⟨settled, later⟩ := undisputed
        have same := nextWave_eq_of_perm permuted settled
        have names := Text.sortTexts_eq_of_perm
          (permuted.map VerifiedUnit.id)
        rw [dependencyWavesFrom, dependencyWavesFrom]
        rw [← same, names,
          inductionHypothesis (permuted.filter _) later]

theorem sortBy_cons (unit : VerifiedUnit) (units : List VerifiedUnit) :
    ∃ before behind, collation.sortBy VerifiedUnit.id (unit :: units) =
        before ++ unit :: behind ∧
      (∀ other ∈ before, ¬ collation.ordered VerifiedUnit.id unit other) ∧
        ∀ other ∈ behind, collation.ordered VerifiedUnit.id unit other := by
  have sorted := collation.sorted_sortBy VerifiedUnit.id (unit :: units)
  have shape := List.insertionSort_cons_eq_take_drop
    (collation.ordered VerifiedUnit.id) unit units
  refine ⟨_, _, shape, fun other member => ?_, ?_⟩
  · have strict := List.mem_takeWhile_imp member
    rwa [decide_eq_true_iff] at strict
  · rw [Collation.sortBy, shape] at sorted
    exact (List.pairwise_cons.mp (List.pairwise_append.mp sorted).2.1).1

theorem exists_front {unit : VerifiedUnit}
    (member : unit ∈ readyUnits collation completed remaining) :
    ∃ before behind,
      readyUnits collation completed (unit :: remaining.erase unit) =
          before ++ unit :: behind ∧
        (∀ other ∈ before,
          ¬ collation.ordered VerifiedUnit.id unit other) ∧
          ∀ other ∈ behind, collation.ordered VerifiedUnit.id unit other := by
  have ready := (mem_readyUnits.mp member).2
  rw [readyUnits, List.filter_cons_of_pos]
  · exact sortBy_cons unit _
  · rw [List.all_eq_true]
    exact fun dependency depends => decide_eq_true (ready dependency depends)

theorem undisputedFrom_of_front
    (nodup : (remaining.map VerifiedUnit.id).Nodup)
    (ordered : dependencyWavesFrom collation maximum rounds completed
      remaining = .ok waves)
    (front : ∀ unit ∈ remaining, dependencyWavesFrom collation maximum rounds
      completed (unit :: remaining.erase unit) = .ok waves) :
    UndisputedFrom collation maximum rounds completed remaining := by
  induction rounds generalizing completed remaining waves with
  | zero => exact ⟨⟩
  | succ rounds inductionHypothesis =>
    cases remaining with
    | nil => exact ⟨⟩
    | cons first rest =>
      have opened : ∀ {units : List VerifiedUnit} {unit : VerifiedUnit},
          dependencyWavesFrom collation maximum (rounds + 1) completed
            (unit :: units) = .ok waves →
          ∃ later, waves = nextWave collation maximum completed
              (unit :: units) :: later ∧
            dependencyWavesFrom collation maximum rounds
              (completed ++ (nextWave collation maximum completed
                (unit :: units)).map VerifiedUnit.id)
              ((unit :: units).filter fun other => decide (other.id ∉
                (nextWave collation maximum completed
                  (unit :: units)).map VerifiedUnit.id)) =
                .ok later := by
        intro units unit taken
        rw [dependencyWavesFrom] at taken
        split at taken
        · cases taken
        · obtain ⟨later, recursive, returned⟩ :=
            Fallible.bind_eq_ok.mp taken
          cases returned
          exact ⟨later, rfl, recursive⟩
      obtain ⟨later, shape, recursive⟩ := opened ordered
      have sameWave : ∀ unit ∈ first :: rest,
          nextWave collation maximum completed
              (unit :: (first :: rest).erase unit) =
            nextWave collation maximum completed (first :: rest) := by
        intro unit member
        obtain ⟨_, other, _⟩ := opened (front unit member)
        rw [shape] at other
        exact (List.cons.inj other).1.symm
      rw [UndisputedFrom]
      constructor
      · refine settled_of_front repositoryFree_shrinks
          (fun unit => (collation.total unit.id unit.id).elim id id)
          (fun one two => collation.trans _ _ _ one two) ?_
          (collation.sorted_sortBy _ _) fun unit member => ?_
        · rw [readyUnits, (collation.perm_sortBy _ _).nodup_iff]
          exact List.filter_sublist.nodup nodup.of_map
        · obtain ⟨before, behind, placed, below, above⟩ :=
            exists_front member
          refine ⟨before, behind, below, above, ?_⟩
          rw [← placed, ← nextWave_eq,
            sameWave unit (mem_readyUnits.mp member).1, nextWave_eq]
      · refine inductionHypothesis (nodup_others nodup) recursive
          fun unit member => ?_
        obtain ⟨inside, outside⟩ := List.mem_filter.mp member
        obtain ⟨_, same, recursiveToo⟩ := opened (front unit inside)
        rw [sameWave unit inside] at same recursiveToo
        rw [shape] at same
        rw [(List.cons.inj same).2]
        have erased : (unit :: (first :: rest).erase unit).filter
            (fun other => decide (other.id ∉ (nextWave collation maximum
              completed (first :: rest)).map VerifiedUnit.id)) =
            unit :: ((first :: rest).filter fun other =>
              decide (other.id ∉ (nextWave collation maximum completed
                (first :: rest)).map VerifiedUnit.id)).erase unit := by
          rw [List.filter_cons, if_pos outside, List.erase_filter]
        rw [erased] at recursiveToo
        exact recursiveToo

end Order

end Mendpoint.StagedPr
