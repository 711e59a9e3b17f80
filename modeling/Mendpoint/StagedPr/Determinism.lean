import Mendpoint.Library.Collation
import Mendpoint.Library.Counting
import Mendpoint.StagedPr.Waves

/-!
# What a plan promises

An input without reasons is planned when its dependencies have no cycle and
abstained with the cycle otherwise.  A plan holds every unit once, after the
units on which it depends, in small waves of different repositories.  It is the
same for every order of the units when no unit is taken in the place of another
one whose id compares equal, and otherwise some order changes it.
-/

namespace Mendpoint.StagedPr

open Mendpoint.Library
open Mendpoint.Library.DependencyWaves

/-! ## Intake -/

/-- What the checks of the single units ask for. -/
structure Acceptable (policy : Policy) (units : List VerifiedUnit) : Prop where
  valid : ∀ unit ∈ units, validText unit.id
  ids : (units.map VerifiedUnit.id).Nodup
  branches : (units.map branchKey).Nodup
  passed : ∀ unit ∈ units, unitReasons policy unit = []

/-- The intake which has read these units. -/
structure Taken (units : List VerifiedUnit) (intake : Intake) : Prop where
  entries : intake.byId.entries = units.map fun unit => (unit.id, unit)
  branches : intake.branches = units.map branchKey

section Intakes

variable {policy : Policy}

theorem Intake.add_reasons_eq_nil (intake : Intake) (unit : VerifiedUnit) :
    (intake.add policy unit).reasons = [] ↔
      intake.reasons = [] ∧ validText unit.id ∧
        unit.id ∉ intake.byId.keys ∧ branchKey unit ∉ intake.branches ∧
          unitReasons policy unit = [] := by
  have new : unit.id ∉ intake.byId.keys ↔
      intake.byId.has unit.id = false := by
    rw [Bool.eq_false_iff, ne_eq, OrderedMap.has_iff]
  rw [new, Intake.add]
  split
  · next valid =>
      simp only [List.append_eq_nil_iff, requires_eq_nil, valid, true_and,
        and_assoc]
  · next invalid =>
      simp only [List.append_eq_nil_iff, List.cons_ne_nil, and_false,
        invalid, false_and]

theorem Taken.add {units : List VerifiedUnit} {intake : Intake}
    (taken : Taken units intake) {unit : VerifiedUnit}
    (valid : validText unit.id) (new : unit.id ∉ intake.byId.keys) :
    Taken (units ++ [unit]) (intake.add policy unit) := by
  have none' : intake.byId.has unit.id = false := by
    rw [Bool.eq_false_iff, ne_eq, OrderedMap.has_iff]
    exact new
  rw [Intake.add, if_pos valid]
  constructor
  · rw [if_neg (Bool.eq_false_iff.mp none'), List.map_append,
      ← taken.entries]
    exact OrderedMap.setEntry_of_not_mem unit new
  · rw [List.map_append, ← taken.branches]
    rfl

theorem Taken.keys {units : List VerifiedUnit} {intake : Intake}
    (taken : Taken units intake) :
    intake.byId.keys = units.map VerifiedUnit.id := by
  rw [OrderedMap.keys, taken.entries, List.map_map]
  rfl

theorem Taken.values {units : List VerifiedUnit} {intake : Intake}
    (taken : Taken units intake) : intake.byId.values = units := by
  rw [OrderedMap.values, taken.entries, List.map_map]
  exact List.map_id _

theorem intake_append (units : List VerifiedUnit) (unit : VerifiedUnit) :
    intake policy (units ++ [unit]) =
      (intake policy units).add policy unit := by
  rw [intake, List.foldl_append, List.foldl_cons, List.foldl_nil, intake]

theorem intake_spec (units : List VerifiedUnit) :
    ((intake policy units).reasons = [] ↔ Acceptable policy units) ∧
      (Acceptable policy units → Taken units (intake policy units)) := by
  induction units using List.reverseRecOn with
  | nil =>
    refine ⟨iff_of_true rfl ⟨?_, List.nodup_nil, List.nodup_nil, ?_⟩,
      fun _ => ⟨rfl, rfl⟩⟩
    · exact fun _ member => absurd member List.not_mem_nil
    · exact fun _ member => absurd member List.not_mem_nil
  | append_singleton units unit inductionHypothesis =>
    obtain ⟨same, taken⟩ := inductionHypothesis
    have split : Acceptable policy (units ++ [unit]) ↔
        Acceptable policy units ∧ validText unit.id ∧
          unit.id ∉ units.map VerifiedUnit.id ∧
          branchKey unit ∉ units.map branchKey ∧
            unitReasons policy unit = [] := by
      constructor
      · rintro ⟨valid, ids, branches, passed⟩
        rw [List.map_append, List.nodup_append'] at ids branches
        refine ⟨⟨fun other member => valid other ?_, ids.1, branches.1,
          fun other member => passed other ?_⟩, valid unit ?_, ?_, ?_,
          passed unit ?_⟩
        · exact List.mem_append_left _ member
        · exact List.mem_append_left _ member
        · exact List.mem_append_right _ List.mem_cons_self
        · exact fun member => ids.2.2 member List.mem_cons_self
        · exact fun member => branches.2.2 member List.mem_cons_self
        · exact List.mem_append_right _ List.mem_cons_self
      · rintro ⟨⟨valid, ids, branches, passed⟩, validUnit, newId,
          newBranch, passedUnit⟩
        constructor
        · intro other member
          rcases List.mem_append.mp member with before | last
          · exact valid other before
          · rwa [List.mem_singleton.mp last]
        · rw [List.map_append]
          exact List.nodup_append_comm.mp
            (List.nodup_cons.mpr ⟨newId, ids⟩)
        · rw [List.map_append]
          exact List.nodup_append_comm.mp
            (List.nodup_cons.mpr ⟨newBranch, branches⟩)
        · intro other member
          rcases List.mem_append.mp member with before | last
          · exact passed other before
          · rwa [List.mem_singleton.mp last]
    rw [intake_append, Intake.add_reasons_eq_nil, split, same]
    constructor
    · refine and_congr_right fun acceptable => ?_
      rw [(taken acceptable).keys, (taken acceptable).branches]
    · rintro ⟨acceptable, valid, new, _⟩
      apply (taken acceptable).add valid
      rwa [(taken acceptable).keys]

theorem Acceptable.of_perm {units others : List VerifiedUnit}
    (acceptable : Acceptable policy units) (permuted : units.Perm others) :
    Acceptable policy others where
  valid unit member := acceptable.valid unit (permuted.mem_iff.mpr member)
  ids := (permuted.map VerifiedUnit.id).nodup_iff.mp acceptable.ids
  branches := (permuted.map branchKey).nodup_iff.mp acceptable.branches
  passed unit member := acceptable.passed unit (permuted.mem_iff.mpr member)

end Intakes

/-! ## Inputs without reasons -/

/-- No check of the input finds a reason against it. -/
structure Sound (input : PlanningInput) : Prop where
  checked : inputReasons input = []
  acceptable : Acceptable input.policy input.units
  chained : chainReasons (intake input.policy input.units).byId = []

/-- The dependencies of the units. -/
abbrev DependsOn (units : List VerifiedUnit) : String → String → Prop :=
  Edge VerifiedUnit.id VerifiedUnit.dependsOn units

section Checks

variable {input : PlanningInput} {others : List VerifiedUnit}

theorem requires_congr {holds same : Prop} [Decidable holds]
    [Decidable same] (equivalent : holds ↔ same) (reason : String) :
    requires holds reason = requires same reason := by
  rw [requires, requires]
  split
  · next held => rw [if_pos (equivalent.mp held)]
  · next failed => rw [if_neg fun held => failed (equivalent.mpr held)]

theorem inputReasons_of_perm (permuted : input.units.Perm others) :
    inputReasons { input with units := others } = inputReasons input := by
  have counted : (others ≠ [] ∧ others.length ≤ 500) ↔
      (input.units ≠ [] ∧ input.units.length ≤ 500) := by
    rw [← List.length_pos_iff, ← List.length_pos_iff, permuted.length_eq]
  rw [inputReasons, inputReasons]
  exact congrArg _ (requires_congr counted _)

theorem Taken.get? {units : List VerifiedUnit} {intake : Intake}
    (taken : Taken units intake) {id : String} {unit : VerifiedUnit} :
    intake.byId.get? id = some unit ↔ unit ∈ units ∧ unit.id = id := by
  rw [← OrderedMap.mem_entries_iff, taken.entries, List.mem_map]
  constructor
  · rintro ⟨other, member, same⟩
    cases same
    exact ⟨member, rfl⟩
  · rintro ⟨member, rfl⟩
    exact ⟨unit, member, rfl⟩

theorem Taken.get?_of_perm {units : List VerifiedUnit}
    {intake other : Intake} (taken : Taken units intake)
    (takenOther : Taken others other) (permuted : units.Perm others) :
    other.byId.get? = intake.byId.get? := by
  funext id
  apply Option.ext
  intro unit
  rw [takenOther.get?, taken.get?, permuted.mem_iff]

theorem Sound.of_perm (sound : Sound input)
    (permuted : input.units.Perm others) :
    Sound { input with units := others } := by
  have acceptable := sound.acceptable.of_perm permuted
  have taken := (intake_spec input.units).2 sound.acceptable
  have takenOther := (intake_spec others).2 acceptable
  refine ⟨(inputReasons_of_perm permuted).trans sound.checked, acceptable, ?_⟩
  have chained := sound.chained
  rw [chainReasons, List.flatMap_eq_nil_iff, taken.values] at chained
  rw [chainReasons, List.flatMap_eq_nil_iff, takenOther.values]
  intro unit member
  have inside := chained unit (permuted.mem_iff.mpr member)
  have same : dependencyReasons (intake input.policy others).byId unit =
      dependencyReasons (intake input.policy input.units).byId unit := by
    funext dependencyId
    rw [dependencyReasons, dependencyReasons,
      taken.get?_of_perm takenOther permuted]
  rw [← inside]
  exact congrArg (List.flatMap · unit.dependsOn) same

theorem Sound.closed (sound : Sound input) :
    Closed VerifiedUnit.id VerifiedUnit.dependsOn input.units := by
  have taken := (intake_spec input.units).2 sound.acceptable
  intro unit member dependencyId depends
  have chained := sound.chained
  rw [chainReasons, List.flatMap_eq_nil_iff, taken.values] at chained
  have reasons := List.flatMap_eq_nil_iff.mp (chained unit member)
    dependencyId depends
  simp only [dependencyReasons, List.append_eq_nil_iff, requires_eq_nil]
    at reasons
  obtain ⟨other, found⟩ := Option.isSome_iff_exists.mp reasons.1.1
  exact ⟨other, taken.get?.mp found⟩

theorem Sound.maximum (sound : Sound input) :
    0 < input.policy.maxDraftPullRequestsPerWave := by
  have checked := sound.checked
  simp only [inputReasons, List.append_eq_nil_iff, requires_eq_nil]
    at checked
  exact checked.1.1.1.1.1.1.2.2.1

end Checks

/-! ## Plans of sound inputs -/

section Planning

variable (collation : Collation) (sha256 : String → String)

/-- The plan of these waves. -/
def planWith (input : PlanningInput) (waves : List (List VerifiedUnit)) :
    Plan :=
  let body := planBody input waves
  let digest := digestOf collation sha256 body
  { toPlanBody := body, id := planId digest, digest := digest }

/-- The waves of the units of an input. -/
abbrev wavesOf (input : PlanningInput) :
    Except String (List (List VerifiedUnit)) :=
  dependencyWaves collation input.units
    input.policy.maxDraftPullRequestsPerWave

variable {collation} {sha256} {input : PlanningInput}
  {waves : List (List VerifiedUnit)}

theorem Sound.noReasons (sound : Sound input) :
    inputReasons input ++ (intake input.policy input.units).reasons ++
      chainReasons (intake input.policy input.units).byId = [] := by
  rw [sound.checked, sound.chained,
    (intake_spec input.units).1.mpr sound.acceptable]
  rfl

theorem Sound.values (sound : Sound input) :
    (intake input.policy input.units).byId.values = input.units :=
  ((intake_spec input.units).2 sound.acceptable).values

theorem plan_of_waves (sound : Sound input)
    (ordered : wavesOf collation input = .ok waves) :
    planStagedPullRequestBatches collation sha256 input =
      .ok (planWith collation sha256 input waves) := by
  rw [wavesOf] at ordered
  rw [planStagedPullRequestBatches]
  rw [if_neg (not_not_intro sound.noReasons), sound.values, ordered]
  rfl

theorem abstained_of_stuck (sound : Sound input) {reason : String}
    (stuck : wavesOf collation input = .error reason) :
    planStagedPullRequestBatches collation sha256 input =
      .error [reason] := by
  rw [wavesOf] at stuck
  rw [planStagedPullRequestBatches]
  rw [if_neg (not_not_intro sound.noReasons), sound.values, stuck]
  rfl

theorem sound_of_plan {plan : Plan}
    (accepted : planStagedPullRequestBatches collation sha256 input =
      .ok plan) :
    Sound input ∧ ∃ waves, wavesOf collation input = .ok waves ∧
      plan = planWith collation sha256 input waves := by
  have sound : Sound input := by
    rw [planStagedPullRequestBatches] at accepted
    split at accepted
    · cases accepted
    · next noReasons =>
        rw [not_not, List.append_eq_nil_iff, List.append_eq_nil_iff]
          at noReasons
        exact ⟨noReasons.1.1, (intake_spec _).1.mp noReasons.1.2,
          noReasons.2⟩
  refine ⟨sound, ?_⟩
  cases ordered : wavesOf collation input with
  | ok waves =>
    rw [plan_of_waves sound ordered] at accepted
    cases accepted
    exact ⟨waves, rfl, rfl⟩
  | error reason =>
    rw [abstained_of_stuck sound ordered] at accepted
    cases accepted

theorem dependencyWavesFrom_ok {maximum : Int} (positive : 0 < maximum)
    {units : List VerifiedUnit}
    (acyclic : Acyclic (DependsOn units))
    (closed : Closed VerifiedUnit.id VerifiedUnit.dependsOn units)
    (rounds : Nat) {completed : List String} {remaining : List VerifiedUnit}
    (inside : ∀ unit ∈ remaining, unit ∈ units)
    (known : ∀ unit ∈ units, unit.id ∈ completed ∨ unit ∈ remaining) :
    ∃ waves, dependencyWavesFrom collation maximum rounds completed
      remaining = .ok waves := by
  induction rounds generalizing completed remaining with
  | zero => exact ⟨[], rfl⟩
  | succ rounds inductionHypothesis =>
    cases remaining with
    | nil => exact ⟨[], rfl⟩
    | cons first rest =>
      obtain ⟨unit, member, ready⟩ := exists_ready acyclic closed known
        inside (List.cons_ne_nil first rest)
      have nonempty := @nextWave_ne_nil collation maximum positive
        completed _ unit member ready
      rw [dependencyWavesFrom]
      rw [if_neg nonempty]
      obtain ⟨later, ordered⟩ := @inductionHypothesis
        (completed ++ (nextWave collation maximum completed
          (first :: rest)).map VerifiedUnit.id)
        ((first :: rest).filter fun unit => decide (unit.id ∉
          (nextWave collation maximum completed (first :: rest)).map
            VerifiedUnit.id))
        (fun unit member => inside unit (List.mem_filter.mp member).1)
        (fun unit member => by
          rcases known unit member with before | remains
          · exact .inl (List.mem_append_left _ before)
          · by_cases taken : unit.id ∈ (nextWave collation maximum
                completed (first :: rest)).map VerifiedUnit.id
            · exact .inl (List.mem_append_right _ taken)
            · exact .inr (List.mem_filter.mpr
                ⟨remains, decide_eq_true taken⟩))
      exact ⟨_, by rw [ordered]; rfl⟩

theorem accepted_iff :
    (∃ plan, planStagedPullRequestBatches collation sha256 input =
        .ok plan) ↔
      Sound input ∧ Acyclic (DependsOn input.units) := by
  constructor
  · rintro ⟨plan, accepted⟩
    obtain ⟨sound, waves, ordered, _⟩ := sound_of_plan accepted
    refine ⟨sound, ?_⟩
    exact acyclic_of_covers (dependencyWavesFrom_covers sound.acceptable.ids
      (Nat.le_refl _) ordered) sound.acceptable.ids
  · rintro ⟨sound, acyclic⟩
    obtain ⟨waves, ordered⟩ := @dependencyWavesFrom_ok collation _
      sound.maximum _ acyclic sound.closed input.units.length [] input.units
      (fun _ member => member) (fun _ member => .inr member)
    exact ⟨_, plan_of_waves sound ordered⟩

theorem abstained_of_cycle (sound : Sound input)
    (cyclic : ¬ Acyclic (DependsOn input.units)) :
    ∃ ids, planStagedPullRequestBatches collation sha256 input =
      .error ["unit_dependency_cycle:" ++ ids] := by
  rcases @dependencyWavesFrom_cases collation
    input.policy.maxDraftPullRequestsPerWave input.units.length []
    input.units with ⟨waves, ordered⟩ | ⟨ids, stuck⟩
  · exact absurd (accepted_iff.mp
      ⟨_, @plan_of_waves _ sha256 _ _ sound ordered⟩).2 cyclic
  · exact ⟨ids, abstained_of_stuck sound stuck⟩

end Planning

/-! ## Promises -/

/-- The units whose pull requests a wave holds. -/
def Wave.unitIds (wave : Wave) : List String :=
  wave.pullRequests.map PullRequest.unitId

/-- The wave of the index has a pull request of the unit. -/
def Plan.HasUnit (plan : Plan) (unitId : String) (index : Nat) : Prop :=
  ∃ wave, plan.waves[index]? = some wave ∧ unitId ∈ wave.unitIds

/-- Every unit once, after its dependencies, in small mixed waves. -/
structure WellScheduled (input : PlanningInput) (plan : Plan) : Prop where
  units : (plan.waves.flatMap Wave.pullRequests).Perm
    (input.units.map (pullRequestOf (normalizedPolicy input.policy)))
  once : (plan.waves.flatMap Wave.unitIds).Nodup
  dependencies : ∀ unit ∈ input.units, ∀ dependency ∈ unit.dependsOn,
    ∀ index, plan.HasUnit unit.id index →
      ∃ earlier < index, plan.HasUnit dependency earlier
  nonempty : ∀ wave ∈ plan.waves, 1 ≤ wave.pullRequests.length
  bounded : ∀ wave ∈ plan.waves, (wave.pullRequests.length : Int) ≤
    input.policy.maxDraftPullRequestsPerWave
  repositories : ∀ wave ∈ plan.waves,
    (wave.pullRequests.map PullRequest.repositoryId).Nodup

section Promises

variable (collation : Collation) (sha256 : String → String)

/-- The planning of an input does what is promised of it. -/
structure Promised (input : PlanningInput) : Prop where
  scheduled : ∀ plan, planStagedPullRequestBatches collation sha256 input =
    .ok plan → WellScheduled input plan
  unordered : ∀ plan, planStagedPullRequestBatches collation sha256 input =
    .ok plan → ∀ others, input.units.Perm others →
      planStagedPullRequestBatches collation sha256
        { input with units := others } = .ok plan
  abstained : Sound input → ¬ Acyclic (DependsOn input.units) →
    ∃ ids, planStagedPullRequestBatches collation sha256 input =
      .error ["unit_dependency_cycle:" ++ ids]

/--
No unit is put into a wave in the place of a ready one whose id compares equal.
-/
def Undisputed (input : PlanningInput) : Prop :=
  UndisputedFrom collation input.policy.maxDraftPullRequestsPerWave
    input.units.length [] input.units

variable {collation} {sha256} {input : PlanningInput}
  {waves : List (List VerifiedUnit)}

theorem waves_planWith :
    (planWith collation sha256 input waves).waves =
      waves.zipIdx.map fun entry =>
        waveOf (normalizedPolicy input.policy) entry.1 entry.2 := rfl

theorem pullRequests_planWith :
    (planWith collation sha256 input waves).waves.map Wave.pullRequests =
      waves.map (List.map (pullRequestOf (normalizedPolicy input.policy))) := by
  rw [waves_planWith, List.map_map]
  have same : (fun entry : List VerifiedUnit × Nat =>
      (waveOf (normalizedPolicy input.policy) entry.1
        entry.2).pullRequests) =
      List.map (pullRequestOf (normalizedPolicy input.policy)) ∘
        Prod.fst := rfl
  rw [show Wave.pullRequests ∘ (fun entry : List VerifiedUnit × Nat =>
      waveOf (normalizedPolicy input.policy) entry.1 entry.2) = _ from same,
    ← List.map_map, List.zipIdx_map_fst]

theorem unitIds_planWith :
    (planWith collation sha256 input waves).waves.map Wave.unitIds =
      waves.map (List.map VerifiedUnit.id) := by
  have images := congrArg (List.map (List.map PullRequest.unitId))
    (@pullRequests_planWith collation sha256 input waves)
  rw [List.map_map, List.map_map] at images
  refine images.trans (List.map_congr_left fun wave _ => ?_)
  rw [Function.comp_apply, List.map_map]
  rfl

theorem hasUnit_planWith {unitId : String} {index : Nat} :
    (planWith collation sha256 input waves).HasUnit unitId index ↔
      Placed VerifiedUnit.id waves unitId index := by
  have images := congrArg (·[index]?)
    (@unitIds_planWith collation sha256 input waves)
  simp only [List.getElem?_map] at images
  constructor
  · rintro ⟨wave, found, member⟩
    rw [found] at images
    obtain ⟨units, there, same⟩ := Option.map_eq_some_iff.mp images.symm
    rw [← same] at member
    exact ⟨units, there, List.mem_map.mp member⟩
  · rintro ⟨units, found, member⟩
    rw [found] at images
    obtain ⟨wave, there, same⟩ := Option.map_eq_some_iff.mp images
    exact ⟨wave, there, same ▸ List.mem_map.mpr member⟩

theorem mem_waves_planWith {wave : Wave}
    (member : wave ∈ (planWith collation sha256 input waves).waves) :
    ∃ units ∈ waves, wave.pullRequests =
      units.map (pullRequestOf (normalizedPolicy input.policy)) := by
  have image := List.mem_map_of_mem (f := Wave.pullRequests) member
  rw [pullRequests_planWith] at image
  obtain ⟨units, inside, same⟩ := List.mem_map.mp image
  exact ⟨units, inside, same.symm⟩

theorem wellScheduled_planWith (sound : Sound input)
    (ordered : wavesOf collation input = .ok waves) :
    WellScheduled input (planWith collation sha256 input waves) := by
  have covers := dependencyWavesFrom_covers sound.acceptable.ids
    (Nat.le_refl _) ordered
  constructor
  · rw [List.flatMap_def, pullRequests_planWith, ← List.map_flatten]
    exact covers.perm.map _
  · rw [List.flatMap_def, unitIds_planWith, ← List.map_flatten]
    exact (covers.perm.map _).nodup_iff.mpr sound.acceptable.ids
  · intro unit member dependency depends index placed
    obtain ⟨earlier, less, there⟩ := earlier_of_edge covers
      sound.acceptable.ids ⟨unit, member, rfl, depends⟩
      (hasUnit_planWith.mp placed)
    exact ⟨earlier, less, hasUnit_planWith.mpr there⟩
  · intro wave member
    obtain ⟨units, inside, same⟩ := mem_waves_planWith member
    rw [same, List.length_map]
    exact List.length_pos_iff.mpr (dependencyWavesFrom_wave ordered inside).1
  · intro wave member
    obtain ⟨units, inside, same⟩ := mem_waves_planWith member
    rw [same, List.length_map]
    exact dependencyWavesFrom_length sound.maximum.le ordered inside
  · intro wave member
    obtain ⟨units, inside, same⟩ := mem_waves_planWith member
    rw [same, List.map_map]
    exact (dependencyWavesFrom_wave ordered inside).2

theorem waves_eq_of_planWith_eq (sound : Sound input)
    {others : List VerifiedUnit} {otherWaves : List (List VerifiedUnit)}
    (inside : ∀ wave ∈ waves, ∀ unit ∈ wave, unit ∈ input.units)
    (otherInside : ∀ wave ∈ otherWaves, ∀ unit ∈ wave, unit ∈ input.units)
    (same : planWith collation sha256 { input with units := others }
      otherWaves = planWith collation sha256 input waves) :
    otherWaves = waves := by
  have images := congrArg (fun plan => plan.waves.map Wave.unitIds) same
  simp only [unitIds_planWith] at images
  refine Distinct.eq_of_map_eq (fun wave member other memberOther equal => ?_)
    images
  refine Distinct.eq_of_map_eq (fun unit inWave another inOther sameId => ?_)
    equal
  exact List.inj_on_of_nodup_map sound.acceptable.ids
    (otherInside wave member unit inWave)
    (inside other memberOther another inOther) sameId

theorem unordered_iff (sound : Sound input)
    (ordered : wavesOf collation input = .ok waves) :
    (∀ others, input.units.Perm others →
      planStagedPullRequestBatches collation sha256
        { input with units := others } =
          .ok (planWith collation sha256 input waves)) ↔
      Undisputed collation input := by
  constructor
  · intro unordered
    refine undisputedFrom_of_front sound.acceptable.ids ordered
      fun unit member => ?_
    have permuted := List.perm_cons_erase member
    obtain ⟨soundOther, otherWaves, orderedOther, same⟩ :=
      sound_of_plan (unordered _ permuted)
    have size : (unit :: input.units.erase unit).length =
        input.units.length := permuted.length_eq.symm
    rw [wavesOf, dependencyWaves, size] at orderedOther
    rw [orderedOther]
    refine congrArg _ (waves_eq_of_planWith_eq sound ?_ ?_ same.symm)
    · intro wave inWaves unit inWave
      exact (dependencyWavesFrom_covers sound.acceptable.ids (Nat.le_refl _)
        ordered).perm.mem_iff.mp (List.mem_flatten_of_mem inWaves inWave)
    · intro wave inWaves unit inWave
      exact permuted.mem_iff.mpr ((dependencyWavesFrom_covers
        soundOther.acceptable.ids size.le
        orderedOther).perm.mem_iff.mp
          (List.mem_flatten_of_mem inWaves inWave))
  · intro undisputed others permuted
    apply plan_of_waves (sound.of_perm permuted)
    rw [wavesOf, dependencyWaves, ← permuted.length_eq,
      dependencyWavesFrom_eq_of_perm permuted undisputed]
    exact ordered

/--
Planning does what is promised exactly where an accepted input is undisputed.
-/
theorem promised_iff :
    Promised collation sha256 input ↔
      (Sound input → Acyclic (DependsOn input.units) →
        Undisputed collation input) := by
  constructor
  · intro promised sound acyclic
    obtain ⟨plan, accepted⟩ :=
      (@accepted_iff collation sha256 input).mpr ⟨sound, acyclic⟩
    obtain ⟨_, waves, ordered, rfl⟩ := sound_of_plan accepted
    exact (unordered_iff sound ordered).mp (promised.unordered _ accepted)
  · intro undisputed
    constructor
    · intro plan accepted
      obtain ⟨sound, waves, ordered, rfl⟩ := sound_of_plan accepted
      exact wellScheduled_planWith sound ordered
    · intro plan accepted
      obtain ⟨_, acyclic⟩ := accepted_iff.mp ⟨plan, accepted⟩
      obtain ⟨sound, waves, ordered, rfl⟩ := sound_of_plan accepted
      exact (unordered_iff sound ordered).mpr (undisputed sound acyclic)
    · exact abstained_of_cycle

end Promises

/-! ## Ids which compare equal -/

/-- A change of a repository by the unit of the id. -/
def tiedUnit (id repositoryId : String) : VerifiedUnit where
  id := id
  title := "Upgrade"
  repositoryId := repositoryId
  provider := .github
  baseBranch := "main"
  headBranch := "upgrade"
  sourceRevision := String.ofList (List.replicate 40 'a')
  candidateRevision := String.ofList (List.replicate 40 'b')
  dependsOn := []
  authorId := "author"
  evidenceRefs := ["diff"]
  verification := {
    status := .verified
    artifactDigest := "sha256:" ++ String.ofList (List.replicate 64 'c')
    verifiedRevision := String.ofList (List.replicate 40 'b')
    evidenceRefs := ["tests"] }

/-- Two units whose ids are two spellings of one text. -/
def tiedInput : PlanningInput where
  plannedAt := "2026-08-02T00:00:00.000Z"
  campaign := {
    id := "campaign"
    revision := 1
    blueprintId := "blueprint"
    blueprintDigest := "sha256:" ++ String.ofList (List.replicate 64 'd')
    state := .ready }
  policy := {
    maxDraftPullRequestsPerWave := 2
    advanceOn := .merged
    requiredCheckNames := ["ci"]
    reviewerIds := ["reviewer"]
    minimumApprovals := 1
    prohibitAuthorApproval := true
    requireConversationResolution := true }
  units := [tiedUnit "é" "first", tiedUnit "e\u0301" "second"]

theorem sound_tiedInput : Sound tiedInput where
  checked := by decide
  acceptable := (intake_spec _).1.mp (by decide)
  chained := by decide

/-- The order of the two units is the order of their pull requests. -/
theorem not_promised : ¬ Promised Collation.composing id tiedInput := by
  intro promised
  have permuted : tiedInput.units.Perm tiedInput.units.reverse :=
    (List.reverse_perm _).symm
  have ordered : wavesOf Collation.composing tiedInput =
      .ok [tiedInput.units] := by decide
  have reversed : wavesOf Collation.composing
      { tiedInput with units := tiedInput.units.reverse } =
        .ok [tiedInput.units.reverse] := by decide
  have same := promised.unordered _ (plan_of_waves sound_tiedInput ordered)
    _ permuted
  rw [plan_of_waves (sound_tiedInput.of_perm permuted) reversed] at same
  have images := congrArg (fun plan : Plan => plan.waves.map Wave.unitIds)
    (Except.ok.inj same)
  simp only [unitIds_planWith] at images
  exact absurd images (by decide)

end Mendpoint.StagedPr
