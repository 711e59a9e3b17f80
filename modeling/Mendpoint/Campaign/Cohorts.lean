import Mendpoint.Campaign.Executable
import Mendpoint.Campaign.Targets

/-!
# Cohorts of a rollout

What the packing of ready targets keeps: the size of a cohort, the limits of
the owners, and every target once.  A plan of a reachable campaign never meets
a cycle, and it does not depend on the order of the profiles.
-/

namespace Mendpoint.Campaign

open Mendpoint.Library
open Mendpoint.Library.Attempt
open Mendpoint.Library.DependencyWaves
open Mendpoint.Library.Fallible
open Mendpoint.Library.IsoTime

/-! ## What one cohort may hold -/

/-- The targets of an owner among some. -/
def ofOwner (owner : String) (items : List PlannedTarget) :
    List PlannedTarget :=
  items.filter fun item => decide (item.profile.ownerGroup = owner)

/-- Profiles of one owner have one limit. -/
def SameLimits (profiles : List WardenRolloutTargetProfile) : Prop :=
  ∀ one ∈ profiles, ∀ other ∈ profiles,
    one.ownerGroup = other.ownerGroup →
      one.ownerMaxParallel = other.ownerMaxParallel

/-- Some targets within the size of a cohort and the limits of all owners. -/
structure Fitting (maxCohortSize : Int) (all items : List PlannedTarget) :
    Prop where
  size : items.length ≤ maxCohortSize
  owners : ∀ one ∈ all,
    (ofOwner one.profile.ownerGroup items).length ≤
      one.profile.ownerMaxParallel

variable {maxCohortSize : Int} {all items ready : List PlannedTarget}
  {item : PlannedTarget} {selection : Selection}

theorem ofOwner_concat (owner : String) :
    (ofOwner owner (items ++ [item])).length =
      (ofOwner owner items).length +
        if item.profile.ownerGroup = owner then 1 else 0 := by
  rw [ofOwner, List.filter_append, List.length_append, List.filter_cons,
    List.filter_nil]
  by_cases same : item.profile.ownerGroup = owner
  · rw [if_pos (decide_eq_true same), if_pos same]
    rfl
  · rw [if_neg (by simp [same]), if_neg same]
    rfl

theorem Fitting.concat
    (limits : SameLimits (all.map PlannedTarget.profile))
    (inside : item ∈ all) (fitting : Fitting maxCohortSize all items)
    (room : items.length < maxCohortSize)
    (free : (ofOwner item.profile.ownerGroup items).length <
      item.profile.ownerMaxParallel) :
    Fitting maxCohortSize all (items ++ [item]) where
  size := by
    rw [List.length_append, List.length_singleton]
    omega
  owners := by
    intro one member
    have before := fitting.owners one member
    rw [ofOwner_concat]
    split
    · next same =>
        have limit := limits _ (List.mem_map_of_mem inside) _
          (List.mem_map_of_mem member) same
        rw [same] at free
        omega
    · exact before

/-- The counts of the owners are those of the selected targets. -/
def Selection.Counted (selection : Selection) : Prop :=
  ∀ owner, selection.ownerCounts.getD owner 0 =
    (ofOwner owner selection.selected).length

theorem consider_fitting
    (limits : SameLimits (all.map PlannedTarget.profile))
    (inside : item ∈ all) (counted : selection.Counted)
    (fitting : Fitting maxCohortSize all selection.selected) :
    (consider maxCohortSize selection item).Counted ∧
      Fitting maxCohortSize all
        (consider maxCohortSize selection item).selected := by
  rw [consider]
  split
  · exact ⟨counted, fitting⟩
  next room =>
    split
    · exact ⟨counted, fitting⟩
    next free =>
      split
      · exact ⟨counted, fitting⟩
      rw [counted] at free
      refine ⟨?_, fitting.concat limits inside (by omega) (by omega)⟩
      intro owner
      show (selection.ownerCounts.set item.profile.ownerGroup _).getD owner 0
        = (ofOwner owner (selection.selected ++ [item])).length
      rw [OrderedMap.getD_set, ofOwner_concat, counted]
      by_cases same : item.profile.ownerGroup = owner
      · rw [if_pos same, if_pos same, same]
      · rw [if_neg same, if_neg same, counted]
        rfl

theorem foldl_consider_fitting
    (limits : SameLimits (all.map PlannedTarget.profile))
    (inside : ∀ item ∈ ready, item ∈ all) (counted : selection.Counted)
    (fitting : Fitting maxCohortSize all selection.selected) :
    Fitting maxCohortSize all
        (ready.foldl (consider maxCohortSize) selection).selected ∧
      (ready.foldl (consider maxCohortSize) selection).selected.Sublist
        (selection.selected ++ ready) := by
  induction ready generalizing selection with
  | nil =>
    refine ⟨fitting, ?_⟩
    rw [List.append_nil]
    exact List.Sublist.refl _
  | cons item rest inductionHypothesis =>
    rw [List.forall_mem_cons] at inside
    rcases consider_fitting limits inside.1 counted fitting with
      ⟨countedNext, fittingNext⟩
    rcases inductionHypothesis inside.2 countedNext fittingNext with
      ⟨last, sub⟩
    refine ⟨last, sub.trans ?_⟩
    rcases selected_consider maxCohortSize selection item with same | more
    · rw [same]
      exact (List.Sublist.refl _).append (List.sublist_cons_self _ _)
    · rw [more, List.append_assoc]
      exact List.Sublist.refl _

theorem fitting_nil (positive : 0 ≤ maxCohortSize)
    (each : ∀ one ∈ all, 1 ≤ one.profile.ownerMaxParallel) :
    Fitting maxCohortSize all [] where
  size := positive
  owners := by
    intro one member
    have limit := each one member
    show ((0 : Nat) : Int) ≤ _
    omega

theorem fitting_singleton (positive : 1 ≤ maxCohortSize)
    (each : ∀ one ∈ all, 1 ≤ one.profile.ownerMaxParallel)
    (item : PlannedTarget) : Fitting maxCohortSize all [item] where
  size := positive
  owners := by
    intro one member
    have limit := each one member
    have few := List.length_filter_le
      (fun item : PlannedTarget =>
        decide (item.profile.ownerGroup = one.profile.ownerGroup)) [item]
    rw [List.length_singleton] at few
    rw [ofOwner]
    omega

theorem selectCohort_fitting {first : PlannedTarget}
    {rest : List PlannedTarget}
    (limits : SameLimits (all.map PlannedTarget.profile))
    (positive : 1 ≤ maxCohortSize)
    (each : ∀ one ∈ all, 1 ≤ one.profile.ownerMaxParallel)
    (inside : ∀ item ∈ first :: rest, item ∈ all) :
    Fitting maxCohortSize all
        (selectCohort maxCohortSize first (first :: rest)).selected ∧
      (selectCohort maxCohortSize first (first :: rest)).selected.Sublist
        (first :: rest) := by
  have packed := @foldl_consider_fitting maxCohortSize all _ Selection.empty
    limits inside (fun owner => rfl) (fitting_nil (by omega) each)
  rw [selectCohort]
  generalize (first :: rest).foldl (consider maxCohortSize)
    Selection.empty = selection at packed ⊢
  cases selected : selection.selected with
  | nil =>
    exact ⟨fitting_singleton positive each first,
      List.singleton_sublist.mpr List.mem_cons_self⟩
  | cons head tail => exact packed

/-! ## The rounds -/

/-- The targets of a cohort are some of the given ones, within all limits. -/
def Cohort.Packs (maxCohortSize : Int) (all items : List PlannedTarget)
    (cohort : Cohort) : Prop :=
  ∃ selected : List PlannedTarget,
    cohort.targetIds = selected.map PlannedTarget.id ∧ selected ≠ [] ∧
      selected.Nodup ∧ Fitting maxCohortSize all selected ∧
      ∀ item ∈ selected, item ∈ items

/-- What a round has left. -/
def unselected (selected items : List PlannedTarget) : List PlannedTarget :=
  items.filter fun item =>
    decide (item.id ∉ selected.map PlannedTarget.id)

section Selected

variable {selected : List PlannedTarget}
  (distinct : (items.map PlannedTarget.id).Nodup) (once : selected.Nodup)
  (inside : ∀ item ∈ selected, item ∈ items)

include distinct once inside

theorem filter_selected_perm :
    (items.filter fun item =>
      decide (item.id ∈ selected.map PlannedTarget.id)).Perm selected := by
  refine (List.perm_ext_iff_of_nodup
    ((List.Nodup.of_map _ distinct).filter _) once).mpr fun item => ?_
  rw [List.mem_filter, decide_eq_true_eq, List.mem_map]
  constructor
  · rintro ⟨member, other, chosen, named⟩
    exact Table.eq_of_key distinct (inside other chosen) member named ▸
      chosen
  · exact fun chosen => ⟨inside item chosen, item, chosen, rfl⟩

theorem selected_append_perm :
    (selected ++ unselected selected items).Perm items := by
  have apart : unselected selected items = items.filter fun item =>
      !decide (item.id ∈ selected.map PlannedTarget.id) := by
    rw [unselected]
    refine List.filter_congr fun item _ => ?_
    rw [decide_not]
  rw [apart]
  exact ((filter_selected_perm distinct once inside).symm.append_right
    _).trans (List.filter_append_perm _ _)

end Selected

section Rounds

variable {collation : Collation} {cohorts : List Cohort}
  {scheduled : List String} {remaining planned : List PlannedTarget}
  {rounds sequence : Nat}

theorem rolloutCohorts_packs
    (limits : SameLimits (all.map PlannedTarget.profile))
    (positive : 1 ≤ maxCohortSize)
    (each : ∀ one ∈ all, 1 ≤ one.profile.ownerMaxParallel)
    (inside : ∀ item ∈ remaining, item ∈ all)
    (distinct : (remaining.map PlannedTarget.id).Nodup)
    (valid : ∀ item ∈ remaining, item.window.Valid)
    (enough : remaining.length ≤ rounds)
    (made : rolloutCohorts collation maxCohortSize rounds sequence scheduled
      remaining = .ok cohorts) :
    (cohorts.flatMap Cohort.targetIds).Perm
        (remaining.map PlannedTarget.id) ∧
      ∀ cohort ∈ cohorts, cohort.Packs maxCohortSize all remaining := by
  induction rounds generalizing sequence scheduled remaining cohorts with
  | zero =>
    cases made
    rw [List.eq_nil_of_length_eq_zero (Nat.le_zero.mp enough)]
    exact ⟨List.Perm.refl _, List.forall_mem_nil _⟩
  | succ rounds inductionHypothesis =>
    rw [rolloutCohorts] at made
    split at made
    · next empty =>
        cases made
        rw [List.isEmpty_iff.mp empty]
        exact ⟨List.Perm.refl _, List.forall_mem_nil _⟩
    cases isReady : readyTargets collation scheduled remaining with
    | nil =>
      rw [isReady] at made
      cases made
    | cons first rest =>
      rw [isReady] at made
      simp only [bind_eq_ok, pure_eq_ok] at made
      rcases made with ⟨others, later, rfl⟩
      have ready : ∀ item ∈ first :: rest, item ∈ remaining := by
        intro item member
        rw [← isReady] at member
        exact (mem_readyTargets.mp member).1
      have readyOnce : (first :: rest).Nodup := by
        rw [← isReady, readyTargets, sortTargets,
          (List.perm_insertionSort _ _).nodup_iff]
        exact (List.Nodup.of_map _ distinct).filter _
      rcases @selectCohort_fitting maxCohortSize all first rest limits
        positive each (fun item member => inside item (ready item member))
        with ⟨fits, sub⟩
      have some := (@selectCohort_spec maxCohortSize first rest
        (fun item member => valid item (ready item member))).1
      generalize selectCohort maxCohortSize first (first :: rest) =
        selection at later fits sub some ⊢
      have taken : ∀ item ∈ selection.selected, item ∈ remaining :=
        fun item member => ready item (sub.subset member)
      have split := selected_append_perm distinct (readyOnce.sublist sub)
        taken
      have fewer : (unselected selection.selected remaining).length ≤
          rounds := by
        have lengths := split.length_eq
        have least := List.length_pos_iff.mpr some
        rw [List.length_append] at lengths
        omega
      rcases inductionHypothesis
        (fun item member => inside item (List.mem_of_mem_filter member))
        (distinct.sublist (List.filter_sublist.map _))
        (fun item member => valid item (List.mem_of_mem_filter member))
        fewer later with ⟨covers, packs⟩
      constructor
      · rw [List.flatMap_cons]
        have whole := split.map PlannedTarget.id
        rw [List.map_append] at whole
        exact (covers.append_left _).trans whole
      · rw [List.forall_mem_cons]
        refine ⟨⟨selection.selected, rfl, some, readyOnce.sublist sub, fits,
          taken⟩, ?_⟩
        intro cohort member
        rcases packs cohort member with
          ⟨selected, named, filled, once, fit, from_⟩
        exact ⟨selected, named, filled, once, fit, fun item chosen =>
          List.mem_of_mem_filter (from_ item chosen)⟩

/-- While a target remains, one of those which remain is ready. -/
theorem rolloutCohorts_ok
    (acyclic : Acyclic (Edge PlannedTarget.id
      (fun item => item.target.dependsOn) planned))
    (closed : Closed PlannedTarget.id (fun item => item.target.dependsOn)
      planned)
    (known : ∀ item ∈ planned, item.id ∈ scheduled ∨ item ∈ remaining)
    (inside : ∀ item ∈ remaining, item ∈ planned) :
    ∃ cohorts, rolloutCohorts collation maxCohortSize rounds sequence
      scheduled remaining = .ok cohorts := by
  induction rounds generalizing sequence scheduled remaining with
  | zero => exact ⟨[], rfl⟩
  | succ rounds inductionHypothesis =>
    rw [rolloutCohorts]
    split
    · exact ⟨[], rfl⟩
    next nonempty =>
      rw [List.isEmpty_iff] at nonempty
      rcases exists_ready acyclic closed known inside nonempty with
        ⟨item, member, complete⟩
      cases isReady : readyTargets collation scheduled remaining with
      | nil =>
        have one : item ∈ readyTargets collation scheduled remaining :=
          mem_readyTargets.mpr ⟨member, complete⟩
        rw [isReady] at one
        cases one
      | cons first rest =>
        have onward : ∀ selected : List PlannedTarget,
            ∃ others, rolloutCohorts collation maxCohortSize rounds
              (sequence + 1) (scheduled ++ selected.map PlannedTarget.id)
              (unselected selected remaining) = .ok others := by
          intro selected
          refine inductionHypothesis ?_ fun item member =>
            inside item (List.mem_of_mem_filter member)
          intro item member
          rw [List.mem_append]
          by_cases chosen : item.id ∈ selected.map PlannedTarget.id
          · exact Or.inl (Or.inr chosen)
          · refine (known item member).imp Or.inl fun waits => ?_
            exact List.mem_filter.mpr ⟨waits, decide_eq_true chosen⟩
        rcases onward (selectCohort maxCohortSize first
          (first :: rest)).selected with ⟨others, later⟩
        exact ⟨_, bind_eq_ok.mpr ⟨others, later, rfl⟩⟩

end Rounds

/-! ## Reading the profiles -/

/-- What is asked of one profile. -/
structure Readable (targets : List WardenCampaignTarget)
    (profile : WardenRolloutTargetProfile) : Prop where
  known : profile.targetId ∈ targets.map WardenCampaignTarget.id
  rated : rate profile.verificationConfidence
  counted : countable profile.ownerMaxParallel
  named : ∃ owner, required "warden_owner_group" profile.ownerGroup =
    .ok owner
  window : profile.maintenanceWindow.Valid

/-- The tables hold some profiles. -/
structure ProfileTables.Hold (tables : ProfileTables)
    (profiles : List WardenRolloutTargetProfile) : Prop where
  profile : ∀ id profile, tables.profiles.get? id = some profile ↔
    profile ∈ profiles ∧ profile.targetId = id
  limit : ∀ owner most, tables.ownerLimits.get? owner = some most ↔
    ∃ profile ∈ profiles, profile.ownerGroup = owner ∧
      profile.ownerMaxParallel = most

/-- All which is asked of the profiles of an input. -/
structure ReadableAll (targets : List WardenCampaignTarget)
    (profiles : List WardenRolloutTargetProfile) : Prop where
  each : ∀ profile ∈ profiles, Readable targets profile
  once : (profiles.map WardenRolloutTargetProfile.targetId).Nodup
  limits : SameLimits profiles

def ProfileTables.empty : ProfileTables where
  profiles := OrderedMap.empty
  ownerLimits := OrderedMap.empty

theorem hold_empty : ProfileTables.empty.Hold [] where
  profile := by
    intro id profile
    rw [ProfileTables.empty, OrderedMap.get?_empty]
    simp
  limit := by
    intro owner most
    rw [ProfileTables.empty, OrderedMap.get?_empty]
    simp

section Profiles

variable {targets : List WardenCampaignTarget}
  {tables next : ProfileTables} {profile : WardenRolloutTargetProfile}
  {profiles rest : List WardenRolloutTargetProfile}

/-- What a profile has to do with the profiles before it. -/
structure Joins (profiles : List WardenRolloutTargetProfile)
    (profile : WardenRolloutTargetProfile) : Prop where
  fresh : ∀ other ∈ profiles, other.targetId ≠ profile.targetId
  limit : ∀ other ∈ profiles, other.ownerGroup = profile.ownerGroup →
    other.ownerMaxParallel = profile.ownerMaxParallel

theorem readProfile_eq_ok_iff (hold : tables.Hold profiles) :
    readProfile targets tables profile = .ok next ↔
      Readable targets profile ∧ Joins profiles profile ∧
      next =
        { profiles := tables.profiles.set profile.targetId profile
          ownerLimits := tables.ownerLimits.set profile.ownerGroup
            profile.ownerMaxParallel } := by
  have has : ¬ tables.profiles.has profile.targetId = true ↔
      ∀ other ∈ profiles, other.targetId ≠ profile.targetId := by
    rw [OrderedMap.has_iff, OrderedMap.mem_keys_iff]
    simp only [hold.profile, not_exists, not_and]
  have limited : (¬ ∃ known ∈ tables.ownerLimits.get? profile.ownerGroup,
      known ≠ profile.ownerMaxParallel) ↔
      ∀ other ∈ profiles, other.ownerGroup = profile.ownerGroup →
        other.ownerMaxParallel = profile.ownerMaxParallel := by
    simp only [Option.mem_def, hold.limit, not_exists, not_and, not_not]
    constructor
    · exact fun agree other member same =>
        agree _ ⟨other, member, same, rfl⟩
    · rintro agree _ ⟨other, member, same, rfl⟩
      exact agree other member same
  simp only [readProfile, bind_eq_ok, throwIf_eq_ok, pure_eq_ok, has,
    limited, not_or, not_not]
  constructor
  · rintro ⟨_, ⟨known, fresh⟩, _, ⟨rated, counted⟩, owner, named, _, window,
      _, limit, rfl⟩
    exact ⟨⟨known, rated, counted, ⟨owner, named⟩, window⟩,
      ⟨fresh, limit⟩, rfl⟩
  · rintro ⟨readable, joins, rfl⟩
    rcases readable.named with ⟨owner, named⟩
    exact ⟨⟨⟩, ⟨readable.known, joins.fresh⟩, ⟨⟩,
      ⟨readable.rated, readable.counted⟩, owner, named, ⟨⟩,
      readable.window, ⟨⟩, joins.limit, rfl⟩

theorem hold_set (hold : tables.Hold profiles)
    (joins : Joins profiles profile) :
    ProfileTables.Hold
      { profiles := tables.profiles.set profile.targetId profile
        ownerLimits := tables.ownerLimits.set profile.ownerGroup
          profile.ownerMaxParallel } (profiles ++ [profile]) where
  profile := by
    intro id found
    rw [OrderedMap.get?_set, List.mem_append, List.mem_singleton]
    split
    · next same =>
        rw [Option.some.injEq]
        constructor
        · rintro rfl
          exact ⟨Or.inr rfl, same⟩
        · rintro ⟨earlier | rfl, named⟩
          · exact absurd (named.trans same.symm) (joins.fresh found earlier)
          · rfl
    · next other =>
        rw [hold.profile]
        constructor
        · exact fun both => ⟨Or.inl both.1, both.2⟩
        · rintro ⟨earlier | rfl, named⟩
          · exact ⟨earlier, named⟩
          · exact absurd named other
  limit := by
    intro owner most
    rw [OrderedMap.get?_set]
    simp only [List.mem_append, List.mem_singleton, or_and_right, exists_or,
      exists_eq_left]
    split
    · next same =>
        rw [Option.some.injEq]
        constructor
        · exact fun limit => Or.inr ⟨same, limit⟩
        · rintro (⟨other, earlier, named, limit⟩ | ⟨_, limit⟩)
          · exact (joins.limit other earlier (named.trans same.symm)).symm.trans
              limit
          · exact limit
    · next other =>
        rw [hold.limit]
        exact (or_iff_left fun both => other both.1).symm

theorem ReadableAll.joins {read : List WardenRolloutTargetProfile}
    (all : ReadableAll targets (read ++ profile :: rest)) :
    Readable targets profile ∧ Joins read profile := by
  have middle : profile ∈ read ++ profile :: rest :=
    List.mem_append_right _ List.mem_cons_self
  refine ⟨all.each profile middle, ?_, ?_⟩
  · have once := all.once
    rw [List.map_append, List.map_cons, List.nodup_append] at once
    exact fun other member =>
      once.2.2 _ (List.mem_map_of_mem member) _ List.mem_cons_self
  · exact fun other member => all.limits other
      (List.mem_append_left _ member) profile middle

theorem readProfiles_eq_ok {read : List WardenRolloutTargetProfile}
    (hold : tables.Hold read)
    (all : ReadableAll targets (read ++ profiles)) :
    ∃ next, readProfiles targets tables profiles = .ok next ∧
      next.Hold (read ++ profiles) := by
  induction profiles generalizing tables read with
  | nil =>
    rw [List.append_nil]
    exact ⟨tables, rfl, hold⟩
  | cons profile rest inductionHypothesis =>
    rcases all.joins with ⟨readable, joins⟩
    rw [List.append_cons] at all
    rcases inductionHypothesis (hold_set hold joins) all with
      ⟨next, later, holds⟩
    rw [← List.append_cons] at holds
    refine ⟨next, ?_, holds⟩
    rw [readProfiles, bind_eq_ok]
    exact ⟨_, (readProfile_eq_ok_iff hold).mpr ⟨readable, joins, rfl⟩, later⟩

theorem readableAll_of_ok {read : List WardenRolloutTargetProfile}
    (hold : tables.Hold read) (before : ReadableAll targets read)
    (made : readProfiles targets tables profiles = .ok next) :
    ReadableAll targets (read ++ profiles) := by
  induction profiles generalizing tables read with
  | nil =>
    rw [List.append_nil]
    exact before
  | cons profile rest inductionHypothesis =>
    rw [readProfiles, bind_eq_ok] at made
    rcases made with ⟨middle, one, later⟩
    rcases (readProfile_eq_ok_iff hold).mp one with ⟨readable, joins, rfl⟩
    rw [List.append_cons]
    refine inductionHypothesis (hold_set hold joins) ?_ later
    refine ⟨?_, ?_, ?_⟩
    · rw [List.forall_mem_append, List.forall_mem_singleton]
      exact ⟨before.each, readable⟩
    · rw [List.map_append, List.map_singleton, ← List.concat_eq_append,
        List.nodup_concat]
      refine ⟨fun member => ?_, before.once⟩
      rcases List.mem_map.mp member with ⟨other, earlier, same⟩
      exact joins.fresh other earlier same
    · intro left inLeft right inRight same
      rw [List.mem_append, List.mem_singleton] at inLeft inRight
      rcases inLeft with early | rfl
      · rcases inRight with earlier | rfl
        · exact before.limits left early right earlier same
        · exact joins.limit left early same
      · rcases inRight with earlier | rfl
        · exact (joins.limit right earlier same.symm).symm
        · rfl

theorem ReadableAll.perm (all : ReadableAll targets profiles)
    (same : rest.Perm profiles) : ReadableAll targets rest where
  each := fun profile member => all.each profile (same.mem_iff.mp member)
  once := (same.map _).nodup_iff.mpr all.once
  limits := fun one inOne other inOther =>
    all.limits one (same.mem_iff.mp inOne) other (same.mem_iff.mp inOther)

theorem get?_eq_of_perm {other : ProfileTables} (hold : tables.Hold profiles)
    (holds : other.Hold rest) (same : rest.Perm profiles) (id : String) :
    other.profiles.get? id = tables.profiles.get? id := by
  refine Option.ext fun profile => ?_
  rw [holds.profile, hold.profile, same.mem_iff]

end Profiles

/-! ## Windows -/

/-- As texts, none of two windows ends before one of them begins. -/
def MaintenanceWindow.Meets (left right : MaintenanceWindow) : Prop :=
  ∀ one ∈ [left, right], ∀ other ∈ [left, right],
    Text.codeUnitLe one.stop other.start = false

/-- The instant of a text is not after the instant of another one. -/
def NotAfter (left right : String) : Prop :=
  ∀ one ∈ Instant.parse? left, ∀ other ∈ Instant.parse? right,
    one.ms ≤ other.ms

/-- Where two windows meet, the order of their texts is the one in time. -/
def MaintenanceWindow.Timely (left right : MaintenanceWindow) : Prop :=
  left.Meets right →
    (Text.codeUnitLe left.start right.start = true →
      NotAfter left.start right.start) ∧
    (Text.codeUnitLe left.stop right.stop = true →
      NotAfter left.stop right.stop)

theorem Selection.Fits.meets (fits : selection.Fits)
    {left right : PlannedTarget} (inLeft : left ∈ selection.selected)
    (inRight : right ∈ selection.selected) :
    left.window.Meets right.window := by
  have apart : ∀ one ∈ selection.selected, ∀ other ∈ selection.selected,
      Text.codeUnitLe one.window.stop other.window.start = false := by
    intro one inOne other inOther
    rw [← Bool.not_eq_true]
    intro reversed
    have closed := codeUnitLe_trans (codeUnitLe_trans
      (fits.stops one inOne) reversed) (fits.starts other inOther)
    rw [fits.isOpen] at closed
    cases closed
  have either : ∀ window ∈ [left.window, right.window],
      ∃ item ∈ selection.selected, item.window = window := by
    rw [List.forall_mem_cons, List.forall_mem_singleton]
    exact ⟨⟨left, inLeft, rfl⟩, right, inRight, rfl⟩
  intro one isOne other isOther
  rcases either one isOne with ⟨item, inside, rfl⟩
  rcases either other isOther with ⟨second, within, rfl⟩
  exact apart item inside second within

theorem Selection.Windowed.inside_of_timely (windowed : selection.Windowed)
    (timely : ∀ left ∈ selection.selected, ∀ right ∈ selection.selected,
      left.window.Timely right.window)
    (valid : ∀ item ∈ selection.selected, item.window.Valid) :
    selection.Inside := by
  intro sequence instant holds item member
  change Between selection.notBefore selection.notAfter instant at holds
  rcases windowed with fits | ⟨only, selected, start, stop⟩
  · rcases fits.startOf with ⟨starter, starterIn, starts⟩
    rcases fits.stopOf with ⟨ender, enderIn, ends⟩
    rcases valid item member with ⟨first, isFirst, last, isLast, _⟩
    have below := fits.starts item member
    have above := fits.stops item member
    rcases holds with ⟨high, isHigh, low, isLow, from_, before⟩
    rw [starts] at below isHigh
    rw [ends] at above isLow
    have opens := (timely item member starter starterIn
      (fits.meets member starterIn)).1 below first isFirst high isHigh
    have closes := (timely ender enderIn item member
      (fits.meets enderIn member)).2 above low isLow last isLast
    exact ⟨first, isFirst, last, isLast, opens.trans from_,
      lt_of_lt_of_le before closes⟩
  · rw [selected, List.mem_singleton] at member
    rw [start, stop] at holds
    rw [member]
    exact holds

/-! ## Plans of a reachable campaign -/

section Plans

variable {host : RolloutHost} {db : RolloutDb} {input : PlanInput}
  {payload : RolloutPayload} {sha256 : String → String}

theorem rolloutPayload_perm {profiles : List WardenRolloutTargetProfile}
    (same : profiles.Perm input.profiles)
    (made : rolloutPayload host db input = .ok payload) :
    rolloutPayload host db { input with profiles := profiles } =
      .ok payload := by
  simp only [rolloutPayload, bind_eq_ok, throwIf_eq_ok, demand_eq_ok,
    pure_eq_ok, not_not] at made ⊢
  rcases made with ⟨_, named, _, principal, _, human, _, created, _, size, _,
    stop, parent, found, _, draft, _, revision, _, some, _, complete, tables,
    read, planned, plannedEq, canary, canaryEq, _, eligible, _, alone, _,
    confident, cohorts, cohortsEq, rfl⟩
  have all := readableAll_of_ok hold_empty
    ⟨List.forall_mem_nil _, List.nodup_nil, fun _ none => absurd none
      List.not_mem_nil⟩ read
  rcases readProfiles_eq_ok hold_empty all with ⟨again, readAgain, hold⟩
  rcases readProfiles_eq_ok hold_empty (all.perm same) with
    ⟨other, readOther, holds⟩
  rw [ProfileTables.empty] at readAgain readOther
  rw [readAgain, Except.ok.injEq] at read
  subst read
  refine ⟨_, named, _, principal, ⟨⟩, human, ⟨⟩, created, ⟨⟩, size, ⟨⟩,
    stop, parent, found, ⟨⟩, draft, ⟨⟩, revision, ⟨⟩, some, ⟨⟩,
    same.length_eq.trans complete, other, readOther, planned, ?_, canary,
    canaryEq, ⟨⟩, eligible, ⟨⟩, alone, ⟨⟩, confident, cohorts, cohortsEq,
    rfl⟩
  rw [← plannedEq]
  simp only [get?_eq_of_perm hold holds same]

theorem ok_ne_error {α : Type} {value : α} {failure : String} :
    (.ok value : Except String α) ≠ .error failure := by
  intro same
  cases same

theorem required_ne_error {name value failure : String}
    (apart : name ++ "_invalid" ≠ failure) :
    required name value ≠ .error failure :=
  bind_ne_error (throwIf_ne_error apart) fun _ _ => ok_ne_error

theorem readProfiles_ne_cycle {targets : List WardenCampaignTarget}
    (tables : ProfileTables) (profiles : List WardenRolloutTargetProfile) :
    readProfiles targets tables profiles ≠
      .error "warden_dependency_cycle" := by
  induction profiles generalizing tables with
  | nil => exact ok_ne_error
  | cons profile rest inductionHypothesis =>
    refine bind_ne_error ?_ fun next _ => inductionHypothesis next
    refine bind_ne_error (throwIf_ne_error (by decide)) fun _ _ => ?_
    refine bind_ne_error (throwIf_ne_error (by decide)) fun _ _ => ?_
    refine bind_ne_error (required_ne_error (by decide)) fun _ _ => ?_
    refine bind_ne_error (throwIf_ne_error (by decide)) fun _ _ => ?_
    exact bind_ne_error (throwIf_ne_error (by decide)) fun _ _ => ok_ne_error

theorem demand_ne_error {α : Type} {found : Option α}
    {failure other : String} (apart : failure ≠ other) :
    demand found failure ≠ .error other := by
  cases found with
  | none => exact fun same => apart (Except.error.inj same)
  | some value => exact ok_ne_error

theorem plans_ok {targets : List WardenCampaignTarget}
    {planned : List PlannedTarget} {canary : PlannedTarget}
    (layered : DependenciesFirst WardenCampaignTarget.id
      WardenCampaignTarget.dependsOn targets)
    (distinct : (targets.map WardenCampaignTarget.id).Nodup)
    (same : (planned.map PlannedTarget.target).Perm targets)
    (collation : Collation) :
    ∃ cohorts, planCohorts collation maxCohortSize planned canary =
      .ok cohorts := by
  have inTargets : ∀ item ∈ planned, item.target ∈ targets :=
    fun item member => same.mem_iff.mp (List.mem_map_of_mem member)
  have acyclic : Acyclic (Edge PlannedTarget.id
      (fun item => item.target.dependsOn) planned) := by
    intro node cycle
    refine acyclic_of_dependenciesFirst layered distinct node
      (Relation.TransGen.mono ?_ _ _ cycle)
    rintro _ _ ⟨item, inside, named, needs⟩
    exact ⟨item.target, inTargets item inside, named, needs⟩
  have closed : Closed PlannedTarget.id
      (fun item => item.target.dependsOn) planned := by
    intro item member dependency needs
    rcases layered.closed item.target (inTargets item member) dependency
      needs with ⟨target, inside, named⟩
    rcases List.mem_map.mp (same.mem_iff.mpr inside) with
      ⟨other, within, rfl⟩
    exact ⟨other, within, named⟩
  rcases @rolloutCohorts_ok maxCohortSize collation [canary.id]
    (planned.filter fun item => decide (item.id ≠ canary.id)) planned
    (planned.filter fun item => decide (item.id ≠ canary.id)).length 1
    acyclic closed
    (by
      intro item member
      by_cases isCanary : item.id = canary.id
      · exact Or.inl (List.mem_singleton.mpr isCanary)
      · exact Or.inr (List.mem_filter.mpr
          ⟨member, decide_eq_true isCanary⟩))
    (fun item member => List.mem_of_mem_filter member) with ⟨rest, made⟩
  exact ⟨canaryCohort canary :: rest, bind_eq_ok.mpr ⟨rest, made, rfl⟩⟩

theorem rolloutPayload_ne_cycle
    (enrolled : Enrolled sha256 input.tenantId input.campaignId
      db.toCampaignDb) :
    rolloutPayload host db input ≠ .error "warden_dependency_cycle" := by
  refine bind_ne_error (required_ne_error (by decide)) fun _ _ => ?_
  refine bind_ne_error (throwIf_ne_error (by decide)) fun _ _ => ?_
  refine bind_ne_error (throwIf_ne_error (by decide)) fun _ _ => ?_
  refine bind_ne_error (throwIf_ne_error (by decide)) fun _ _ => ?_
  refine bind_ne_error (throwIf_ne_error (by decide)) fun _ _ => ?_
  refine bind_ne_error (throwIf_ne_error (by decide)) fun _ _ => ?_
  refine bind_ne_error (demand_ne_error (by decide)) fun _ _ => ?_
  refine bind_ne_error (throwIf_ne_error (by decide)) fun _ _ => ?_
  refine bind_ne_error (throwIf_ne_error (by decide)) fun _ _ => ?_
  refine bind_ne_error (throwIf_ne_error (by decide)) fun _ _ => ?_
  refine bind_ne_error (throwIf_ne_error (by decide)) fun _ _ => ?_
  refine bind_ne_error (readProfiles_ne_cycle _ _) fun tables _ => ?_
  refine bind_ne_error ?_ fun planned made => ?_
  · intro failed
    rcases exists_of_mapM_eq_error failed with ⟨target, _, here⟩
    exact bind_ne_error (demand_ne_error (by decide))
      (fun _ _ => ok_ne_error) here
  refine bind_ne_error (demand_ne_error (by decide)) fun canary _ => ?_
  refine bind_ne_error (throwIf_ne_error (by decide)) fun _ _ => ?_
  refine bind_ne_error (throwIf_ne_error (by decide)) fun _ _ => ?_
  refine bind_ne_error (throwIf_ne_error (by decide)) fun _ _ => ?_
  have same : (planned.map PlannedTarget.target).Perm
      (db.targetsOf input.tenantId input.campaignId) := by
    rw [(planned_targets made).1]
    exact list_perm _ _ _
  rcases @plans_ok input.maxCohortSize _ planned canary enrolled.layered
    (targetsOf_nodup _ _ _) same host.collation with ⟨cohorts, ok⟩
  rw [ok]
  exact bind_ne_error ok_ne_error fun _ _ => ok_ne_error

/-- The cohorts of a plan hold all targets, within the limits of the input. -/
structure Arranged (input : PlanInput) (targets : List WardenCampaignTarget)
    (cohorts : List Cohort) : Prop where
  canary : ∃ first rest, cohorts = first :: rest ∧
    first.targetIds = [input.canaryTargetId]
  once : (cohorts.flatMap Cohort.targetIds).Perm
    (targets.map WardenCampaignTarget.id)
  prerequisites : ∀ before cohort after,
    cohorts = before ++ cohort :: after →
    ∀ target ∈ targets, target.id ∈ cohort.targetIds →
      ∀ dependency ∈ target.dependsOn,
        ∃ earlier ∈ before, dependency ∈ earlier.targetIds
  sizes : ∀ cohort ∈ cohorts, 1 ≤ cohort.targetIds.length ∧
    cohort.targetIds.length ≤ input.maxCohortSize
  owners : ∀ cohort ∈ cohorts, ∀ profile ∈ input.profiles,
    (input.profiles.filter fun other =>
      decide (other.ownerGroup = profile.ownerGroup ∧
        other.targetId ∈ cohort.targetIds)).length ≤
      profile.ownerMaxParallel
  isOpen : ∀ cohort ∈ cohorts, cohort.IsOpen

/-- A cohort's window is inside the windows of its targets. -/
def KeepsWindows (input : PlanInput) (cohorts : List Cohort) : Prop :=
  ∀ cohort ∈ cohorts, ∀ profile ∈ input.profiles,
    profile.targetId ∈ cohort.targetIds →
    ∀ instant, cohort.Holds instant →
      profile.maintenanceWindow.Holds instant

section Made

variable {tables : ProfileTables} {planned : List PlannedTarget}
  {canary : PlannedTarget} {rest : List Cohort}
  (arranged : ArrangedFrom host db input payload tables planned canary rest)

include arranged

theorem ArrangedFrom.readable :
    ReadableAll (listWardenCampaignTargets db.toCampaignDb input.tenantId
      input.campaignId) input.profiles :=
  readableAll_of_ok hold_empty
    ⟨List.forall_mem_nil _, List.nodup_nil, fun _ none => absurd none
      List.not_mem_nil⟩ arranged.read

theorem ArrangedFrom.profile {item : PlannedTarget} (member : item ∈ planned) :
    item.profile ∈ input.profiles ∧ item.profile.targetId = item.id := by
  rcases readProfiles_eq_ok hold_empty arranged.readable with
    ⟨again, readAgain, hold⟩
  have read := arranged.read
  rw [ProfileTables.empty] at readAgain
  rw [readAgain, Except.ok.injEq] at read
  subst read
  exact (hold.profile _ _).mp (arranged.profiles item member)

theorem ArrangedFrom.profiles_perm
    (distinct : (planned.map PlannedTarget.id).Nodup) :
    (planned.map PlannedTarget.profile).Perm input.profiles := by
  have named : (planned.map PlannedTarget.profile).map
      WardenRolloutTargetProfile.targetId =
      planned.map PlannedTarget.id := by
    rw [List.map_map]
    exact List.map_congr_left fun item member =>
      (arranged.profile member).2
  have once : (planned.map PlannedTarget.profile).Nodup :=
    List.Nodup.of_map _ (named ▸ distinct)
  refine (once.subperm fun profile member => ?_).perm_of_length_le ?_
  · rcases List.mem_map.mp member with ⟨item, inside, rfl⟩
    exact (arranged.profile inside).1
  · have lengths := congrArg List.length arranged.targets
    rw [List.length_map] at lengths
    rw [arranged.complete, List.length_map, lengths]

/-- All cohorts hold some of the planned targets, within the limits. -/
theorem ArrangedFrom.packs (made : PlannedFrom payload planned canary rest) :
    (payload.cohorts.flatMap Cohort.targetIds).Perm
        (planned.map PlannedTarget.id) ∧
      ∀ cohort ∈ payload.cohorts,
        cohort.Packs input.maxCohortSize planned planned := by
  have limits : SameLimits (planned.map PlannedTarget.profile) := by
    intro one inOne other inOther
    have same := arranged.profiles_perm made.distinct
    exact arranged.readable.limits one (same.mem_iff.mp inOne) other
      (same.mem_iff.mp inOther)
  have each : ∀ one ∈ planned, 1 ≤ one.profile.ownerMaxParallel :=
    fun one member =>
      (arranged.readable.each _ (arranged.profile member).1).counted.2.1
  rcases rolloutCohorts_packs limits arranged.size.2.1 each
    (fun item member => List.mem_of_mem_filter member)
    (made.distinct.sublist (List.filter_sublist.map _))
    (fun item member => made.valid item (List.mem_of_mem_filter member))
    (Nat.le_refl _) arranged.rounds with ⟨covers, packs⟩
  rw [made.cohorts]
  constructor
  · have split := @selected_append_perm planned [canary] made.distinct
      (List.nodup_singleton canary)
      (List.forall_mem_singleton.mpr made.canaryIn)
    have apart : unselected [canary] planned =
        planned.filter fun item => decide (item.id ≠ canary.id) := by
      rw [unselected]
      refine List.filter_congr fun item _ => ?_
      rw [List.map_singleton, decide_eq_decide, List.mem_singleton]
    rw [apart] at split
    exact (covers.cons canary.id).trans (split.map PlannedTarget.id)
  · rw [List.forall_mem_cons]
    refine ⟨⟨[canary], rfl, List.cons_ne_nil _ _, List.nodup_singleton _,
      fitting_singleton arranged.size.2.1 each canary,
      List.forall_mem_singleton.mpr made.canaryIn⟩, ?_⟩
    intro cohort member
    rcases packs cohort member with
      ⟨selected, named, filled, once, fit, from_⟩
    exact ⟨selected, named, filled, once, fit, fun item chosen =>
      List.mem_of_mem_filter (from_ item chosen)⟩

theorem ArrangedFrom.owners (made : PlannedFrom payload planned canary rest)
    {cohort : Cohort}
    (packs : cohort.Packs input.maxCohortSize planned planned)
    {profile : WardenRolloutTargetProfile}
    (member : profile ∈ input.profiles) :
    (input.profiles.filter fun other =>
      decide (other.ownerGroup = profile.ownerGroup ∧
        other.targetId ∈ cohort.targetIds)).length ≤
      profile.ownerMaxParallel := by
  rcases packs with ⟨selected, named, _, once, fits, inside⟩
  have same := arranged.profiles_perm made.distinct
  rcases List.mem_map.mp (same.mem_iff.mpr member) with ⟨one, isOne, rfl⟩
  have counted : ((planned.map PlannedTarget.profile).filter fun other =>
      decide (other.ownerGroup = one.profile.ownerGroup ∧
        other.targetId ∈ cohort.targetIds)).length =
      (ofOwner one.profile.ownerGroup selected).length := by
    rw [List.filter_map, List.length_map, ofOwner,
      ← ((filter_selected_perm made.distinct once inside).filter
        _).length_eq, List.filter_filter]
    refine congrArg List.length (List.filter_congr fun item within => ?_)
    rw [Function.comp_apply, (arranged.profile within).2, named,
      Bool.decide_and]
  rw [← (same.filter _).length_eq, counted]
  exact fits.owners one isOne

theorem ArrangedFrom.holds
    (made : PlannedFrom payload planned canary rest) :
    Arranged input (listWardenCampaignTargets db.toCampaignDb input.tenantId
      input.campaignId) payload.cohorts := by
  rcases arranged.packs made with ⟨covers, packs⟩
  have sound := made.sound
  refine {
    canary := ⟨_, rest, made.cohorts, by rw [← arranged.named]; rfl⟩
    once := ?_
    prerequisites := ?_
    sizes := ?_
    owners := fun cohort member profile isProfile =>
      arranged.owners made (packs cohort member) isProfile
    isOpen := sound.isOpen }
  · rw [← arranged.targets, List.map_map]
    exact covers
  · intro before cohort after split target isTarget has dependency needs
    rw [← arranged.targets] at isTarget
    rcases List.mem_map.mp isTarget with ⟨item, member, rfl⟩
    rcases made.evidenced item member with
      ⟨evidence, isEvidence, same, _, depends⟩
    rw [PlannedTarget.id] at same
    rw [← same] at has
    exact sound.prerequisites before cohort after split evidence isEvidence
      has dependency ((depends dependency).mpr needs)
  · intro cohort member
    rcases packs cohort member with ⟨selected, named, filled, _, fits, _⟩
    rw [named, List.length_map]
    exact ⟨List.length_pos_iff.mpr filled, fits.size⟩

theorem ArrangedFrom.keepsWindows
    (made : PlannedFrom payload planned canary rest)
    (timely : ∀ left ∈ input.profiles, ∀ right ∈ input.profiles,
      left.maintenanceWindow.Timely right.maintenanceWindow) :
    KeepsWindows input payload.cohorts := by
  intro cohort member profile isProfile has instant holds
  have same := arranged.profiles_perm made.distinct
  rcases List.mem_map.mp (same.mem_iff.mpr isProfile) with
    ⟨item, inside, rfl⟩
  rw [(arranged.profile inside).2] at has
  refine made.inside (fun selection windowed taken => ?_) cohort member item
    inside has instant holds
  refine windowed.inside_of_timely (fun left inLeft right inRight => ?_)
    fun one chosen => made.valid one (taken one chosen)
  exact timely _ (arranged.profile (taken left inLeft)).1 _
    (arranged.profile (taken right inRight)).1

end Made

end Plans

/-! ## A sample rollout -/

instance (left right : MaintenanceWindow) : Decidable (left.Meets right) :=
  inferInstanceAs (Decidable (∀ one ∈ [left, right],
    ∀ other ∈ [left, right], _ = false))

instance (left right : String) : Decidable (NotAfter left right) :=
  inferInstanceAs (Decidable (∀ one ∈ Instant.parse? left,
    ∀ other ∈ Instant.parse? right, _ ≤ _))

instance (left right : MaintenanceWindow) : Decidable (left.Timely right) :=
  inferInstanceAs (Decidable (_ → (_ → _) ∧ (_ → _)))

instance (start stop : String) (instant : Int) :
    Decidable (Between start stop instant) :=
  inferInstanceAs (Decidable (∃ first ∈ Instant.parse? start,
    ∃ last ∈ Instant.parse? stop, _ ≤ _ ∧ _ < _))

/-- Two targets which need the canary `a`. -/
def sampleThree : RolloutDb where
  toCampaignDb :=
    [sampleAddition "a" [], sampleAddition "b" ["a"],
      sampleAddition "c" ["a"]].foldl (TargetCall.next id) sampleDraft
  rolloutDecisions := []

/-- The windows of `b` and `c` open at two times, and close together. -/
def sampleThreePlan (opensB opensC : String) : PlanInput :=
  { samplePlan with
    profiles :=
      [sampleProfile "a" "2026-01-04T00:00:00.000Z"
          "2026-01-04T04:00:00.000Z",
        { sampleProfile "b" opensB "2026-01-01T00:00:00.000Z" with
          ownerGroup := "q" },
        sampleProfile "c" opensC "2026-01-01T00:00:00.000Z"] }

def sampleThreeCohorts (opens : String) : List Cohort :=
  [{ sequence := 0
     kind := .canary
     targetIds := ["a"]
     notBefore := "2026-01-04T00:00:00.000Z"
     notAfter := "2026-01-04T04:00:00.000Z" },
    { sequence := 1
      kind := .rollout
      targetIds := ["b", "c"]
      notBefore := opens
      notAfter := "2026-01-01T00:00:00.000Z" }]

theorem exists_payload {host : RolloutHost} {db : RolloutDb}
    {input : PlanInput} {cohorts : List Cohort}
    (made : (rolloutPayload host db input).map RolloutPayload.cohorts =
      .ok cohorts) :
    ∃ payload, rolloutPayload host db input = .ok payload ∧
      payload.cohorts = cohorts := by
  cases answer : rolloutPayload host db input with
  | error failure =>
    rw [answer] at made
    cases made
  | ok payload =>
    rw [answer] at made
    exact ⟨payload, rfl, Except.ok.inj made⟩

end Mendpoint.Campaign
