import Mendpoint.Library.Collation
import Mendpoint.Policy.Precedence

/-!
# The law of a resolved policy

The policy of a context does not depend on the order of the versions, and each
of its fields is the one of the highest applied version which sets it, exactly
when the current versions are kept apart and never tie.  Then a simulation
evaluates by the policy which is resolved once the candidate is approved.
-/

namespace Mendpoint.EditPolicy

open Mendpoint.Library

/-! ## Fields of merged policies -/

/-- The value of the last version which sets it. -/
def lastSet {β : Type} (get : PolicyOverrides → Option β) (initial : β)
    (applied : List WardenPolicyVersion) : β :=
  applied.foldl (fun value version => (get version.config).getD value) initial

/--
A field which is set by each merge to what the version says, up to a finishing
which settles at once, is finished from the value set last.
-/
theorem foldl_mergeVersion {β : Type} {get : PolicyOverrides → Option β}
    {field : PolicyConfig → β} {finish : β → β}
    (settles : ∀ value, finish (finish value) = finish value)
    (merges : ∀ policy version, field (mergeVersion policy version) =
      finish ((get version.config).getD (field policy)))
    {policy : PolicyConfig} {initial : β}
    (starts : field policy = finish initial)
    (applied : List WardenPolicyVersion) :
    field (applied.foldl mergeVersion policy) =
      finish (lastSet get initial applied) := by
  induction applied generalizing policy initial with
  | nil => exact starts
  | cons version rest inductionHypothesis =>
    rw [List.foldl_cons, lastSet, List.foldl_cons]
    apply inductionHypothesis
    rw [merges, starts]
    cases get version.config with
    | none => exact settles initial
    | some value => rfl

theorem lastSet_spec {β : Type} (get : PolicyOverrides → Option β)
    (initial : β) {r : WardenPolicyVersion → WardenPolicyVersion → Prop}
    (refl : ∀ version, r version version)
    {applied : List WardenPolicyVersion} (sorted : applied.Pairwise r) :
    (∃ version ∈ applied,
      get version.config = some (lastSet get initial applied) ∧
        ∀ other ∈ applied, (get other.config).isSome → r other version) ∨
      ((∀ version ∈ applied, get version.config = none) ∧
        lastSet get initial applied = initial) := by
  induction applied using List.reverseRecOn with
  | nil => exact .inr ⟨fun _ impossible =>
    (List.not_mem_nil impossible).elim, rfl⟩
  | append_singleton front last inductionHypothesis =>
    obtain ⟨frontSorted, _, below⟩ := List.pairwise_append.mp sorted
    have snoc : lastSet get initial (front ++ [last]) =
        (get last.config).getD (lastSet get initial front) := by
      rw [lastSet, List.foldl_append]
      rfl
    rw [snoc]
    cases set : get last.config with
    | some value =>
      refine .inl ⟨last, List.mem_append_right _ List.mem_cons_self, set,
        fun other member _ => ?_⟩
      rcases List.mem_append.mp member with inFront | isLast
      · exact below other inFront last List.mem_cons_self
      · rw [List.mem_singleton.mp isLast]
        exact refl last
    | none =>
      rcases inductionHypothesis frontSorted with
        ⟨version, member, decides, highest⟩ | ⟨unset, same⟩
      · refine .inl ⟨version, List.mem_append_left _ member, decides,
          fun other inside sets => ?_⟩
        rcases List.mem_append.mp inside with inFront | isLast
        · exact highest other inFront sets
        · rw [List.mem_singleton.mp isLast, set] at sets
          cases sets
      · refine .inr ⟨fun version member => ?_, same⟩
        rcases List.mem_append.mp member with inFront | isLast
        · exact unset version inFront
        · rw [List.mem_singleton.mp isLast, set]

/-! ## The order of the applied versions -/

section Orders

variable (collation : Collation)

theorem orders_total (left right : WardenPolicyVersion) :
    orders collation left right ∨ orders collation right left := by
  have texts := collation.total left.policyKey right.policyKey
  rcases Nat.lt_trichotomy left.scope.kind.precedence
    right.scope.kind.precedence with lower | same | higher
  · exact .inl (.inl lower)
  · rcases Nat.le_total left.version right.version with earlier | later
    · rcases texts with forth | back
      · exact .inl (.inr ⟨same, forth, fun _ => earlier⟩)
      · by_cases forth : collation.le left.policyKey right.policyKey = true
        · exact .inl (.inr ⟨same, forth, fun _ => earlier⟩)
        · exact .inr (.inr ⟨same.symm, back, fun tie => absurd tie forth⟩)
    · rcases texts with forth | back
      · by_cases back : collation.le right.policyKey left.policyKey = true
        · exact .inr (.inr ⟨same.symm, back, fun _ => later⟩)
        · exact .inl (.inr ⟨same, forth, fun tie => absurd tie back⟩)
      · exact .inr (.inr ⟨same.symm, back, fun _ => later⟩)
  · exact .inr (.inl higher)

theorem orders_trans {first second third : WardenPolicyVersion}
    (one : orders collation first second)
    (two : orders collation second third) :
    orders collation first third := by
  rcases one with lower | ⟨same, forth, earlier⟩
  · rcases two with lowerToo | ⟨sameToo, _⟩
    · exact .inl (lower.trans lowerToo)
    · exact .inl (sameToo ▸ lower)
  · rcases two with lowerToo | ⟨sameToo, forthToo, earlierToo⟩
    · exact .inl (same ▸ lowerToo)
    · refine .inr ⟨same.trans sameToo,
        collation.trans _ _ _ forth forthToo, fun back => ?_⟩
      exact (earlier (collation.trans _ _ _ forthToo back)).trans
        (earlierToo (collation.trans _ _ _ back forth))

instance : Std.Total (orders collation) :=
  ⟨orders_total collation⟩

instance : IsTrans WardenPolicyVersion (orders collation) :=
  ⟨fun _ _ _ => orders_trans collation⟩

theorem orders_refl (version : WardenPolicyVersion) :
    orders collation version version :=
  (orders_total collation version version).elim id id

end Orders

section Applied

variable {collation : Collation} {versions others : List WardenPolicyVersion}
  {context : WardenPolicyContext}

theorem mem_appliedVersions {version : WardenPolicyVersion} :
    version ∈ appliedVersions collation versions context ↔
      version ∈ (latestByLayer versions context).values :=
  List.mem_insertionSort _

theorem nodup_appliedVersions :
    (appliedVersions collation versions context).Nodup :=
  (List.perm_insertionSort _ _).nodup_iff.mpr (nodup_values _ _)

theorem pairwise_appliedVersions :
    (appliedVersions collation versions context).Pairwise
      (orders collation) :=
  List.pairwise_insertionSort _ _

theorem Separate.mem_appliedVersions
    (separate : Separate collation versions context)
    {version : WardenPolicyVersion} :
    version ∈ appliedVersions collation versions context ↔
      Current versions context version :=
  EditPolicy.mem_appliedVersions.trans separate.mem_values_iff

theorem Separate.appliedVersions_eq
    (separate : Separate collation versions context)
    (permuted : others.Perm versions) :
    appliedVersions collation others context =
      appliedVersions collation versions context := by
  have separateToo := (separate_of_perm permuted).mpr separate
  have same : ∀ version, version ∈ appliedVersions collation others context ↔
      version ∈ appliedVersions collation versions context := by
    intro version
    rw [separateToo.mem_appliedVersions, separate.mem_appliedVersions,
      current_of_perm permuted]
  refine List.Perm.eq_of_pairwise ?_ pairwise_appliedVersions
    pairwise_appliedVersions
    ((List.perm_ext_iff_of_nodup nodup_appliedVersions
      nodup_appliedVersions).mpr same)
  intro left right inLeft inRight forth back
  by_contra different
  exact (separate left right
    (separate.mem_appliedVersions.mp ((same left).mp inLeft))
    (separate.mem_appliedVersions.mp inRight) different).2 ⟨forth, back⟩

end Applied

/-! ## The law -/

/--
The value is the one of the highest current version which sets it, or the
default where none does.
-/
def Decides {β : Type} (collation : Collation)
    (versions : List WardenPolicyVersion) (context : WardenPolicyContext)
    (get : PolicyOverrides → Option β) (default value : β) : Prop :=
  (∃ version, Current versions context version ∧
    get version.config = some value ∧
      ∀ other, Current versions context other →
        (get other.config).isSome → orders collation other version) ∨
    ((∀ version, Current versions context version →
      get version.config = none) ∧ value = default)

/-- What a resolution promises. -/
structure Lawful (collation : Collation) (versions : List WardenPolicyVersion)
    (context : WardenPolicyContext) : Prop where
  orderFree : ∀ others, others.Perm versions →
    resolveWardenPolicy collation others context =
      resolveWardenPolicy collation versions context
  applied : ∀ id,
    id ∈ (resolveWardenPolicy collation versions context).appliedVersionIds ↔
      ∃ version, Current versions context version ∧ version.id = id
  autoMerge : Decides collation versions context
    PolicyOverrides.autoMergeLowRisk defaultPolicy.autoMergeLowRisk
    (resolveWardenPolicy collation versions context).policy.autoMergeLowRisk
  reviewers : Decides collation versions context
    PolicyOverrides.requireTwoReviewersForAuth
    defaultPolicy.requireTwoReviewersForAuth
    (resolveWardenPolicy collation versions
      context).policy.requireTwoReviewersForAuth
  confidence : Decides collation versions context
    PolicyOverrides.minConfidenceForEdit defaultPolicy.minConfidenceForEdit
    (resolveWardenPolicy collation versions
      context).policy.minConfidenceForEdit
  notifications : Decides collation versions context
    PolicyOverrides.notificationsOnly defaultPolicy.notificationsOnly
    (resolveWardenPolicy collation versions context).policy.notificationsOnly
  neverTouch : ∃ paths, Decides collation versions context
    PolicyOverrides.neverTouchPaths [] paths ∧
      (resolveWardenPolicy collation versions context).policy.neverTouchPaths =
        protecting paths
  protects : ∀ path ∈ defaultPolicy.neverTouchPaths, path ∈
    (resolveWardenPolicy collation versions context).policy.neverTouchPaths

section Law

variable {collation : Collation} {versions : List WardenPolicyVersion}
  {context : WardenPolicyContext}

theorem Separate.decides (separate : Separate collation versions context)
    {β : Type} (get : PolicyOverrides → Option β) (default : β) :
    Decides collation versions context get default
      (lastSet get default
        (appliedVersions collation versions context)) := by
  have spec := lastSet_spec get default (orders_refl collation)
    (@pairwise_appliedVersions collation versions context)
  simp only [separate.mem_appliedVersions] at spec
  exact spec

theorem field_resolve {β : Type} {get : PolicyOverrides → Option β}
    {field : PolicyConfig → β}
    (merges : ∀ policy version, field (mergeVersion policy version) =
      (get version.config).getD (field policy)) :
    field (resolveWardenPolicy collation versions context).policy =
      lastSet get (field (mergePolicy {}))
        (appliedVersions collation versions context) :=
  @foldl_mergeVersion _ get field id (fun _ => rfl) merges _ _ rfl _

theorem neverTouchPaths_resolve :
    (resolveWardenPolicy collation versions context).policy.neverTouchPaths =
      protecting (lastSet PolicyOverrides.neverTouchPaths []
        (appliedVersions collation versions context)) :=
  foldl_mergeVersion protecting_protecting (fun _ _ => rfl) rfl _

theorem Separate.lawful (separate : Separate collation versions context) :
    Lawful collation versions context where
  orderFree others permuted := by
    rw [resolveWardenPolicy, separate.appliedVersions_eq permuted,
      resolveWardenPolicy]
  applied id := by
    simp only [resolveWardenPolicy, List.mem_map,
      separate.mem_appliedVersions]
  autoMerge := by
    rw [@field_resolve _ _ _ _ PolicyOverrides.autoMergeLowRisk
      PolicyConfig.autoMergeLowRisk fun _ _ => rfl]
    exact separate.decides _ _
  reviewers := by
    rw [@field_resolve _ _ _ _ PolicyOverrides.requireTwoReviewersForAuth
      PolicyConfig.requireTwoReviewersForAuth fun _ _ => rfl]
    exact separate.decides _ _
  confidence := by
    rw [@field_resolve _ _ _ _ PolicyOverrides.minConfidenceForEdit
      PolicyConfig.minConfidenceForEdit fun _ _ => rfl]
    exact separate.decides _ _
  notifications := by
    rw [@field_resolve _ _ _ _ PolicyOverrides.notificationsOnly
      PolicyConfig.notificationsOnly fun _ _ => rfl]
    exact separate.decides _ _
  neverTouch := ⟨_, separate.decides _ _, neverTouchPaths_resolve⟩
  protects path member := by
    rw [neverTouchPaths_resolve]
    exact mem_protecting.mpr (.inl member)

theorem Recorded.eq_of_id (recorded : Recorded versions)
    {left right : WardenPolicyVersion} (inLeft : left ∈ versions)
    (inRight : right ∈ versions) (same : left.id = right.id) :
    left = right :=
  List.inj_on_of_nodup_map recorded.ids inLeft inRight same

theorem Lawful.mem_appliedVersions (lawful :
    Lawful collation versions context) (recorded : Recorded versions)
    {others : List WardenPolicyVersion} (permuted : others.Perm versions)
    {version : WardenPolicyVersion}
    (current : Current versions context version) :
    version ∈ appliedVersions collation others context := by
  have listed := (lawful.applied version.id).mpr ⟨version, current, rfl⟩
  rw [← lawful.orderFree others permuted] at listed
  obtain ⟨other, member, same⟩ := List.mem_map.mp listed
  have otherCurrent := current_of_mem_values
    (EditPolicy.mem_appliedVersions.mp member)
  rw [current_of_perm permuted] at otherCurrent
  rw [← recorded.eq_of_id otherCurrent.1 current.1 same]
  exact member

theorem Lawful.appliedVersions_eq (lawful :
    Lawful collation versions context) (recorded : Recorded versions)
    {others : List WardenPolicyVersion} (permuted : others.Perm versions) :
    appliedVersions collation others context =
      appliedVersions collation versions context := by
  have ids := congrArg WardenPolicyResolution.appliedVersionIds
    (lawful.orderFree others permuted)
  have known : ∀ {list : List WardenPolicyVersion}, list.Perm versions →
      ∀ version ∈ appliedVersions collation list context,
        version ∈ versions := by
    intro list sameList version member
    exact sameList.mem_iff.mp (current_of_mem_values
      (EditPolicy.mem_appliedVersions.mp member)).1
  exact Distinct.eq_of_map_eq (fun one inOthers two inVersions =>
    recorded.eq_of_id (known permuted one inOthers)
      (known (.refl _) two inVersions)) ids

theorem Lawful.separate (lawful : Lawful collation versions context)
    (recorded : Recorded versions) :
    Separate collation versions context := by
  intro left right leftCurrent rightCurrent different
  have apart : layerKey left ≠ layerKey right := by
    intro same
    have keeps := keeps_latestByLayer versions context
    obtain ⟨_, leftStored⟩ := (OrderedMap.mem_values_iff _ _).mp
      (EditPolicy.mem_appliedVersions.mp
        (lawful.mem_appliedVersions recorded (.refl _) leftCurrent))
    obtain ⟨_, rightStored⟩ := (OrderedMap.mem_values_iff _ _).mp
      (EditPolicy.mem_appliedVersions.mp
        (lawful.mem_appliedVersions recorded (.refl _) rightCurrent))
    rw [← (keeps.kept _ _ leftStored).1, same,
      (keeps.kept _ _ rightStored).1, rightStored] at leftStored
    exact different (Option.some.inj leftStored).symm
  refine ⟨apart, fun ⟨forth, back⟩ => ?_⟩
  have inRest : right ∈ versions.erase left :=
    (List.mem_erase_of_ne different.symm).mpr rightCurrent.1
  have split : versions.Perm
      (left :: right :: (versions.erase left).erase right) :=
    (List.perm_cons_erase leftCurrent.1).trans
      ((List.perm_cons_erase inRest).cons left)
  generalize (versions.erase left).erase right = rest at split
  have leading : ∀ {one two : WardenPolicyVersion},
      Current versions context one → Current versions context two →
      layerKey one ≠ layerKey two → orders collation one two →
      (one :: two :: rest).Perm versions →
      StableSort.Before (appliedVersions collation versions context)
        one two := by
    intro one two oneCurrent twoCurrent keys ordered permuted
    rw [← lawful.appliedVersions_eq recorded permuted]
    apply List.pair_sublist_insertionSort ordered
    apply before_values oneCurrent.2.1 twoCurrent.2.1 keys
    · exact EditPolicy.mem_appliedVersions.mp
        (lawful.mem_appliedVersions recorded permuted oneCurrent)
    · exact EditPolicy.mem_appliedVersions.mp
        (lawful.mem_appliedVersions recorded permuted twoCurrent)
  exact StableSort.not_before_of_before nodup_appliedVersions
    (leading leftCurrent rightCurrent apart forth split.symm)
    (leading rightCurrent leftCurrent apart.symm back
      ((List.Perm.swap left right rest).trans split.symm))

theorem lawful_iff (recorded : Recorded versions) :
    Lawful collation versions context ↔
      Separate collation versions context :=
  ⟨fun lawful => lawful.separate recorded, Separate.lawful⟩

end Law

end Mendpoint.EditPolicy
