import Mathlib.Data.Finset.Max
import Mendpoint.Library.KeyedSort
import Mendpoint.Policy.Config

/-!
# Which versions apply, and which of them decides

Of every layer the latest eligible version applies, provided that no two layers
are kept under one text.  The last applied version which sets a field decides
it, and the order of the applied versions does not depend on the list when no
two of them tie.
-/

namespace Mendpoint.EditPolicy

open Mendpoint.Library

/-! ## The latest versions of layers -/

/-- What is kept after some eligible versions. -/
structure Keeps (latest : OrderedMap String WardenPolicyVersion)
    (versions : List WardenPolicyVersion) : Prop where
  kept : ∀ key version, latest.get? key = some version →
    layerKey version = key ∧ version ∈ versions ∧
      ∀ other ∈ versions, layerKey other = key →
        other.version ≤ version.version
  present : ∀ version ∈ versions,
    ∃ other, latest.get? (layerKey version) = some other

theorem keeps_empty : Keeps OrderedMap.empty [] where
  kept _ _ impossible := by cases impossible
  present _ impossible := (List.not_mem_nil impossible).elim

theorem Keeps.keepLatest {latest : OrderedMap String WardenPolicyVersion}
    {versions : List WardenPolicyVersion} (keeps : Keeps latest versions)
    (version : WardenPolicyVersion) :
    Keeps (keepLatest latest version) (versions ++ [version]) := by
  have set : (∀ other ∈ versions, layerKey other = layerKey version →
      other.version ≤ version.version) →
      Keeps (latest.set (layerKey version) version)
        (versions ++ [version]) := by
    intro later
    constructor
    · intro key found
      rw [OrderedMap.get?_set]
      split
      · next same =>
          subst same
          rintro ⟨⟩
          refine ⟨rfl, List.mem_append_right _ List.mem_cons_self, ?_⟩
          intro other member sameKey
          rcases List.mem_append.mp member with before | last
          · exact later other before sameKey
          · exact (List.mem_singleton.mp last ▸ le_refl version.version)
      · next different =>
          intro stored
          obtain ⟨keyed, member, greatest⟩ := keeps.kept key found stored
          refine ⟨keyed, List.mem_append_left _ member, ?_⟩
          intro other inside sameKey
          rcases List.mem_append.mp inside with before | last
          · exact greatest other before sameKey
          · rw [List.mem_singleton.mp last] at sameKey
            exact absurd sameKey different
    · intro other member
      rw [OrderedMap.get?_set]
      split
      · exact ⟨version, rfl⟩
      · next different =>
          rcases List.mem_append.mp member with before | last
          · exact keeps.present other before
          · exact absurd (List.mem_singleton.mp last ▸ rfl) different
  rw [EditPolicy.keepLatest]
  split
  · next absent =>
      apply set
      intro other member sameKey
      obtain ⟨found, stored⟩ := keeps.present other member
      rw [sameKey, absent] at stored
      cases stored
  · next previous stored =>
      obtain ⟨keyed, inside, greatest⟩ := keeps.kept _ _ stored
      split
      · next later =>
          apply set
          intro other member sameKey
          exact (greatest other member sameKey).trans later.le
      · next notLater =>
          constructor
          · intro key found foundStored
            obtain ⟨foundKeyed, member, foundGreatest⟩ :=
              keeps.kept key found foundStored
            refine ⟨foundKeyed, List.mem_append_left _ member, ?_⟩
            intro other member sameKey
            rcases List.mem_append.mp member with before | last
            · exact foundGreatest other before sameKey
            · rw [List.mem_singleton.mp last] at sameKey ⊢
              rw [sameKey, foundStored, Option.some.injEq] at stored
              exact stored ▸ Nat.le_of_not_lt notLater
          · intro other member
            rcases List.mem_append.mp member with before | last
            · exact keeps.present other before
            · rw [List.mem_singleton.mp last]
              exact ⟨previous, stored⟩

theorem keeps_foldl {latest : OrderedMap String WardenPolicyVersion}
    {versions : List WardenPolicyVersion} (keeps : Keeps latest versions)
    (more : List WardenPolicyVersion) :
    Keeps (more.foldl EditPolicy.keepLatest latest) (versions ++ more) := by
  induction more generalizing latest versions with
  | nil => rwa [List.append_nil]
  | cons version rest inductionHypothesis =>
    have next := inductionHypothesis (keeps.keepLatest version)
    rwa [List.append_assoc] at next

theorem keeps_latestByLayer (versions : List WardenPolicyVersion)
    (context : WardenPolicyContext) :
    Keeps (latestByLayer versions context)
      (versions.filter (eligible context)) :=
  keeps_foldl keeps_empty _

theorem keys_prefix_keepLatest
    (latest : OrderedMap String WardenPolicyVersion)
    (version : WardenPolicyVersion) :
    latest.keys <+: (keepLatest latest version).keys := by
  have grows : latest.keys <+:
      (latest.set (layerKey version) version).keys := by
    rw [OrderedMap.keys_set]
    split
    · exact List.prefix_refl _
    · exact List.prefix_append _ _
  rw [keepLatest]
  split
  · exact grows
  · split
    · exact grows
    · exact List.prefix_refl _

theorem keys_prefix_foldl (latest : OrderedMap String WardenPolicyVersion)
    (versions : List WardenPolicyVersion) :
    latest.keys <+: (versions.foldl keepLatest latest).keys := by
  induction versions generalizing latest with
  | nil => exact List.prefix_refl _
  | cons version rest inductionHypothesis =>
    exact (keys_prefix_keepLatest latest version).trans
      (inductionHypothesis _)

/-! ## Layers and their current versions -/

/-- Versions of one policy for one scope. -/
def SameLayer (left right : WardenPolicyVersion) : Prop :=
  left.policyKey = right.policyKey ∧ left.scope = right.scope

theorem layerKey_eq {left right : WardenPolicyVersion}
    (same : SameLayer left right) : layerKey left = layerKey right := by
  rw [layerKey, layerKey, same.1, same.2]

/-- The latest eligible version of its layer. -/
def Current (versions : List WardenPolicyVersion)
    (context : WardenPolicyContext) (version : WardenPolicyVersion) : Prop :=
  version ∈ versions ∧ eligible context version = true ∧
    ∀ other ∈ versions, eligible context other = true →
      SameLayer other version → other.version ≤ version.version

/-- The identifiers are primary keys, and a policy numbers its versions. -/
structure Recorded (versions : List WardenPolicyVersion) : Prop where
  ids : (versions.map WardenPolicyVersion.id).Nodup
  numbered : ∀ left ∈ versions, ∀ right ∈ versions,
    left.tenantId = right.tenantId → left.policyKey = right.policyKey →
      left.version = right.version → left = right

/-- Neither of two versions comes strictly before the other. -/
def Ties (collation : Collation) (left right : WardenPolicyVersion) : Prop :=
  orders collation left right ∧ orders collation right left

/-- The current versions are kept under different texts and never tie. -/
def Separate (collation : Collation) (versions : List WardenPolicyVersion)
    (context : WardenPolicyContext) : Prop :=
  ∀ left right, Current versions context left →
    Current versions context right → left ≠ right →
      layerKey left ≠ layerKey right ∧ ¬ Ties collation left right

section Layers

variable {collation : Collation} {versions others : List WardenPolicyVersion}
  {context : WardenPolicyContext}

variable {version : WardenPolicyVersion}

theorem current_of_perm (permuted : others.Perm versions) :
    Current others context = Current versions context := by
  funext version
  simp only [Current, permuted.mem_iff]

theorem separate_of_perm (permuted : others.Perm versions) :
    Separate collation others context ↔
      Separate collation versions context := by
  simp only [Separate, current_of_perm permuted]

theorem current_of_mem_values
    (member : version ∈ (latestByLayer versions context).values) :
    Current versions context version := by
  obtain ⟨key, stored⟩ := (OrderedMap.mem_values_iff _ _).mp member
  obtain ⟨keyed, inside, greatest⟩ :=
    (keeps_latestByLayer versions context).kept key version stored
  obtain ⟨known, allowed⟩ := List.mem_filter.mp inside
  refine ⟨known, allowed, fun other otherKnown otherAllowed same => ?_⟩
  exact greatest other (List.mem_filter.mpr ⟨otherKnown, otherAllowed⟩)
    ((layerKey_eq same).trans keyed)

theorem mem_values_of_current
    (apart : ∀ other, Current versions context other → layerKey other =
      layerKey version → other = version)
    (current : Current versions context version) :
    version ∈ (latestByLayer versions context).values := by
  have keeps := keeps_latestByLayer versions context
  obtain ⟨kept, stored⟩ := keeps.present version
    (List.mem_filter.mpr ⟨current.1, current.2.1⟩)
  have inside : kept ∈ (latestByLayer versions context).values :=
    (OrderedMap.mem_values_iff _ _).mpr ⟨_, stored⟩
  rw [apart kept (current_of_mem_values inside)
    (keeps.kept _ _ stored).1] at inside
  exact inside

theorem Separate.mem_values_iff
    (separate : Separate collation versions context) :
    version ∈ (latestByLayer versions context).values ↔
      Current versions context version := by
  refine ⟨current_of_mem_values, fun current => ?_⟩
  apply mem_values_of_current _ current
  intro other otherCurrent sameKey
  by_contra different
  exact (separate other version otherCurrent current different).1 sameKey

theorem nodup_values (versions : List WardenPolicyVersion)
    (context : WardenPolicyContext) :
    (latestByLayer versions context).values.Nodup := by
  have keys : (latestByLayer versions context).values.map layerKey =
      (latestByLayer versions context).keys := by
    rw [OrderedMap.values, OrderedMap.keys, List.map_map]
    apply List.map_congr_left
    rintro ⟨key, version⟩ member
    exact ((keeps_latestByLayer versions context).kept key version
      ((OrderedMap.mem_entries_iff _ _ _).mp member)).1
  apply List.Nodup.of_map layerKey
  rw [keys]
  exact OrderedMap.nodup_keys _

theorem before_values {first second : WardenPolicyVersion}
    {rest : List WardenPolicyVersion}
    (firstAllowed : eligible context first = true)
    (secondAllowed : eligible context second = true)
    (different : layerKey first ≠ layerKey second)
    (firstKept : first ∈ (latestByLayer (first :: second :: rest)
      context).values)
    (secondKept : second ∈ (latestByLayer (first :: second :: rest)
      context).values) :
    StableSort.Before (latestByLayer (first :: second :: rest)
      context).values first second := by
  have keeps := keeps_latestByLayer (first :: second :: rest) context
  have starts : [layerKey first, layerKey second] <+:
      (latestByLayer (first :: second :: rest) context).keys := by
    rw [latestByLayer, List.filter_cons_of_pos firstAllowed,
      List.filter_cons_of_pos secondAllowed, List.foldl_cons,
      List.foldl_cons]
    have two : (keepLatest (keepLatest OrderedMap.empty first) second).keys =
        [layerKey first, layerKey second] := by
      have one : (keepLatest OrderedMap.empty first) =
          OrderedMap.empty.set (layerKey first) first := rfl
      rw [one, keepLatest, OrderedMap.get?_set_of_ne _ _ different,
        OrderedMap.get?_empty]
      dsimp only
      rw [OrderedMap.keys_set, OrderedMap.keys_set, OrderedMap.keys_empty,
        if_neg List.not_mem_nil, List.nil_append, if_neg]
      · rfl
      · rw [List.mem_singleton]
        exact different.symm
    rw [← two]
    exact keys_prefix_foldl _ _
  generalize latestByLayer (first :: second :: rest) context = latest at *
  have lookup : ∀ {version}, version ∈ latest.values →
      latest.get? (layerKey version) = some version := by
    intro version kept
    obtain ⟨key, stored⟩ := (OrderedMap.mem_values_iff _ _).mp kept
    rwa [← (keeps.kept key version stored).1] at stored
  rw [OrderedMap.keys] at starts
  rw [OrderedMap.values]
  cases entries : latest.entries with
  | nil =>
    rw [entries] at starts
    exact absurd (List.prefix_nil.mp starts) (List.cons_ne_nil _ _)
  | cons one tail =>
    cases tail with
    | nil =>
      rw [entries, List.map_cons, List.map_nil,
        List.cons_prefix_cons] at starts
      exact absurd (List.prefix_nil.mp starts.2) (List.cons_ne_nil _ _)
    | cons two others =>
      rw [entries, List.map_cons, List.map_cons, List.cons_prefix_cons,
        List.cons_prefix_cons] at starts
      have value : ∀ entry ∈ latest.entries, ∀ version,
          version ∈ latest.values → layerKey version = entry.1 →
            entry.2 = version := by
        rintro ⟨key, stored⟩ member version kept rfl
        have found := (OrderedMap.mem_entries_iff _ _ _).mp member
        rw [lookup kept, Option.some.injEq] at found
        exact found.symm
      rw [entries] at value
      rw [List.map_cons, List.map_cons,
        value one List.mem_cons_self first firstKept starts.1,
        value two (List.mem_cons_of_mem _ List.mem_cons_self) second
          secondKept starts.2.1]
      exact (List.cons_sublist_cons.mpr (List.cons_sublist_cons.mpr
        (List.nil_sublist _)))

end Layers

end Mendpoint.EditPolicy
