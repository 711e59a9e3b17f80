import Mendpoint.Library.OrderedMap
import Mendpoint.Policy.Resolution

/-!
# Simulated changes

A simulation adds the candidate, as if it were approved, behind the other
versions, whereas approving it leaves it in its place.  Both are resolved alike
when the versions stay separate once the candidate is approved.
-/

namespace Mendpoint.EditPolicy

open Mendpoint.Library

/-! ## Records of approval -/

/-- The version without the record of its approval. -/
def WardenPolicyVersion.bare (version : WardenPolicyVersion) :
    WardenPolicyVersion :=
  { version with approval := none }

theorem keepLatest_bare (latest : OrderedMap String WardenPolicyVersion)
    (version : WardenPolicyVersion) :
    keepLatest (latest.mapValues WardenPolicyVersion.bare) version.bare =
      (keepLatest latest version).mapValues WardenPolicyVersion.bare := by
  have key : layerKey version.bare = layerKey version := rfl
  rw [keepLatest, keepLatest, key, OrderedMap.get?_mapValues,
    OrderedMap.set_mapValues]
  cases latest.get? (layerKey version) with
  | none => rfl
  | some previous =>
    by_cases later : previous.version < version.version
    · exact (if_pos later).trans (congrArg _ (if_pos later).symm)
    · exact (if_neg later).trans (congrArg _ (if_neg later).symm)

theorem foldl_keepLatest_bare (versions : List WardenPolicyVersion)
    (latest : OrderedMap String WardenPolicyVersion) :
    (versions.map WardenPolicyVersion.bare).foldl keepLatest
        (latest.mapValues WardenPolicyVersion.bare) =
      (versions.foldl keepLatest latest).mapValues
        WardenPolicyVersion.bare := by
  induction versions generalizing latest with
  | nil => rfl
  | cons version rest inductionHypothesis =>
    rw [List.map_cons, List.foldl_cons, keepLatest_bare,
      inductionHypothesis, List.foldl_cons]

section Bare

variable {collation : Collation} {context : WardenPolicyContext}

theorem appliedVersions_bare (versions : List WardenPolicyVersion) :
    appliedVersions collation (versions.map WardenPolicyVersion.bare)
        context =
      (appliedVersions collation versions context).map
        WardenPolicyVersion.bare := by
  have allowed : eligible context ∘ WardenPolicyVersion.bare =
      eligible context := rfl
  have latest : latestByLayer (versions.map WardenPolicyVersion.bare) context =
      (latestByLayer versions context).mapValues WardenPolicyVersion.bare := by
    rw [latestByLayer, List.filter_map, allowed]
    exact foldl_keepLatest_bare _ OrderedMap.empty
  rw [appliedVersions, latest, OrderedMap.values_mapValues, appliedVersions,
    List.map_insertionSort (orders collation) (orders collation)]
  exact fun _ _ _ _ => Iff.rfl

theorem resolve_bare (versions : List WardenPolicyVersion) :
    resolveWardenPolicy collation (versions.map WardenPolicyVersion.bare)
        context =
      resolveWardenPolicy collation versions context := by
  rw [resolveWardenPolicy, appliedVersions_bare, List.foldl_map,
    List.map_map, List.map_map, resolveWardenPolicy]
  rfl

end Bare

/-! ## Approving a candidate -/

/-- The versions once the candidate is approved. -/
def approve (versions : List WardenPolicyVersion)
    (candidate : WardenPolicyVersion) (approval : WardenPolicyApproval) :
    List WardenPolicyVersion :=
  versions.map fun version =>
    if version.id = candidate.id then approvedBy version approval else version

/-- The versions with which the store simulates a candidate. -/
def activeVersions (versions : List WardenPolicyVersion)
    (candidate : WardenPolicyVersion) : List WardenPolicyVersion :=
  versions.filter fun version => version.id != candidate.id

section Approved

variable {collation : Collation} {versions : List WardenPolicyVersion}
  {candidate : WardenPolicyVersion} {context : WardenPolicyContext}

theorem Recorded.approve (recorded : Recorded versions)
    (candidate : WardenPolicyVersion) (approval : WardenPolicyApproval) :
    Recorded (approve versions candidate approval) := by
  have kept : ∀ version : WardenPolicyVersion,
      (if version.id = candidate.id then approvedBy version approval
        else version).id = version.id ∧
      (if version.id = candidate.id then approvedBy version approval
        else version).tenantId = version.tenantId ∧
      (if version.id = candidate.id then approvedBy version approval
        else version).policyKey = version.policyKey ∧
      (if version.id = candidate.id then approvedBy version approval
        else version).version = version.version := by
    intro version
    split <;> exact ⟨rfl, rfl, rfl, rfl⟩
  constructor
  · have ids : (EditPolicy.approve versions candidate approval).map
        WardenPolicyVersion.id = versions.map WardenPolicyVersion.id := by
      rw [EditPolicy.approve, List.map_map]
      exact List.map_congr_left fun version _ => (kept version).1
    rw [ids]
    exact recorded.ids
  · intro left inLeft right inRight
    obtain ⟨one, oneMember, rfl⟩ := List.mem_map.mp inLeft
    obtain ⟨two, twoMember, rfl⟩ := List.mem_map.mp inRight
    obtain ⟨_, oneTenant, oneKey, oneVersion⟩ := kept one
    obtain ⟨_, twoTenant, twoKey, twoVersion⟩ := kept two
    rw [oneTenant, twoTenant, oneKey, twoKey, oneVersion, twoVersion]
    intro tenant key version
    rw [recorded.numbered one oneMember two twoMember tenant key version]

theorem approve_perm (recorded : Recorded versions)
    (member : candidate ∈ versions) (approval : WardenPolicyApproval) :
    (approve versions candidate approval).Perm
      (activeVersions versions candidate ++
        [approvedBy candidate approval]) := by
  obtain ⟨front, back, rfl⟩ := List.append_of_mem member
  have different : ∀ other ∈ front ++ back, other.id ≠ candidate.id := by
    have ids := recorded.ids
    rw [List.map_append, List.map_cons] at ids
    have fresh := (List.nodup_cons.mp (List.nodup_middle.mp ids)).1
    rw [← List.map_append] at fresh
    intro other inside same
    exact fresh (same ▸ List.mem_map_of_mem inside)
  have unchanged : ∀ part : List WardenPolicyVersion,
      (∀ other ∈ part, other ∈ front ++ back) →
      approve part candidate approval = part ∧
        activeVersions part candidate = part := by
    intro part inside
    constructor
    · rw [approve]
      conv_rhs => rw [← List.map_id part]
      exact List.map_congr_left fun other member =>
        if_neg (different other (inside other member))
    · rw [activeVersions, List.filter_eq_self]
      exact fun other member =>
        bne_iff_ne.mpr (different other (inside other member))
  have inFront := unchanged front fun _ => List.mem_append_left _
  have inBack := unchanged back fun _ => List.mem_append_right _
  have approved : approve (front ++ candidate :: back) candidate approval =
      front ++ approvedBy candidate approval :: back := by
    rw [approve, List.map_append, List.map_cons, if_pos rfl]
    exact congrArg₂ _ inFront.1 (congrArg _ inBack.1)
  have active : activeVersions (front ++ candidate :: back) candidate =
      front ++ back := by
    rw [activeVersions, List.filter_append, List.filter_cons_of_neg]
    · exact congrArg₂ _ inFront.2 inBack.2
    · rw [bne_self_eq_false]
      exact Bool.false_ne_true
  rw [approved, active, List.append_assoc]
  exact (List.perm_append_singleton _ back).symm.append_left front

theorem afterPolicy_eq (recorded : Recorded versions)
    (member : candidate ∈ versions) (approval : WardenPolicyApproval)
    (lawful : Lawful collation (approve versions candidate approval)
      context) :
    afterPolicy collation (activeVersions versions candidate) candidate
        context =
      (resolveWardenPolicy collation (approve versions candidate approval)
        context).policy := by
  rw [afterPolicy, ← resolve_bare, ← lawful.orderFree _
    (approve_perm recorded member approval).symm,
    ← resolve_bare (activeVersions versions candidate ++
      [approvedBy candidate approval]), List.map_append, List.map_append]
  rfl

end Approved

/--
The resolution before and after a candidate is approved follows the law, and
the simulation evaluates by it, exactly when the versions are separate before
and after.
-/
theorem simulation_lawful_iff (collation : Collation)
    (versions : List WardenPolicyVersion) (candidate : WardenPolicyVersion)
    (approval : WardenPolicyApproval) (context : WardenPolicyContext)
    (recorded : Recorded versions) (member : candidate ∈ versions) :
    (afterPolicy collation (activeVersions versions candidate) candidate
          context =
        (resolveWardenPolicy collation (approve versions candidate approval)
          context).policy ∧
      Lawful collation versions context ∧
      Lawful collation (approve versions candidate approval) context) ↔
      Separate collation versions context ∧
        Separate collation (approve versions candidate approval) context := by
  rw [lawful_iff recorded, lawful_iff (recorded.approve candidate approval)]
  constructor
  · rintro ⟨_, before, after⟩
    exact ⟨before, after⟩
  · rintro ⟨before, after⟩
    exact ⟨afterPolicy_eq recorded member approval after.lawful, before,
      after⟩

/-- A version of one tenant for its tenant scope. -/
def sampleVersion (id policyKey : String) (kind : WardenPolicyScopeKind)
    (value : String) (state : WardenPolicyApprovalState) :
    WardenPolicyVersion where
  id := id
  tenantId := "tenant-a"
  policyKey := policyKey
  version := 1
  scope := { kind := kind, value := value }
  config := { notificationsOnly := some true }
  createdBy := "human:author"
  createdAt := "2026-08-02T12:00:00.000Z"
  evidenceArtifactId := "artifact-1"
  contentSha256 := ""
  approvalState := state
  approval := none

def sampleContext : WardenPolicyContext where
  tenantId := "tenant-a"
  repositoryId := "repo-a"
  branch := "main"
  environment := "production"
  risk := .breaking

def sampleApproval : WardenPolicyApproval where
  approvalId := "approval-1"
  approvedBy := "human:reviewer"
  approvedAt := "2026-08-02T12:01:00.000Z"
  evidenceArtifactId := "artifact-2"

/-- A draft of a policy for the tenant. -/
def sampleDraft : WardenPolicyVersion :=
  sampleVersion "policy-1" "base" .tenant "tenant-a" .draft

theorem separate_singleton (collation : Collation)
    (version : WardenPolicyVersion) (context : WardenPolicyContext) :
    Separate collation [version] context := by
  intro left right leftCurrent rightCurrent different
  exact absurd ((List.mem_singleton.mp leftCurrent.1).trans
    (List.mem_singleton.mp rightCurrent.1).symm) different

/-- The first draft of a tenant is simulated as it is resolved. -/
theorem simulation_lawful_sample :
    afterPolicy Collation.ordinal (activeVersions [sampleDraft] sampleDraft)
        sampleDraft sampleContext =
      (resolveWardenPolicy Collation.ordinal
        (approve [sampleDraft] sampleDraft sampleApproval)
          sampleContext).policy :=
  ((simulation_lawful_iff Collation.ordinal [sampleDraft] sampleDraft
    sampleApproval sampleContext
    ⟨List.nodup_singleton _, fun _ inLeft _ inRight _ _ _ =>
      (List.mem_singleton.mp inLeft).trans
        (List.mem_singleton.mp inRight).symm⟩ List.mem_cons_self).mpr
    ⟨separate_singleton _ _ _, separate_singleton _ _ _⟩).1

/-- Two policies of a tenant whose keys differ and compare equal. -/
def tiedVersions : List WardenPolicyVersion :=
  [sampleVersion "policy-1" "é" .tenant "tenant-a" .approved,
    sampleVersion "policy-2" "e\u0301" .tenant "tenant-a" .approved,
    sampleVersion "policy-3" "risks" .risk "breaking" .draft]

theorem current_tied {version : WardenPolicyVersion}
    (member : version ∈ tiedVersions)
    (allowed : eligible sampleContext version = true) :
    Current tiedVersions sampleContext version := by
  have first : ∀ other ∈ tiedVersions, other.version = 1 := by decide
  refine ⟨member, allowed, fun other inside _ _ => ?_⟩
  rw [first other inside, first version member]

/-- Which of two keys that compare equal comes last depends on the list. -/
theorem not_simulation_lawful :
    ¬ ∀ (collation : Collation) (versions : List WardenPolicyVersion)
      (candidate : WardenPolicyVersion) (approval : WardenPolicyApproval)
      (context : WardenPolicyContext), Recorded versions →
      candidate ∈ versions → candidate.approvalState = .draft →
      (afterPolicy collation (activeVersions versions candidate) candidate
            context =
          (resolveWardenPolicy collation (approve versions candidate approval)
            context).policy ∧
        Lawful collation versions context ∧
        Lawful collation (approve versions candidate approval) context) := by
  intro claimed
  have recorded : Recorded tiedVersions := ⟨by decide, by decide⟩
  have lawful := (claimed Collation.composing tiedVersions
    (sampleVersion "policy-3" "risks" .risk "breaking" .draft)
    sampleApproval sampleContext recorded (by decide) rfl).2.1
  have separate := (lawful_iff recorded).mp lawful
  exact (separate
    (sampleVersion "policy-1" "é" .tenant "tenant-a" .approved)
    (sampleVersion "policy-2" "e\u0301" .tenant "tenant-a" .approved)
    (current_tied (by decide) (by decide))
    (current_tied (by decide) (by decide)) (by decide)).2
      ⟨by decide, by decide⟩

end Mendpoint.EditPolicy
