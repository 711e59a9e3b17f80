import Mendpoint.Secrets.Lineage

/-!
# Runs of the lifecycle

In every order of the calls generations stay numbered, revoked versions stay as
they are, and failing calls change nothing.  Where the callers are truthful
about lineages, a revoked material is never in use again.
-/

namespace Mendpoint.Secrets

open Mendpoint.Library
open Mendpoint.Library.Attempt
open Mendpoint.Library.Run

universe u

/-! ## Calls -/

inductive Call where
  | create (input : SecretLifecycleInput) (options : MutationOptions)
  | rotate (input : RotateInput) (options : MutationOptions)
      (lineages : Option (List LineageCandidate))
  | rewrap (input : RotateInput) (identity : OperationIdentity)
      (options : MutationOptions) (lineages : Option (List LineageCandidate))
  | revoke (input : RevokeInput) (options : MutationOptions)
      (replayAudit : SecretLifecycleVersionRow → Except String PUnit)

namespace Call

def attempt : Call → Attempt SecretDb String SecretLifecycleVersionRow
  | create input options => createSecretLifecycle input options
  | rotate input options lineages =>
    rotateSecretLifecycle input options lineages
  | rewrap input identity options lineages =>
    rewrapSecretLifecycle input identity options lineages
  | revoke input options replayAudit =>
    revokeSecretLifecycle input options replayAudit

/-- The tables after a call, whether it goes through or fails. -/
def next (db : SecretDb) (call : Call) : SecretDb :=
  (outcome call.attempt db).2

theorem undoes (call : Call) : Undoes call.attempt := by
  cases call with
  | create input options =>
    refine undoes_lift_bind fun _ _ => undoes_lift_bind fun _ _ => ?_
    exact undoes_transaction _
  | rotate input options lineages =>
    refine undoes_lift_bind fun _ _ => undoes_lift_bind fun _ _ => ?_
    exact undoes_transaction _
  | rewrap input identity options lineages =>
    exact undoes_lift_bind fun _ _ => undoes_transaction _
  | revoke input options replayAudit =>
    refine undoes_lift_bind fun _ _ => undoes_lift_bind fun _ _ => ?_
    exact undoes_lift_bind fun _ _ => undoes_transaction _

/-- What a call may do to the versions. -/
inductive Does (db after : SecretDb) : Call → Prop where
  | same (call : Call) (versions : after.versions = db.versions) :
      Does db after call
  | create (input : SecretLifecycleInput) (options : MutationOptions)
      (first : input.generation = 1) (appends : Appends db after input.row) :
      Does db after (.create input options)
  | rotate (input : RotateInput) (options : MutationOptions)
      (lineages : Option (List LineageCandidate))
      (rotated : Rotated db after input (input.candidates lineages)) :
      Does db after (.rotate input options lineages)
  | rewrap (input : RotateInput) (identity : OperationIdentity)
      (options : MutationOptions) (lineages : Option (List LineageCandidate))
      (rotated : Rotated db after input (input.candidates lineages)) :
      Does db after (.rewrap input identity options lineages)
  | revoke (input : RevokeInput) (options : MutationOptions)
      (replayAudit : SecretLifecycleVersionRow → Except String PUnit)
      (existing : SecretLifecycleVersionRow)
      (revoked : Revoked db after input existing) :
      Does db after (.revoke input options replayAudit)

theorem does_next (db : SecretDb) (call : Call) :
    Does db (call.next db) call := by
  cases answered : outcome call.attempt db with
  | mk answer after =>
    have isNext : call.next db = after := by
      rw [next, answered]
    rw [isNext]
    cases answer with
    | error failure =>
      rw [undoes call db failure after answered]
      exact .same call rfl
    | ok row =>
      have yields : Yields call.attempt db row after := answered
      cases call with
      | create input options =>
        rcases createSecretLifecycle_spec yields with
          same | ⟨first, appends⟩
        · exact .same _ same
        · exact .create input options first appends
      | rotate input options lineages =>
        rcases rotateSecretLifecycle_spec yields with same | rotated
        · exact .same _ same
        · exact .rotate input options lineages rotated
      | rewrap input identity options lineages =>
        rcases rewrapSecretLifecycle_spec yields with same | rotated
        · exact .same _ same
        · exact .rewrap input identity options lineages rotated
      | revoke input options replayAudit =>
        rcases revokeSecretLifecycle_spec yields with
          same | ⟨existing, revoked⟩
        · exact .same _ same
        · exact .revoke input options replayAudit existing revoked

end Call

/-! ## What every call keeps -/

theorem Numbered.congr {db after : SecretDb} (numbered : Numbered db)
    (same : after.versions = db.versions) : Numbered after where
  generations tenantId credentialId := by
    rw [SecretDb.versionsOf, same]
    exact numbered.generations tenantId credentialId
  newest row inside active := by
    rw [SecretDb.versionsOf, same]
    exact numbered.newest row (same ▸ inside) active

theorem Numbered.next {db : SecretDb} (numbered : Numbered db)
    (call : Call) : Numbered (call.next db) := by
  have does_ := call.does_next db
  generalize call.next db = after at does_ ⊢
  cases does_ with
  | same _ versions => exact numbered.congr versions
  | create input _ first appends => exact numbered.create first appends
  | rotate _ _ _ rotated => exact numbered.rotate rotated
  | rewrap _ _ _ _ rotated => exact numbered.rotate rotated
  | revoke input _ _ existing revoked =>
    exact numbered.update (demotes_revoke existing input) revoked.versions

/-- A revoked version stays as it is. -/
def Frozen (before after : SecretDb) : Prop :=
  ∀ row ∈ before.versions, row.state = .revoked → row ∈ after.versions

theorem Rotated.frozen {db after : SecretDb} {input : RotateInput}
    {candidates : List LineageCandidate}
    (rotated : Rotated db after input candidates) : Frozen db after := by
  rcases rotated.rows with ⟨current, retained, middle, _, retired, appends⟩
  intro row inside revoked
  rw [appends.versions]
  exact List.mem_append_left _ (revoked_of_update
    (demotes_retire current input.rotatedAt) retired inside revoked)

theorem frozen_next (db : SecretDb) (call : Call) :
    Frozen db (call.next db) := by
  have does_ := call.does_next db
  generalize call.next db = after at does_ ⊢
  cases does_ with
  | same _ versions => exact fun row inside _ => versions.symm ▸ inside
  | create input _ _ appends =>
    intro row inside _
    rw [appends.versions]
    exact List.mem_append_left _ inside
  | rotate _ _ _ rotated => exact rotated.frozen
  | rewrap _ _ _ _ rotated => exact rotated.frozen
  | revoke input _ _ existing revoked =>
    exact fun row => revoked_of_update (demotes_revoke existing input)
      revoked.versions

theorem frozen_run (start : SecretDb) (calls : List Call) :
    Frozen start (run Call.next start calls) := by
  induction calls generalizing start with
  | nil => exact fun _ inside _ => inside
  | cons call rest inductionHypothesis =>
    intro row inside revoked
    exact inductionHypothesis _ row
      (frozen_next start call row inside revoked) revoked

/-! ## Truthful runs -/

section Material

variable {M : Type u} (materialOf : Envelope → M)
variable (lineageOf : String → M → String)

/-- A caller names the lineages of the material truthfully. -/
def TruthfulCall (db : SecretDb) : Call → Prop
  | .create input _ => TrueLabel materialOf lineageOf input
  | .rotate input _ lineages =>
    Truthful materialOf lineageOf db input (input.candidates lineages)
  | .rewrap input _ _ lineages =>
    Truthful materialOf lineageOf db input (input.candidates lineages)
  | .revoke _ _ _ => True

/-- The candidates include the lineages of the material, among others. -/
def SuppliesCandidates (db : SecretDb) (input : RotateInput)
    (candidates : List LineageCandidate) : Prop :=
  TrueLabel materialOf lineageOf input.next ∧
    ∀ row ∈ db.versions, ∀ keyId ∈ row.materialLineageKeyId,
      ∃ candidate ∈ candidates, candidate.keyId = keyId ∧
        candidate.lineageId =
          lineageOf keyId (materialOf input.next.envelope)

/-- A caller supplies the lineages of the material. -/
def SupplyingCall (db : SecretDb) : Call → Prop
  | .create input _ => TrueLabel materialOf lineageOf input
  | .rotate input _ lineages =>
    SuppliesCandidates materialOf lineageOf db input
      (input.candidates lineages)
  | .rewrap input _ _ lineages =>
    SuppliesCandidates materialOf lineageOf db input
      (input.candidates lineages)
  | .revoke _ _ _ => True

/-- What is to hold of the versions of every credential. -/
structure Lawful (db : SecretDb) : Prop where
  numbered : Numbered db
  oneActive : ∀ row ∈ db.versions, ∀ other ∈ db.versions,
    SameCredential row other → row.state = .active →
      other.state = .active → row = other
  buried : ∀ row ∈ db.versions, ∀ other ∈ db.versions,
    SameMaterial materialOf row other →
      row.state = .revoked → other.state = .revoked

/-- What a run does to the versions. -/
structure Kept (start : SecretDb) (calls : List Call) : Prop where
  lawful : ∀ first rest, calls = first ++ rest →
    Lawful materialOf (run Call.next start first)
  frozen : ∀ first rest, calls = first ++ rest →
    Frozen (run Call.next start first) (run Call.next start calls)
  failed : ∀ first call rest failure after, calls = first ++ call :: rest →
    Fails call.attempt (run Call.next start first) failure after →
      after = run Call.next start first

variable {materialOf lineageOf}

theorem Labelled.congr {db after : SecretDb}
    (isLabelled : Labelled materialOf lineageOf db)
    (same : after.versions = db.versions) :
    Labelled materialOf lineageOf after where
  labels row inside := isLabelled.labels row (same ▸ inside)
  oneKey row inside other within :=
    isLabelled.oneKey row (same ▸ inside) other (same ▸ within)
  buried row inside other within :=
    isLabelled.buried row (same ▸ inside) other (same ▸ within)

theorem Labelled.next {db : SecretDb}
    (injective : ∀ keyId, Function.Injective (lineageOf keyId))
    (numbered : Numbered db) (isLabelled : Labelled materialOf lineageOf db)
    {call : Call} (truthful : TruthfulCall materialOf lineageOf db call) :
    Labelled materialOf lineageOf (call.next db) := by
  have does_ := call.does_next db
  generalize call.next db = after at does_ ⊢
  cases does_ with
  | same _ versions => exact isLabelled.congr versions
  | create input _ first appends =>
    exact isLabelled.create numbered truthful first appends
  | rotate _ _ _ rotated =>
    exact isLabelled.rotate injective truthful rotated
  | rewrap _ _ _ _ rotated =>
    exact isLabelled.rotate injective truthful rotated
  | revoke _ _ _ existing revoked => exact isLabelled.revoke revoked

/-- Tables without versions. -/
def Blank (db : SecretDb) : Prop :=
  db.versions = []

theorem Blank.numbered {db : SecretDb} (blank : Blank db) : Numbered db where
  generations tenantId credentialId := by
    rw [SecretDb.versionsOf, show db.versions = [] from blank]
    rfl
  newest row inside := by
    rw [show db.versions = [] from blank] at inside
    cases inside

theorem Blank.labelled {db : SecretDb} (blank : Blank db) :
    Labelled materialOf lineageOf db := by
  have none_ : ∀ row, row ∉ db.versions := fun row inside => by
    rw [show db.versions = [] from blank] at inside
    cases inside
  exact ⟨fun row inside => absurd inside (none_ row),
    fun row inside => absurd inside (none_ row),
    fun row inside => absurd inside (none_ row)⟩

end Material

/-! ## A sample -/

def emptyDb : SecretDb where
  versions := []
  operations := []
  rewraps := []
  revokes := []
  versionKeys := .nil

def sampleTime : String := "2026-01-01T00:00:00.000Z"

def firstMaterial : String :=
  "aaaaaaaaaaaaaaaaaaaaaaaaaaaaaaaaaaaaaaaaaaaaaaaaaaaaaaaaaaaaaaaa"

def secondMaterial : String :=
  "cccccccccccccccccccccccccccccccccccccccccccccccccccccccccccccccc"

/-- In the samples the ciphertext and the lineage are the material itself. -/
def sampleMaterial (envelope : Envelope) : String :=
  envelope.ciphertext

def sampleLineage (_ material : String) : String :=
  material

theorem sampleLineage_injective (keyId : String) :
    Function.Injective (sampleLineage keyId) :=
  fun _ _ same => same

def sampleInput (generation : Nat) (material : String) :
    SecretLifecycleInput where
  tenantId := "t"
  credentialId := "c"
  sourceRef := "vault://c"
  generation := generation
  audiences := ["a"]
  expiresAt := none
  issuedAt := sampleTime
  rotateAfter := none
  key :=
    { provider := "p"
      keyId := "k"
      version := "1"
      customerManaged := false }
  materialLineageId := material
  materialLineageKeyId := "k"
  envelope :=
    { schemaVersion := 1
      algorithm := "AES-256-GCM"
      wrappedDataKey := "w"
      iv := "i"
      authTag := "g"
      ciphertext := material
      createdAt := sampleTime
      keyAttestationSha256 := firstMaterial }

def sampleOptions : MutationOptions where
  operation := none
  audit := fun _ => .ok ⟨⟩
  authorizeCommit := .ok ⟨⟩

def sampleRotate (generation : Nat) (material : String)
    (lineages : List String) : Call :=
  .rotate
    { expectedGeneration := generation
      rotatedAt := sampleTime
      next := sampleInput (generation + 1) material }
    sampleOptions
    (some (lineages.map fun lineage =>
      { keyId := "k", lineageId := lineage }))

/-- Back to the first material, with a lineage of another one in the list. -/
def sampleRotations : List Call :=
  [.create (sampleInput 1 firstMaterial) sampleOptions,
    sampleRotate 1 secondMaterial [secondMaterial],
    sampleRotate 2 firstMaterial [secondMaterial, firstMaterial]]

def sampleRevocation : Call :=
  .revoke
    { tenantId := "t"
      credentialId := "c"
      generation := 3
      revokedAt := sampleTime
      reason := "leaked" }
    sampleOptions fun _ => .ok ⟨⟩

/-! ## All runs -/

/--
From empty tables, and with truthful callers, generations are numbered, only
the newest is active, revoked versions stay as they are, failing calls change
nothing, and a revoked material is neither active nor retired then or later.
-/
theorem lifecycle_kept {M : Type u} (materialOf : Envelope → M)
    (lineageOf : String → M → String)
    (injective : ∀ keyId, Function.Injective (lineageOf keyId))
    (start : SecretDb) (blank : Blank start) (calls : List Call)
    (truthful : Along Call.next (TruthfulCall materialOf lineageOf) start
      calls) :
    Kept materialOf start calls where
  lawful first rest same := by
    rw [same, along_append] at truthful
    have invariant : Numbered (run Call.next start first) ∧
        Labelled materialOf lineageOf (run Call.next start first) :=
      @run_along_invariant _ _ Call.next (TruthfulCall materialOf lineageOf)
        (fun db => Numbered db ∧ Labelled materialOf lineageOf db)
        (fun _ call holds isTruthful => ⟨holds.1.next call,
          holds.2.next injective holds.1 isTruthful⟩)
        start ⟨blank.numbered, blank.labelled⟩ first truthful.1
    exact ⟨invariant.1, fun row inside other within =>
      invariant.1.oneActive inside within, invariant.2.buried⟩
  frozen first rest same := by
    rw [same, run_append]
    exact frozen_run _ rest
  failed first call rest failure after _ failed :=
    call.undoes _ failure after failed

theorem lifecycle_sample :
    Kept sampleMaterial emptyDb
      [.create (sampleInput 1 firstMaterial) sampleOptions] :=
  lifecycle_kept sampleMaterial sampleLineage sampleLineage_injective
    emptyDb rfl _ ⟨rfl, trivial⟩

/--
With a lineage of another material in the list the first material gets a new
label, and its revocation does not reach the retired version.
-/
theorem foreign_candidate_splits_lineage :
    (∀ keyId, Function.Injective (sampleLineage keyId)) ∧
      Along Call.next (SupplyingCall sampleMaterial sampleLineage) emptyDb
        (sampleRotations ++ [sampleRevocation]) ∧
      ¬ Lawful sampleMaterial
        (run Call.next emptyDb (sampleRotations ++ [sampleRevocation])) := by
  refine ⟨sampleLineage_injective, ?_, fun lawful => ?_⟩
  · refine ⟨rfl, ⟨rfl, ?_⟩, ⟨rfl, ?_⟩, trivial, trivial⟩
    · decide +kernel
    · decide +kernel
  · have split_ : ∃ row ∈ (run Call.next emptyDb
          (sampleRotations ++ [sampleRevocation])).versions,
        ∃ other ∈ (run Call.next emptyDb
          (sampleRotations ++ [sampleRevocation])).versions,
        (other.isOf row.tenantId row.credentialId = true ∧
          row.envelope.ciphertext = other.envelope.ciphertext) ∧
        row.state = .revoked ∧ other.state ≠ .revoked := by
      decide +kernel
    rcases split_ with ⟨row, inside, other, within, same, revoked, valid⟩
    exact valid (lawful.buried row inside other within same revoked)

end Mendpoint.Secrets
