import Mathlib.Data.List.MinMax
import Mendpoint.Library.Attempt
import Mendpoint.Library.Fallible
import Mendpoint.Library.IsoTime
import Mendpoint.Library.TextOrder
import Mendpoint.Library.Numbers
import Mendpoint.Library.Table

/-!
# Versions of secrets

The generations of a credential, each with an encrypted envelope and with the
lineage of the material in it.  A version is active, then retired or revoked.
-/

namespace Mendpoint.Secrets

open Mendpoint.Library
open Mendpoint.Library.Attempt
open Mendpoint.Library.Fallible

/-! ## Rows -/

structure KeyReference where
  provider : String
  keyId : String
  version : String
  customerManaged : Bool

structure Envelope where
  schemaVersion : Nat
  algorithm : String
  wrappedDataKey : String
  iv : String
  authTag : String
  ciphertext : String
  createdAt : String
  keyAttestationSha256 : String

/-- A new version; generations which are not natural numbers are refused. -/
structure SecretLifecycleInput where
  tenantId : String
  credentialId : String
  sourceRef : String
  generation : Nat
  audiences : List String
  expiresAt : Option String
  issuedAt : String
  rotateAfter : Option String
  key : KeyReference
  materialLineageId : String
  materialLineageKeyId : String
  envelope : Envelope

inductive SecretState where
  | active
  | retired
  | revoked
  deriving DecidableEq

/-- A row of a version; older rows may lack their lineage. -/
structure SecretLifecycleVersionRow where
  tenantId : String
  credentialId : String
  sourceRef : String
  generation : Nat
  state : SecretState
  audiences : List String
  expiresAt : Option String
  issuedAt : String
  rotateAfter : Option String
  retiredAt : Option String
  revokedAt : Option String
  revocationReason : Option String
  key : KeyReference
  materialLineageId : Option String
  materialLineageKeyId : Option String
  envelope : Envelope

/-- Who asks for what, once. -/
structure OperationIdentity where
  idempotencyKey : String
  requestDigest : String
  requestCommitmentKeyId : String
  actorId : String

/-- A completed operation, and the version which it is about. -/
structure OperationRow where
  tenantId : String
  identity : OperationIdentity
  credentialId : String
  generation : Nat
  completedAt : String

inductive OperationKind where
  | create
  | rotate
  deriving DecidableEq

structure LifecycleOperationRow extends OperationRow where
  operation : OperationKind

namespace SecretLifecycleVersionRow

/-- The row is a version of a credential. -/
def isOf (tenantId credentialId : String)
    (row : SecretLifecycleVersionRow) : Bool :=
  decide (row.tenantId = tenantId ∧ row.credentialId = credentialId)

/-- The primary key of a version. -/
def primaryKey (row : SecretLifecycleVersionRow) : String × String × Nat :=
  (row.tenantId, row.credentialId, row.generation)

def isActive (row : SecretLifecycleVersionRow) : Bool :=
  decide (row.state = .active)

end SecretLifecycleVersionRow

/-- The tables of the lifecycle. -/
structure SecretDb where
  versions : List SecretLifecycleVersionRow
  operations : List LifecycleOperationRow
  rewraps : List OperationRow
  revokes : List OperationRow
  versionKeys :
    (versions.map SecretLifecycleVersionRow.primaryKey).Nodup

namespace SecretDb

/-- The versions of a credential, in the order of their insertion. -/
def versionsOf (db : SecretDb) (tenantId credentialId : String) :
    List SecretLifecycleVersionRow :=
  db.versions.filter (SecretLifecycleVersionRow.isOf tenantId credentialId)

/-- The version of a generation. -/
def version? (db : SecretDb) (tenantId credentialId : String)
    (generation : Nat) : Option SecretLifecycleVersionRow :=
  db.versions.find? fun row =>
    row.isOf tenantId credentialId && decide (row.generation = generation)

def updateVersions (db : SecretDb)
    (selected : SecretLifecycleVersionRow → Bool)
    (change : SecretLifecycleVersionRow → SecretLifecycleVersionRow)
    (kept : ∀ row, (change row).primaryKey = row.primaryKey) : SecretDb :=
  { db with
    versions := Table.update selected change db.versions
    versionKeys := by
      rw [Table.map_key_update kept]
      exact db.versionKeys }

def insertRow (db : SecretDb) (row : SecretLifecycleVersionRow)
    (fresh : ∀ other ∈ db.versions, other.primaryKey ≠ row.primaryKey) :
    SecretDb :=
  { db with
    versions := db.versions ++ [row]
    versionKeys := by
      rw [List.map_append, List.map_singleton, ← List.concat_eq_append,
        List.nodup_concat]
      refine ⟨fun member => ?_, db.versionKeys⟩
      rcases List.mem_map.mp member with ⟨other, inside, same⟩
      exact fresh other inside same }

end SecretDb

/-! ## Validation -/

/-- A letter or a digit, and at most 255 characters of identifiers. -/
def isId (text : String) : Bool :=
  Pattern.isName ['.', '_', ':', '/', '-'] 255 text

/-- Sixty-four hexadecimal digits. -/
def isSha256 (text : String) : Bool :=
  Pattern.isHexText 64 text.toList

/-- A small letter, and characters of schemes. -/
def isScheme : List Char → Bool
  | [] => false
  | first :: rest =>
    decide ('a' ≤ first ∧ first ≤ 'z') &&
      rest.all fun char =>
        decide ('a' ≤ char ∧ char ≤ 'z') || char.isDigit ||
          decide (char ∈ ['+', '.', '-'])

/-- A scheme, a colon with two slashes, and a locator. -/
def isSecretRef (text : String) : Bool :=
  match text.toList.span fun char => decide (char ≠ ':') with
  | (scheme, ':' :: '/' :: '/' :: rest) =>
    isScheme scheme && decide (rest ≠ []) && rest.all fun char =>
      Pattern.isAlphanumeric char ||
        decide (char ∈ ['.', '_', '/', '@', ':', '-'])
  | _ => false

/-- The length of a text in code units. -/
def width (text : String) : Nat :=
  (Text.codeUnits text).length

def validTimestamp (name value : String) : Except String PUnit :=
  throwIf (64 < width value ∨ IsoTime.Instant.parse? value = none)
    (name ++ "_invalid")

def validOptional (name : String) : Option String → Except String PUnit
  | none => .ok ⟨⟩
  | some value => validTimestamp name value

/-- A text which is there, of a number of code units at most. -/
def within (most : Nat) (text : String) : Bool :=
  decide (text ≠ "" ∧ width text ≤ most)

def Envelope.isValid (envelope : Envelope) : Bool :=
  decide (envelope.schemaVersion = 1) &&
    decide (envelope.algorithm = "AES-256-GCM") &&
    within 16384 envelope.wrappedDataKey && within 512 envelope.iv &&
    within 512 envelope.authTag && within 1500000 envelope.ciphertext &&
    isSha256 envelope.keyAttestationSha256

def validateInput (input : SecretLifecycleInput) : Except String PUnit := do
  throwIf (isId input.tenantId = false) "secret_tenant_invalid"
  throwIf (isId input.credentialId = false) "secret_credential_id_invalid"
  throwIf (512 < width input.sourceRef ∨
      isSecretRef input.sourceRef = false)
    "secret_source_reference_invalid"
  throwIf (SafeInteger.maxSafe < input.generation ∨ input.generation < 1)
    "secret_generation_invalid"
  throwIf (input.audiences.length < 1 ∨ 64 < input.audiences.length ∨
      (∃ audience ∈ input.audiences, isId audience = false) ∨
      ¬ input.audiences.Nodup)
    "secret_audiences_invalid"
  validTimestamp "secret_issued_at" input.issuedAt
  validOptional "secret_expires_at" input.expiresAt
  validOptional "secret_rotate_after" input.rotateAfter
  validTimestamp "secret_envelope_created_at" input.envelope.createdAt
  throwIf (isId input.key.provider = false ∨ isId input.key.keyId = false ∨
      isId input.key.version = false)
    "secret_key_reference_invalid"
  throwIf (isSha256 input.materialLineageId = false)
    "secret_material_lineage_invalid"
  throwIf (isId input.materialLineageKeyId = false)
    "secret_material_lineage_key_id_invalid"
  throwIf (input.envelope.isValid = false) "secret_envelope_invalid"

def validateOperation (operation : OperationIdentity) :
    Except String PUnit := do
  throwIf (isId operation.idempotencyKey = false)
    "secret_lifecycle_idempotency_key_invalid"
  throwIf (isSha256 operation.requestDigest = false)
    "secret_lifecycle_request_digest_invalid"
  throwIf (isId operation.requestCommitmentKeyId = false)
    "secret_lifecycle_commitment_key_id_invalid"
  throwIf (isId operation.actorId = false) "secret_lifecycle_actor_invalid"

/-! ## Operations and replays -/

/-- The hooks of a call: either of them may refuse the commit. -/
structure MutationOptions where
  operation : Option OperationIdentity
  audit : SecretLifecycleVersionRow → Except String PUnit
  authorizeCommit : Except String PUnit

/-- The operation of a tenant under an idempotency key. -/
def OperationRow.isFor (tenantId idempotencyKey : String)
    (row : OperationRow) : Bool :=
  decide (row.tenantId = tenantId ∧
    row.identity.idempotencyKey = idempotencyKey)

/-- A completed operation is the one which a call asks for again. -/
def OperationRow.Same (operation : OperationIdentity)
    (credentialId : String) (generation : Nat) (row : OperationRow) : Prop :=
  row.identity.requestDigest = operation.requestDigest ∧
    row.identity.requestCommitmentKeyId =
      operation.requestCommitmentKeyId ∧
    row.identity.actorId = operation.actorId ∧
    row.credentialId = credentialId ∧ row.generation = generation

instance (operation : OperationIdentity) (credentialId : String)
    (generation : Nat) (row : OperationRow) :
    Decidable (row.Same operation credentialId generation) :=
  inferInstanceAs (Decidable (_ ∧ _ ∧ _ ∧ _ ∧ _))

/-- The version which an operation has been about. -/
def replayedVersion (db : SecretDb) (row : OperationRow) :
    Except String SecretLifecycleVersionRow :=
  demand (db.version? row.tenantId row.credentialId row.generation)
    "secret_lifecycle_idempotency_corrupt"

/-- The version of a replayed create or rotation, if it is one. -/
def replayedOperation (db : SecretDb) (input : SecretLifecycleInput)
    (kind : OperationKind) :
    Option OperationIdentity →
      Except String (Option SecretLifecycleVersionRow)
  | none => .ok none
  | some operation => do
      validateOperation operation
      match db.operations.find? fun row =>
          row.isFor input.tenantId operation.idempotencyKey with
      | none => return none
      | some existing =>
        throwIf (existing.operation ≠ kind ∨
            ¬ existing.Same operation input.credentialId input.generation)
          "secret_lifecycle_idempotency_conflict"
        let row ← replayedVersion db existing.toOperationRow
        return some row

/-- The row of an operation which has been about a version. -/
def OperationIdentity.row (identity : OperationIdentity)
    (input : SecretLifecycleInput) : OperationRow where
  tenantId := input.tenantId
  identity := identity
  credentialId := input.credentialId
  generation := input.generation
  completedAt := input.issuedAt

def completeOperation (input : SecretLifecycleInput) (kind : OperationKind) :
    Option OperationIdentity → Attempt SecretDb String PUnit
  | none => pure ⟨⟩
  | some identity =>
    modify fun db =>
      { db with
        operations := db.operations ++
          [{ toOperationRow := identity.row input, operation := kind }] }

/-! ## Inserting a version -/

/-- The row of a new version, which is active. -/
def SecretLifecycleInput.row (input : SecretLifecycleInput) :
    SecretLifecycleVersionRow where
  tenantId := input.tenantId
  credentialId := input.credentialId
  sourceRef := input.sourceRef
  generation := input.generation
  state := .active
  audiences := input.audiences
  expiresAt := input.expiresAt
  issuedAt := input.issuedAt
  rotateAfter := input.rotateAfter
  retiredAt := none
  revokedAt := none
  revocationReason := none
  key := input.key
  materialLineageId := some input.materialLineageId
  materialLineageKeyId := some input.materialLineageKeyId
  envelope := input.envelope

/-- Another row which the unique indexes do not allow beside a new one. -/
def SecretLifecycleVersionRow.Excludes
    (row other : SecretLifecycleVersionRow) : Prop :=
  other.tenantId = row.tenantId ∧
    ((other.sourceRef = row.sourceRef ∧
        other.generation = row.generation) ∨
      (other.state = .active ∧
        (other.credentialId = row.credentialId ∨
          other.sourceRef = row.sourceRef)))

instance (row other : SecretLifecycleVersionRow) :
    Decidable (row.Excludes other) :=
  inferInstanceAs (Decidable (_ ∧ _))

def insertVersion (input : SecretLifecycleInput) :
    Attempt SecretDb String SecretLifecycleVersionRow := do
  let db ← get
  match found : db.versions.find? fun other =>
      decide (other.primaryKey = input.row.primaryKey) with
  | some _ => throw "UNIQUE constraint failed: secret_lifecycle_versions"
  | none =>
    throwIf (∃ other ∈ db.versions, input.row.Excludes other)
      "UNIQUE constraint failed: secret_lifecycle_versions"
    set (db.insertRow input.row fun other member same =>
      List.find?_eq_none.mp found other member (decide_eq_true same))
    return input.row

/-! ## The calls -/

def createSecretLifecycle (input : SecretLifecycleInput)
    (options : MutationOptions) :
    Attempt SecretDb String SecretLifecycleVersionRow := do
  validateInput input
  throwIf (input.generation ≠ 1) "secret_initial_generation_invalid"
  transaction do
    let db ← get
    match ← replayedOperation db input .create options.operation with
    | some replay =>
      options.authorizeCommit
      return replay
    | none =>
      let row ← insertVersion input
      options.audit row
      completeOperation input .create options.operation
      options.authorizeCommit
      return row

/-- What the lineage of a material is under a key. -/
structure LineageCandidate where
  keyId : String
  lineageId : String

structure RotateInput where
  expectedGeneration : Nat
  rotatedAt : String
  next : SecretLifecycleInput

/-- The candidates of a call, or the lineage of the new version alone. -/
def RotateInput.candidates (input : RotateInput) :
    Option (List LineageCandidate) → List LineageCandidate
  | some candidates => candidates
  | none =>
    [{ keyId := input.next.materialLineageKeyId
       lineageId := input.next.materialLineageId }]

/-- A version of the credential has the lineage of a candidate. -/
def SecretLifecycleVersionRow.matches (next : SecretLifecycleInput)
    (candidate : LineageCandidate) (row : SecretLifecycleVersionRow) :
    Bool :=
  row.isOf next.tenantId next.credentialId &&
    decide (row.materialLineageId = some candidate.lineageId) &&
    (decide (row.materialLineageKeyId = some candidate.keyId) ||
      decide (row.materialLineageKeyId = none))

/-- The first version of a lineage, those which are revoked in front. -/
def matching (db : SecretDb) (next : SecretLifecycleInput)
    (candidate : LineageCandidate) : Option SecretLifecycleVersionRow :=
  let rows := db.versions.filter
    (SecretLifecycleVersionRow.matches next candidate)
  ((rows.filter fun row => decide (row.state = .revoked)).argmin
      SecretLifecycleVersionRow.generation) <|>
    rows.argmin SecretLifecycleVersionRow.generation

/-- The lineage which the credential has for the material already. -/
def retainLineage (db : SecretDb) (next : SecretLifecycleInput) :
    List LineageCandidate → Option LineageCandidate →
      Except String (Option LineageCandidate)
  | [], retained => .ok retained
  | candidate :: rest, retained =>
    match matching db next candidate with
    | none => retainLineage db next rest retained
    | some row =>
      if row.state = .revoked then
        .error "secret_material_lineage_revoked"
      else
        retainLineage db next rest (retained <|> some
          { keyId := row.materialLineageKeyId.getD candidate.keyId
            lineageId :=
              row.materialLineageId.getD candidate.lineageId })

/-- The new version, under the lineage which is retained. -/
def SecretLifecycleInput.relabel (input : SecretLifecycleInput) :
    Option LineageCandidate → SecretLifecycleInput
  | none => input
  | some retained =>
    { input with
      materialLineageId := retained.lineageId
      materialLineageKeyId := retained.keyId }

/-- The row of a version which another one replaces. -/
def SecretLifecycleVersionRow.retire (rotatedAt : String)
    (row : SecretLifecycleVersionRow) : SecretLifecycleVersionRow :=
  { row with
    state := .retired
    retiredAt := some rotatedAt }

/-- The checks of a rotation, and the version which it inserts. -/
def rotation (db : SecretDb) (input : RotateInput)
    (lineages : Option (List LineageCandidate)) :
    Except String (SecretLifecycleVersionRow × SecretLifecycleInput) := do
  let current ← demand
    (db.versions.find? fun row =>
      row.isOf input.next.tenantId input.next.credentialId && row.isActive)
    "secret_rotation_generation_conflict"
  throwIf (current.generation ≠ input.expectedGeneration)
    "secret_rotation_generation_conflict"
  throwIf (input.next.generation ≠ current.generation + 1 ∨
      input.next.sourceRef ≠ current.sourceRef)
    "secret_rotation_target_invalid"
  let candidates := input.candidates lineages
  throwIf (candidates = [] ∨ ∃ candidate ∈ candidates,
      isId candidate.keyId = false ∨ isSha256 candidate.lineageId = false)
    "secret_material_lineage_invalid"
  let retained ← retainLineage db input.next candidates none
  return (current, input.next.relabel retained)

def rotateSecretLifecycle (input : RotateInput) (options : MutationOptions)
    (lineages : Option (List LineageCandidate)) :
    Attempt SecretDb String SecretLifecycleVersionRow := do
  validateInput input.next
  validTimestamp "secret_rotated_at" input.rotatedAt
  transaction do
    let db ← get
    match ← replayedOperation db input.next .rotate options.operation with
    | some replay =>
      options.authorizeCommit
      return replay
    | none =>
      let (current, next) ← rotation db input lineages
      set (db.updateVersions
        (fun row => row.isOf current.tenantId current.credentialId &&
          decide (row.generation = current.generation) && row.isActive)
        (SecretLifecycleVersionRow.retire input.rotatedAt) fun _ => rfl)
      let row ← insertVersion next
      options.audit row
      completeOperation input.next .rotate options.operation
      options.authorizeCommit
      return row

def rewrapSecretLifecycle (input : RotateInput)
    (identity : OperationIdentity) (options : MutationOptions)
    (lineages : Option (List LineageCandidate)) :
    Attempt SecretDb String SecretLifecycleVersionRow := do
  validateOperation identity
  transaction do
    let db ← get
    match db.rewraps.find?
        (OperationRow.isFor input.next.tenantId identity.idempotencyKey) with
    | some existing =>
      throwIf
        (¬ existing.Same identity input.next.credentialId
          input.next.generation)
        "secret_lifecycle_idempotency_conflict"
      let replay ← replayedVersion db existing
      options.authorizeCommit
      return replay
    | none =>
      let row ← rotateSecretLifecycle input
        { options with operation := none, authorizeCommit := .ok ⟨⟩ }
        lineages
      modify fun rotated =>
        { rotated with
          rewraps := rotated.rewraps ++ [identity.row input.next] }
      options.authorizeCommit
      return row

structure RevokeInput where
  tenantId : String
  credentialId : String
  generation : Nat
  revokedAt : String
  reason : String

/-- A version to which the revocation of another one spreads. -/
def SecretLifecycleVersionRow.shares (existing row : SecretLifecycleVersionRow) :
    Bool :=
  row.isOf existing.tenantId existing.credentialId &&
    decide (row.state ≠ .revoked) &&
    match existing.materialLineageId with
    | none => true
    | some lineage =>
      decide (row.materialLineageId = some lineage) &&
        (decide (existing.materialLineageKeyId = none) ||
          decide (row.materialLineageKeyId =
            existing.materialLineageKeyId) ||
          decide (row.materialLineageKeyId = none))

def SecretLifecycleVersionRow.revoke (input : RevokeInput)
    (row : SecretLifecycleVersionRow) : SecretLifecycleVersionRow :=
  { row with
    state := .revoked
    revokedAt := some input.revokedAt
    revocationReason := some (Text.trim input.reason) }

/-- The version of a replayed revocation, if it is one. -/
def replayedRevocation (db : SecretDb) (input : RevokeInput) :
    Option OperationIdentity →
      Except String (Option SecretLifecycleVersionRow)
  | none => .ok none
  | some operation => do
      validateOperation operation
      match db.revokes.find?
          (OperationRow.isFor input.tenantId operation.idempotencyKey) with
      | none => return none
      | some existing =>
        throwIf
          (¬ existing.Same operation input.credentialId input.generation)
          "secret_lifecycle_idempotency_conflict"
        let row ← replayedVersion db existing
        return some row

def completeRevocation (input : RevokeInput) :
    Option OperationIdentity → Attempt SecretDb String PUnit
  | none => pure ⟨⟩
  | some identity =>
    modify fun db =>
      { db with
        revokes := db.revokes ++
          [{ tenantId := input.tenantId
             identity := identity
             credentialId := input.credentialId
             generation := input.generation
             completedAt := input.revokedAt }] }

def revokeSecretLifecycle (input : RevokeInput) (options : MutationOptions)
    (replayAudit : SecretLifecycleVersionRow → Except String PUnit) :
    Attempt SecretDb String SecretLifecycleVersionRow := do
  validTimestamp "secret_revoked_at" input.revokedAt
  throwIf (Text.trim input.reason = "") "secret_revocation_reason_required"
  throwIf (4096 < width input.reason) "secret_revocation_reason_invalid"
  transaction do
    let db ← get
    match ← replayedRevocation db input options.operation with
    | some replay =>
      replayAudit replay
      options.authorizeCommit
      return replay
    | none =>
      let existing ← demand
        (db.version? input.tenantId input.credentialId input.generation)
        "secret_lifecycle_version_not_found"
      throwIf (existing.state = .revoked)
        "secret_lifecycle_already_revoked"
      set (db.updateVersions existing.shares
        (SecretLifecycleVersionRow.revoke input) fun _ => rfl)
      let row := existing.revoke input
      options.audit row
      completeRevocation input options.operation
      options.authorizeCommit
      return row

end Mendpoint.Secrets
