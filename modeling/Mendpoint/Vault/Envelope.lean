import Mendpoint.Library.Fallible
import Mendpoint.Library.JsonText
import Mendpoint.Library.OrderedMap
import Mendpoint.Library.TextOrder
import Mendpoint.Library.Numbers

/-!
# Sealed secrets

A vault seals a secret under a fresh data key, which a provider wraps under a
key of the tenant.  A registry keeps the lifecycle of the keys.  The calls of
the vault are given up to the point from which they wait for others, and from
there on.
-/

namespace Mendpoint.Vault

open Mendpoint.Library
open Mendpoint.Library.Fallible

/-! ## Keys -/

structure EnvelopeKeyReference where
  provider : String
  keyId : String
  version : String
  customerManaged : Bool
  deriving DecidableEq

structure EnvelopeKeyLocator where
  provider : String
  keyId : String
  version : String

namespace EnvelopeKeyReference

def locator (key : EnvelopeKeyReference) : EnvelopeKeyLocator where
  provider := key.provider
  keyId := key.keyId
  version := key.version

def managedText (key : EnvelopeKeyReference) : String :=
  if key.customerManaged then "1" else "0"

end EnvelopeKeyReference

structure EnvelopeKeyAttestation extends EnvelopeKeyReference where
  attestation : String
  keyMaterialFingerprint : Option String
  attestationSha256 : String

inductive EnvelopeKeyState where
  | active
  | retired
  | revoked
  deriving DecidableEq

namespace EnvelopeKeyState

def text : EnvelopeKeyState → String
  | active => "active"
  | retired => "retired"
  | revoked => "revoked"

/-- The place of a state in the life of a key. -/
def age : EnvelopeKeyState → Nat
  | active => 0
  | retired => 1
  | revoked => 2

end EnvelopeKeyState

/-- The life of a key; a generation which is no whole number is refused. -/
structure EnvelopeKeyLifecycle where
  tenantId : String
  key : EnvelopeKeyReference
  generation : Int
  state : EnvelopeKeyState
  createdAt : String
  rotatedAt : Option String
  revokedAt : Option String
  revocationReason : Option String

structure SecretAccessContext where
  tenantId : String
  actorId : String
  correlationId : String
  purpose : String
  «at» : String

/-- What a cipher writes. -/
structure Sealed where
  iv : String
  authTag : String
  ciphertext : String

/-- A sealed secret; its schema version and its algorithm are constants. -/
structure EnvelopeSecret extends Sealed where
  tenantId : String
  secretId : String
  generation : Int
  key : EnvelopeKeyReference
  keyAttestationSha256 : String
  wrappedDataKey : String
  createdAt : String

inductive Operation where
  | encrypt
  | decrypt
  | rotate

inductive AccessOutcome where
  | granted
  | denied

structure EnvelopeAccessAuditEvent where
  tenantId : String
  secretId : String
  actorId : String
  correlationId : String
  purpose : String
  operation : Operation
  outcome : AccessOutcome
  reason : String
  key : EnvelopeKeyReference
  occurredAt : String

/-! ## What a vault is built over -/

/-- A provider of keys; `δ` are data keys and `ν` what is drawn at random. -/
structure KeyEncryptionKeyProvider (δ ν : Type) where
  provider : String
  enabled : Bool
  attestKey : EnvelopeKeyLocator → String →
    Except String EnvelopeKeyAttestation
  wrapDataKey : EnvelopeKeyReference → String → δ → ν →
    Except String String
  unwrapDataKey : EnvelopeKeyReference → String → String →
    Except String δ

structure Environment (δ ν : Type) where
  sha256 : String → String
  /-- `Number.isFinite(Date.parse(text))` -/
  isTime : String → Bool
  providers : List (KeyEncryptionKeyProvider δ ν)
  /-- The cipher: data key, vector, associated data and plaintext. -/
  encipher : δ → ν → String → String → Sealed
  decipher : δ → String → Sealed → Option String

/-- What one sealing draws at random. -/
structure Draw (δ ν : Type) where
  dataKey : δ
  iv : ν
  wrapping : ν

/-! ## Checks -/

/-- A letter or a digit, and at most 255 characters of identifiers. -/
def isIdentifier (text : String) : Bool :=
  Pattern.isName ['.', '_', ':', '/', '-'] 255 text

def isSha256 (text : String) : Bool :=
  Pattern.isHexText 64 text.toList

def keyIdentity (tenantId : String) (key : EnvelopeKeyReference) : String :=
  Text.join (String.ofList ['\x00'])
    [tenantId, key.provider, key.keyId, key.version, key.managedText]

def envelopeAad (tenantId secretId : String) (generation : Int)
    (key : EnvelopeKeyReference) (keyAttestationSha256 : String) : String :=
  Text.join (String.ofList ['\x00'])
    [tenantId, secretId, toString generation, key.provider, key.keyId,
      key.version, key.managedText, keyAttestationSha256]

/-- The fields of an attestation which every digest covers. -/
def authorityFields (input : EnvelopeKeyAttestation) :
    List (String × Written) :=
  [("provider", .str input.provider), ("keyId", .str input.keyId),
    ("version", .str input.version),
    ("customerManaged", .bool input.customerManaged),
    ("attestation", .str input.attestation)]

/-- The digest of an attestation, with the fingerprint of a customer's key. -/
def attestationDigest (sha256 : String → String)
    (input : EnvelopeKeyAttestation) : Except String String :=
  if input.customerManaged then
    match input.keyMaterialFingerprint with
    | some fingerprint =>
      if isSha256 fingerprint then
        .ok (sha256 (Written.stringify (.obj (authorityFields input ++
          [("authorityVersion", .int 2),
            ("keyMaterialFingerprint", .str fingerprint)]))))
      else .error "vault_key_attestation_mismatch"
    | none => .error "vault_key_attestation_mismatch"
  else .ok (sha256 (Written.stringify (.obj (authorityFields input))))

section Calls

variable {δ ν : Type}

def assertProviderAttestation (env : Environment δ ν)
    (provider : KeyEncryptionKeyProvider δ ν) (tenantId : String)
    (key : EnvelopeKeyReference) : Except String EnvelopeKeyAttestation := do
  let attested ← provider.attestKey key.locator tenantId
  throwIf (attested.toEnvelopeKeyReference ≠ key)
    "vault_key_attestation_mismatch"
  let digest ← attestationDigest env.sha256 attested
  throwIf (attested.attestationSha256 ≠ digest)
    "vault_key_attestation_mismatch"
  return attested

def validContext (env : Environment δ ν) (context : SecretAccessContext) :
    Except String Unit := do
  throwIf (isIdentifier context.tenantId = false) "vault_tenant_invalid"
  throwIf (isIdentifier context.actorId = false) "vault_actor_invalid"
  throwIf (isIdentifier context.correlationId = false)
    "vault_correlation_invalid"
  throwIf (Text.trim context.purpose = "") "vault_purpose_required"
  throwIf (env.isTime context.«at» = false) "vault_access_time_invalid"

def validKey (key : EnvelopeKeyReference) : Except String Unit :=
  throwIf (isIdentifier key.provider = false ∨
      isIdentifier key.keyId = false ∨ isIdentifier key.version = false)
    "vault_key_reference_invalid"

/-! ## The registry of keys -/

/-- The lifecycles of the keys by their identities. -/
abbrev EnvelopeKeyLifecycleRegistry :=
  OrderedMap String EnvelopeKeyLifecycle

namespace EnvelopeKeyLifecycleRegistry

def register (env : Environment δ ν) (keys : EnvelopeKeyLifecycleRegistry)
    (input : EnvelopeKeyLifecycle) :
    Except String EnvelopeKeyLifecycleRegistry := do
  validKey input.key
  throwIf (¬ SafeInteger.Safe input.generation ∨ input.generation < 1)
    "vault_key_generation_invalid"
  throwIf (env.isTime input.createdAt = false) "vault_key_created_at_invalid"
  throwIf (keys.has (keyIdentity input.tenantId input.key) = true)
    "vault_key_version_exists"
  return keys.set (keyIdentity input.tenantId input.key) input

def lifecycle? (keys : EnvelopeKeyLifecycleRegistry) (tenantId : String)
    (key : EnvelopeKeyReference) : Option EnvelopeKeyLifecycle :=
  keys.get? (keyIdentity tenantId key)

def assertEncryptable (keys : EnvelopeKeyLifecycleRegistry)
    (tenantId : String) (key : EnvelopeKeyReference) :
    Except String EnvelopeKeyLifecycle :=
  match keys.lifecycle? tenantId key with
  | none => .error "vault_key_not_registered"
  | some lifecycle =>
    if lifecycle.state ≠ .active then
      .error ("vault_key_not_active:" ++ lifecycle.state.text)
    else .ok lifecycle

def assertDecryptable (keys : EnvelopeKeyLifecycleRegistry)
    (tenantId : String) (key : EnvelopeKeyReference) :
    Except String EnvelopeKeyLifecycle :=
  match keys.lifecycle? tenantId key with
  | none => .error "vault_key_not_registered"
  | some lifecycle =>
    if lifecycle.state = .revoked then .error "vault_key_revoked"
    else .ok lifecycle

def assertRotation (env : Environment δ ν)
    (keys : EnvelopeKeyLifecycleRegistry) (tenantId : String)
    (current : EnvelopeKeyReference) (next : EnvelopeKeyLifecycle)
    (rotatedAt : String) : Except String EnvelopeKeyLifecycle := do
  let existing ← keys.assertEncryptable tenantId current
  validKey next.key
  throwIf (next.tenantId ≠ tenantId ∨ next.state ≠ .active)
    "vault_rotation_target_invalid"
  throwIf (next.generation ≠ existing.generation + 1)
    "vault_rotation_generation_invalid"
  throwIf (env.isTime next.createdAt = false) "vault_key_created_at_invalid"
  throwIf (env.isTime rotatedAt = false) "vault_rotation_time_invalid"
  throwIf (keys.lifecycle? tenantId next.key ≠ none)
    "vault_key_version_exists"
  return existing

def rotate (env : Environment δ ν) (keys : EnvelopeKeyLifecycleRegistry)
    (tenantId : String) (current : EnvelopeKeyReference)
    (next : EnvelopeKeyLifecycle) (rotatedAt : String) :
    Except String EnvelopeKeyLifecycleRegistry := do
  let existing ← keys.assertRotation env tenantId current next rotatedAt
  let registered ← keys.register env next
  return registered.set (keyIdentity tenantId current)
    { existing with state := .retired, rotatedAt := some rotatedAt }

def revoke (env : Environment δ ν) (keys : EnvelopeKeyLifecycleRegistry)
    (tenantId : String) (key : EnvelopeKeyReference)
    (revokedAt reason : String) :
    Except String EnvelopeKeyLifecycleRegistry :=
  match keys.lifecycle? tenantId key with
  | none => .error "vault_key_not_registered"
  | some existing =>
    if existing.state = .revoked then .ok keys
    else if env.isTime revokedAt = false ∨ Text.trim reason = "" then
      .error "vault_revocation_invalid"
    else .ok (keys.set (keyIdentity tenantId key)
      { existing with
        state := .revoked
        revokedAt := some revokedAt
        revocationReason := some reason })

end EnvelopeKeyLifecycleRegistry

/-! ## Sealing and opening -/

/-- How a call ends, with the events it hands to the audit. -/
structure Outcome (α : Type) where
  events : List EnvelopeAccessAuditEvent
  result : Except String α

/-- The provider of a name: of two with one name, the later one. -/
def provider? (env : Environment δ ν) (name : String) :
    Option (KeyEncryptionKeyProvider δ ν) :=
  (OrderedMap.ofList (env.providers.map fun provider =>
    (provider.provider, provider))).get? name

/-- The provider of a name, if it is enabled. -/
def enabledProvider (env : Environment δ ν) (name : String) :
    Except String (KeyEncryptionKeyProvider δ ν) :=
  match provider? env name with
  | none => .error "vault_provider_disabled"
  | some provider =>
    if provider.enabled then .ok provider
    else .error "vault_provider_disabled"

def event (secretId : String) (key : EnvelopeKeyReference)
    (context : SecretAccessContext) (operation : Operation)
    (outcome : AccessOutcome) (reason : String) :
    EnvelopeAccessAuditEvent where
  tenantId := context.tenantId
  secretId := secretId
  actorId := context.actorId
  correlationId := context.correlationId
  purpose := context.purpose
  operation := operation
  outcome := outcome
  reason := reason
  key := key
  occurredAt := context.«at»

/-- The envelope which a provider and the cipher make of a secret. -/
def sealUnder (env : Environment δ ν)
    (provider : KeyEncryptionKeyProvider δ ν) (secretId plaintext : String)
    (generation : Int) (key : EnvelopeKeyReference)
    (context : SecretAccessContext) (draw : Draw δ ν) :
    Except String EnvelopeSecret := do
  let attested ← assertProviderAttestation env provider context.tenantId key
  let wrappedDataKey ←
    provider.wrapDataKey key context.tenantId draw.dataKey draw.wrapping
  let aad := envelopeAad context.tenantId secretId generation key
    attested.attestationSha256
  return {
    toSealed := env.encipher draw.dataKey draw.iv aad plaintext
    tenantId := context.tenantId
    secretId := secretId
    generation := generation
    key := key
    keyAttestationSha256 := attested.attestationSha256
    wrappedDataKey := wrappedDataKey
    createdAt := context.«at» }

/-- `#encrypt` -/
def encryptUnder (env : Environment δ ν) (secretId plaintext : String)
    (generation : Int) (key : EnvelopeKeyReference)
    (context : SecretAccessContext) (operation : Operation)
    (draw : Draw δ ν) : Outcome EnvelopeSecret :=
  let denied := event secretId key context operation .denied
  match enabledProvider env key.provider with
  | .error failure => ⟨[denied failure], .error failure⟩
  | .ok provider =>
    match sealUnder env provider secretId plaintext generation key context
        draw with
    | .ok sealed =>
      ⟨[event secretId key context operation .granted "granted"],
        .ok sealed⟩
    | .error failure =>
      if failure = "vault_access_audit_failed" then
        ⟨[], .error failure⟩
      else
        ⟨[denied "vault_operation_failed"],
          .error "vault_operation_failed"⟩

/-- `encrypt`, which reads the registry before it first waits. -/
def encrypt (env : Environment δ ν) (keys : EnvelopeKeyLifecycleRegistry)
    (secretId plaintext : String) (key : EnvelopeKeyReference)
    (context : SecretAccessContext) (operation : Operation)
    (draw : Draw δ ν) : Outcome EnvelopeSecret :=
  let admitted : Except String EnvelopeKeyLifecycle := do
    validContext env context
    throwIf (Text.trim context.tenantId = "" ∨ isIdentifier secretId = false)
      "vault_secret_id_invalid"
    keys.assertEncryptable context.tenantId key
  match admitted with
  | .error failure => ⟨[], .error failure⟩
  | .ok lifecycle =>
    encryptUnder env secretId plaintext lifecycle.generation key context
      operation draw

/-- What opens an envelope, within the `try` of `decrypt`. -/
def openUnder (env : Environment δ ν) (keys : EnvelopeKeyLifecycleRegistry)
    (envelope : EnvelopeSecret) (context : SecretAccessContext) :
    Except String String := do
  let lifecycle ← keys.assertDecryptable context.tenantId envelope.key
  throwIf (¬ SafeInteger.Safe envelope.generation ∨
      envelope.generation < 1 ∨
      envelope.generation ≠ lifecycle.generation)
    "vault_secret_generation_invalid"
  let provider ← enabledProvider env envelope.key.provider
  throwIf (isSha256 envelope.keyAttestationSha256 = false)
    "vault_key_attestation_invalid"
  let attested ←
    assertProviderAttestation env provider context.tenantId envelope.key
  throwIf (attested.attestationSha256 ≠ envelope.keyAttestationSha256)
    "vault_key_attestation_drift"
  let dataKey ← provider.unwrapDataKey envelope.key context.tenantId
    envelope.wrappedDataKey
  let aad := envelopeAad context.tenantId envelope.secretId
    envelope.generation envelope.key envelope.keyAttestationSha256
  match env.decipher dataKey aad envelope.toSealed with
  | some plaintext => return plaintext
  | none => throw "vault_cipher_failed"

/-- `decrypt`, which reads the registry before it first waits. -/
def decrypt (env : Environment δ ν) (keys : EnvelopeKeyLifecycleRegistry)
    (envelope : EnvelopeSecret) (context : SecretAccessContext) :
    Outcome String :=
  let denied := event envelope.secretId envelope.key context .decrypt .denied
  match validContext env context with
  | .error failure => ⟨[], .error failure⟩
  | .ok _ =>
    if envelope.tenantId ≠ context.tenantId then
      ⟨[denied "tenant_mismatch"], .error "tenant_mismatch"⟩
    else
      match openUnder env keys envelope context with
      | .ok plaintext =>
        ⟨[event envelope.secretId envelope.key context .decrypt .granted
          "granted"], .ok plaintext⟩
      | .error failure =>
        if failure = "vault_access_audit_failed" then
          ⟨[], .error failure⟩
        else
          let reason :=
            if failure = "vault_key_revoked" then "vault_key_revoked"
            else "vault_decrypt_denied"
          ⟨[denied reason], .error reason⟩

end Calls

end Mendpoint.Vault
