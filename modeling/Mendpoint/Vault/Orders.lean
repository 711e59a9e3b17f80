import Mendpoint.Vault.Rotation

/-!
# Calls of a vault in any order

A revoked key stays revoked, what is sealed opens for its labels alone, and
keys are checked when a call begins to seal and when a rotation ends.  A secret
is moved from an active key only: one under a key which the rotation of another
secret has retired stays where it is.
-/

namespace Mendpoint.Vault

open Mendpoint.Library
open Mendpoint.Library.Fallible

variable {δ ν : Type}

/-! ## Rotations without other calls -/

section Alone

variable {env : Environment δ ν} {vault : EnvelopeSecretVault δ ν}

/-- The calls of a rotation which nothing interrupts. -/
def rotationActs (vault : EnvelopeSecretVault δ ν)
    (envelope : EnvelopeSecret) (next : EnvelopeKeyLifecycle)
    (context : SecretAccessContext) (draw : Draw δ ν) : List (Act δ ν) :=
  [.rotate envelope next context draw, .resume vault.pending.length,
    .resume vault.pending.length]

theorem pending_begin (call : Pending δ ν) :
    (vault.begin call).pending[vault.pending.length]? = some call :=
  List.getElem?_concat_length

theorem Sound.moves (sound : Sound env vault) (ideal : env.Ideal)
    {plaintext : String} {secret : EnvelopeSecret}
    {existing next : EnvelopeKeyLifecycle} {context : SecretAccessContext}
    {draw : Draw δ ν} (issued : vault.Issued plaintext secret)
    (found : vault.keys.lifecycle? secret.tenantId secret.key =
      some existing) (active : existing.state = .active)
    (valid : validContext env context = .ok ())
    (tenant : context.tenantId = secret.tenantId)
    (fresh : FreshVersion env vault.keys context.tenantId existing next
      draw) :
    ∃ moved, moved.tenantId = secret.tenantId ∧
      moved.secretId = secret.secretId ∧ moved.key = next.key ∧
      (vault.after env
        (rotationActs vault secret next context draw)).answers =
        vault.answers ++
          [.rotated secret next context (.ok (plaintext, moved))] := by
  have read := sound.decrypts ideal issued found
    (active ▸ by decide) (validContext_forRotation valid) tenant
  obtain ⟨provider, attested, wrapped, enabled, attests, wraps⟩ :=
    fresh.provided
  obtain ⟨moved, made⟩ := @exists_encryptUnder _ _ env secret.secretId
    plaintext next.generation next.key context .rotate draw provider attested
    wrapped enabled attests wraps
  obtain ⟨movedTenant, movedId, _, movedKey, _⟩ := ok_of_encryptUnder made
  have timed : env.isTime context.«at» = true := by
    simp only [validContext, bind_eq_ok, throwIf_eq_ok, exists_const,
      Bool.not_eq_false] at valid
    exact valid.2.2.2.2
  have admitted : vault.keys.assertRotation env context.tenantId secret.key
      next context.«at» = .ok existing := by
    rw [assertRotation_eq_ok, tenant]
    exact ⟨found, active, fresh.valid, tenant ▸ fresh.tenant, fresh.active,
      fresh.generation, fresh.created, timed, tenant ▸ fresh.fresh⟩
  have rotated : ∃ keys, vault.keys.rotate env context.tenantId secret.key
      next context.«at» = .ok keys := by
    have positive := (sound.whole _ _ found).2
    have whole : 1 ≤ next.generation := by
      rw [fresh.generation]
      omega
    have absent : vault.keys.has (keyIdentity next.tenantId next.key) ≠
        true := by
      rw [Ne, OrderedMap.has_iff, OrderedMap.not_mem_keys_iff, fresh.tenant]
      exact fresh.fresh
    simp only [EnvelopeKeyLifecycleRegistry.rotate,
      EnvelopeKeyLifecycleRegistry.register, bind_eq_ok, throwIf_eq_ok,
      exists_const, pure_eq_ok]
    refine ⟨_, existing, admitted, _, ⟨(), fresh.valid, ?_, ?_, absent, rfl⟩,
      rfl⟩
    · rw [not_or, not_not, not_lt]
      exact ⟨fresh.safe, whole⟩
    · rw [fresh.created]
      decide
  obtain ⟨keys, rotates⟩ := rotated
  refine ⟨moved, movedTenant.trans tenant, movedId, movedKey, ?_⟩
  let reading : Pending δ ν := .reading
    (decrypt env vault.keys secret context.forRotation) secret next context
    draw
  have middle := @resume_reading _ _ env (vault.begin reading) _ _ _ _ _ _ _
    _ (pending_begin reading) read admitted
  have waiting : ((vault.begin reading).resume env
      vault.pending.length).pending[vault.pending.length]? =
      some (.replacing plaintext (encryptUnder env secret.secretId plaintext
        next.generation next.key context .rotate draw) secret next
        context) := by
    rw [middle]
    refine List.getElem?_set_self ?_
    show _ < (vault.pending ++ [reading]).length
    rw [List.length_append, List.length_singleton]
    exact Nat.lt_succ_self _
  have kept : ((vault.begin reading).resume env
      vault.pending.length).keys = vault.keys := by
    rw [middle]
    rfl
  have last := resume_replacing waiting made (kept ▸ rotates)
  show (((vault.begin reading).resume env vault.pending.length).resume env
    vault.pending.length).answers = _
  rw [last, middle]
  rfl

theorem Sound.stays (sound : Sound env vault) (ideal : env.Ideal)
    {plaintext : String} {secret : EnvelopeSecret}
    {existing : EnvelopeKeyLifecycle} (next : EnvelopeKeyLifecycle)
    {context : SecretAccessContext} (draw : Draw δ ν)
    (issued : vault.Issued plaintext secret)
    (found : vault.keys.lifecycle? secret.tenantId secret.key =
      some existing) (retired : existing.state = .retired)
    (valid : validContext env context = .ok ())
    (tenant : context.tenantId = secret.tenantId) :
    (vault.after env [.rotate secret next context draw,
        .resume vault.pending.length]).answers =
      vault.answers ++ [.rotated secret next context
        (.error "vault_key_not_active:retired")] := by
  have read := sound.decrypts ideal issued found
    (retired ▸ by decide) (validContext_forRotation valid) tenant
  have refused : vault.keys.assertRotation env context.tenantId secret.key
      next context.«at» = .error "vault_key_not_active:retired" := by
    rw [EnvelopeKeyLifecycleRegistry.assertRotation,
      EnvelopeKeyLifecycleRegistry.assertEncryptable, tenant, found]
    dsimp only
    rw [retired]
    rfl
  let reading : Pending δ ν := .reading
    (decrypt env vault.keys secret context.forRotation) secret next context
    draw
  have last := @resume_refused _ _ env (vault.begin reading) _ _ _ _ _ _ _ _
    (pending_begin reading) read refused
  show ((vault.begin reading).resume env vault.pending.length).answers = _
  rw [last]
  rfl

end Alone

/-! ## What a vault keeps -/

/-- The end of a rotation from an active key to a fresh one. -/
def Replaces (vault later : EnvelopeSecretVault δ ν) : Prop :=
  ∃ envelope next context plaintext secret existing,
    later.answers = vault.answers ++
        [.rotated envelope next context (.ok (plaintext, secret))] ∧
      vault.keys.lifecycle? context.tenantId envelope.key = some existing ∧
      existing.state = .active ∧
      vault.keys.lifecycle? context.tenantId next.key = none ∧
      next.state = .active ∧
      later.keys.lifecycle? context.tenantId next.key = some next ∧
      later.keys.lifecycle? context.tenantId envelope.key =
        some { existing with
          state := .retired
          rotatedAt := some context.«at» }

/-- Only these change the registry; a failing rotation does not. -/
def Changes (vault later : EnvelopeSecretVault δ ν) : Act δ ν → Prop
  | .register _ => True
  | .revoke _ _ _ _ => True
  | .resume _ => Replaces vault later
  | _ => False

/-- What the life of the keys and the envelopes of a vault keeps to. -/
structure KeyLifecycleKept (env : Environment δ ν)
    (vault : EnvelopeSecretVault δ ν) : Prop where
  revokedForGood : ∀ identity lifecycle,
    vault.keys.get? identity = some lifecycle → lifecycle.state = .revoked →
    ∀ acts, ∃ later,
      (vault.after env acts).keys.get? identity = some later ∧
        later.state = .revoked
  unreadable : ∀ (envelope : EnvelopeSecret) lifecycle,
    vault.keys.lifecycle? envelope.tenantId envelope.key = some lifecycle →
    lifecycle.state = .revoked → ∀ acts context plaintext,
      (decrypt env (vault.after env acts).keys envelope context).result ≠
        .ok plaintext
  sealsUnderActive : ∀ secretId plaintext key context operation draw secret,
    (encrypt env vault.keys secretId plaintext key context operation
      draw).result = .ok secret →
    secret.key = key ∧ ∃ lifecycle,
      vault.keys.lifecycle? context.tenantId key = some lifecycle ∧
        lifecycle.state = .active
  sealsForActive : ∀ place opened envelope next context draw,
    vault.pending[place]? =
      some (.reading opened envelope next context draw) →
    (vault.resume env place).answers = vault.answers →
    ∃ existing,
      vault.keys.lifecycle? context.tenantId envelope.key = some existing ∧
        existing.state = .active ∧ next.state = .active ∧
        vault.keys.lifecycle? context.tenantId next.key = none
  changes : ∀ act, (step env vault act).keys = vault.keys ∨
    Changes vault (step env vault act) act
  opens : ∀ plaintext secret, vault.Issued plaintext secret →
    ∃ lifecycle,
      vault.keys.lifecycle? secret.tenantId secret.key = some lifecycle ∧
        (lifecycle.state ≠ .revoked → ∀ context,
          validContext env context = .ok () →
          context.tenantId = secret.tenantId →
          (decrypt env vault.keys secret context).result = .ok plaintext)
  bound : ∀ plaintext secret, vault.Issued plaintext secret →
    ∀ (other : EnvelopeSecret) context text,
      other.toSealed = secret.toSealed →
      (decrypt env vault.keys other context).result = .ok text →
      context.tenantId = secret.tenantId ∧ secret.SameLabels other ∧
        text = plaintext
  moves : ∀ plaintext (secret : EnvelopeSecret) existing next context draw,
    vault.Issued plaintext secret →
    vault.keys.lifecycle? secret.tenantId secret.key = some existing →
    existing.state = .active → validContext env context = .ok () →
    context.tenantId = secret.tenantId →
    FreshVersion env vault.keys context.tenantId existing next draw →
    ∃ moved, moved.tenantId = secret.tenantId ∧
      moved.secretId = secret.secretId ∧ moved.key = next.key ∧
      (vault.after env
        (rotationActs vault secret next context draw)).answers =
        vault.answers ++
          [.rotated secret next context (.ok (plaintext, moved))]
  stays : ∀ plaintext (secret : EnvelopeSecret) existing next context draw,
    vault.Issued plaintext secret →
    vault.keys.lifecycle? secret.tenantId secret.key = some existing →
    existing.state = .retired → validContext env context = .ok () →
    context.tenantId = secret.tenantId →
    (vault.after env [.rotate secret next context draw,
        .resume vault.pending.length]).answers =
      vault.answers ++ [.rotated secret next context
        (.error "vault_key_not_active:retired")]

section Kept

variable {env : Environment δ ν} (vault : EnvelopeSecretVault δ ν)

theorem revoked_after {identity : String} {lifecycle : EnvelopeKeyLifecycle}
    (found : vault.keys.get? identity = some lifecycle)
    (revoked : lifecycle.state = .revoked) (acts : List (Act δ ν)) :
    ∃ later, (vault.after env acts).keys.get? identity = some later ∧
      later.state = .revoked := by
  obtain ⟨later, foundLater, _, age⟩ :=
    @grows_after _ _ env vault acts identity lifecycle found
  exact ⟨later, foundLater, revoked_of_age_le (revoked ▸ age)⟩

theorem replaces_of_rotates {later : EnvelopeSecretVault δ ν}
    (rotates : Rotates env vault later) : Replaces vault later := by
  obtain ⟨envelope, next, context, plaintext, secret, done, answers⟩ :=
    rotates
  obtain ⟨existing, admitted, _⟩ := ok_of_rotate done
  obtain ⟨here, active, _, _, fresh, _, _, _, absent⟩ :=
    assertRotation_eq_ok.mp admitted
  obtain ⟨registered, other, found, retired⟩ := registered_of_rotate done
  cases here.symm.trans found
  exact ⟨envelope, next, context, plaintext, secret, existing, answers, here,
    active, absent, fresh, registered, retired⟩

theorem changes_step (act : Act δ ν) :
    (step env vault act).keys = vault.keys ∨
      Changes vault (step env vault act) act := by
  cases act with
  | register input => exact .inr trivial
  | revoke tenantId key revokedAt reason => exact .inr trivial
  | encrypt secretId plaintext key context operation draw => exact .inl rfl
  | decrypt envelope context => exact .inl rfl
  | rotate envelope next context draw => exact .inl rfl
  | resume place =>
    exact (keys_resume vault place).imp_right (replaces_of_rotates vault)

theorem admitted_of_resume {place : Nat} {opened : Outcome String}
    {envelope : EnvelopeSecret} {next : EnvelopeKeyLifecycle}
    {context : SecretAccessContext} {draw : Draw δ ν}
    (waiting : vault.pending[place]? =
      some (.reading opened envelope next context draw))
    (unanswered : (vault.resume env place).answers = vault.answers) :
    ∃ existing, vault.keys.assertRotation env context.tenantId envelope.key
      next context.«at» = .ok existing := by
  have longer : ∀ answer, vault.answers ++ [answer] ≠ vault.answers :=
    fun answer same => List.cons_ne_nil _ _ (List.append_right_eq_self.mp same)
  rw [EnvelopeSecretVault.resume, waiting] at unanswered
  dsimp only at unanswered
  rw [EnvelopeSecretVault.resumeReading] at unanswered
  cases read : opened.result with
  | error failure =>
    rw [read] at unanswered
    exact absurd unanswered (longer _)
  | ok plaintext =>
    rw [read] at unanswered
    dsimp only at unanswered
    cases admitted : vault.keys.assertRotation env context.tenantId
        envelope.key next context.«at» with
    | error failure =>
      rw [admitted] at unanswered
      exact absurd unanswered (longer _)
    | ok existing => exact ⟨existing, rfl⟩

end Kept

/--
Whatever the order of the calls of a vault under ideal encryption, its keys and
its envelopes keep to their lifecycle.
-/
theorem keyLifecycle_kept (env : Environment δ ν) (ideal : env.Ideal)
    (acts : List (Act δ ν)) :
    KeyLifecycleKept env (EnvelopeSecretVault.start.after env acts) := by
  have sound : Sound env (EnvelopeSecretVault.start.after env acts) :=
    sound_after acts
  generalize EnvelopeSecretVault.start.after env acts = vault at sound
  constructor
  case revokedForGood =>
    exact fun _ _ found revoked acts => revoked_after vault found revoked acts
  case unreadable =>
    intro envelope lifecycle found revoked acts context plaintext opened
    obtain ⟨later, foundLater, revokedLater⟩ :=
      @revoked_after _ _ env vault _ _ found revoked acts
    rw [decrypt_eq_ok, openUnder_eq_ok] at opened
    obtain ⟨_, tenant, other, _, _, _, here, unrevoked, _⟩ := opened
    rw [← tenant] at here
    cases foundLater.symm.trans here
    exact unrevoked revokedLater
  case sealsUnderActive =>
    intro secretId plaintext key context operation draw secret made
    obtain ⟨_, sameKey, tenant, _, lifecycle, found, active, _⟩ :=
      ok_of_encrypt made
    rw [sameKey, tenant] at found
    exact ⟨sameKey, lifecycle, found, active⟩
  case sealsForActive =>
    intro place opened envelope next context draw waiting unanswered
    obtain ⟨existing, admitted⟩ :=
      admitted_of_resume vault waiting unanswered
    obtain ⟨here, active, _, _, fresh, _, _, _, absent⟩ :=
      assertRotation_eq_ok.mp admitted
    exact ⟨existing, here, active, fresh, absent⟩
  case changes => exact changes_step vault
  case opens =>
    intro plaintext secret issued
    obtain ⟨lifecycle, found, _⟩ := (sound.issued _ _ issued).2
    exact ⟨lifecycle, found, fun unrevoked context valid tenant =>
      sound.decrypts ideal issued found unrevoked valid tenant⟩
  case bound =>
    intro plaintext secret issued other context text relabelled opened
    obtain ⟨seals, lifecycle, found, generation⟩ := sound.issued _ _ issued
    have positive := (sound.whole _ _ found).2
    exact sameLabels_of_decrypt ideal seals (generation ▸ positive) relabelled
      opened
  case moves =>
    intro plaintext secret existing next context draw issued found active
      valid tenant fresh
    exact sound.moves ideal issued found active valid tenant fresh
  case stays =>
    intro plaintext secret existing next context draw issued found retired
      valid tenant
    exact sound.stays ideal next draw issued found retired valid tenant

/-! ## Two secrets under one key -/

/-- The digest of the sample, sixty-four zeros. -/
def zeros : String :=
  String.ofList (List.replicate 64 '0')

def sampleKey (version : String) : EnvelopeKeyReference where
  provider := "local-envelope"
  keyId := "tenant-key"
  version := version
  customerManaged := false

def sampleLifecycle (version : String) (generation : Int) :
    EnvelopeKeyLifecycle where
  tenantId := "tenant-a"
  key := sampleKey version
  generation := generation
  state := .active
  createdAt := "2026-08-02T00:00:00.000Z"
  rotatedAt := none
  revokedAt := none
  revocationReason := none

def sampleContext : SecretAccessContext where
  tenantId := "tenant-a"
  actorId := "service:api"
  correlationId := "trace-1"
  purpose := "read scm credential"
  «at» := "2026-08-02T00:00:00.000Z"

/-- A provider whose wrapped keys are the data keys. -/
def sampleProvider : KeyEncryptionKeyProvider String Unit where
  provider := "local-envelope"
  enabled := true
  attestKey locator _ :=
    if isIdentifier locator.provider ∧ isIdentifier locator.keyId ∧
        isIdentifier locator.version then
      .ok {
        provider := locator.provider
        keyId := locator.keyId
        version := locator.version
        customerManaged := false
        attestation := "local"
        keyMaterialFingerprint := none
        attestationSha256 := zeros }
    else .error "local_envelope_key_missing"
  wrapDataKey _ _ dataKey _ := .ok dataKey
  unwrapDataKey _ _ wrapped := .ok wrapped

/-- A cipher whose texts show what they were made of. -/
def sampleEnvironment : Environment String Unit where
  sha256 _ := zeros
  isTime _ := true
  providers := [sampleProvider]
  encipher dataKey _ aad plaintext := ⟨dataKey, aad, plaintext⟩
  decipher dataKey aad sealed :=
    if sealed.iv = dataKey ∧ sealed.authTag = aad then some sealed.ciphertext
    else none

theorem isSha256_zeros : isSha256 zeros = true := by
  unfold isSha256 zeros
  rw [String.toList_ofList]
  unfold Pattern.isHexText
  rw [List.length_replicate, List.all_replicate]
  simp [Pattern.isHex]

theorem sample_ideal : sampleEnvironment.Ideal where
  digests _ := isSha256_zeros
  opens := by
    intro dataKey iv aad plaintext
    exact if_pos ⟨rfl, rfl⟩
  authentic := by
    intro dataKey iv aad plaintext otherKey otherAad text opened
    simp only [sampleEnvironment] at opened
    split at opened
    · next same => exact ⟨same.1.symm, same.2.symm⟩
    · cases opened
  unwraps := by
    intro provider member key tenantId dataKey wrapping wrapped wraps
    cases List.mem_singleton.mp member
    cases wraps
    rfl
  identifiers := by
    intro provider member locator tenantId attested attests
    cases List.mem_singleton.mp member
    simp only [sampleProvider] at attests
    split at attests
    · next named =>
        cases attests
        exact named
    · cases attests

def sampleDraw : Draw String Unit where
  dataKey := "data-key"
  iv := ()
  wrapping := ()

/-- The envelopes of the sample, under the first version of the key. -/
def sampleSecret (secretId plaintext : String) : EnvelopeSecret where
  iv := "data-key"
  authTag := envelopeAad "tenant-a" secretId 1 (sampleKey "1") zeros
  ciphertext := plaintext
  tenantId := "tenant-a"
  secretId := secretId
  generation := 1
  key := sampleKey "1"
  keyAttestationSha256 := zeros
  wrappedDataKey := "data-key"
  createdAt := "2026-08-02T00:00:00.000Z"

/-- Two secrets under one key, the first of which is then rotated. -/
def rotatedActs : List (Act String Unit) :=
  [.register (sampleLifecycle "1" 1),
    .encrypt "secret-a" "first" (sampleKey "1") sampleContext .encrypt
      sampleDraw,
    .resume 0,
    .encrypt "secret-b" "second" (sampleKey "1") sampleContext .encrypt
      sampleDraw,
    .resume 0,
    .rotate (sampleSecret "secret-a" "first") (sampleLifecycle "2" 2)
      sampleContext sampleDraw,
    .resume 0, .resume 0]

/-- An encryption which waits while its key is revoked. -/
def revokedActs : List (Act String Unit) :=
  [.register (sampleLifecycle "1" 1),
    .encrypt "secret-a" "first" (sampleKey "1") sampleContext .encrypt
      sampleDraw,
    .revoke "tenant-a" (sampleKey "1") "2026-08-02T01:00:00.000Z"
      "credential incident"]

def sampleVault (acts : List (Act String Unit)) :
    EnvelopeSecretVault String Unit :=
  EnvelopeSecretVault.start.after sampleEnvironment acts

theorem keyLifecycle_kept_sample :
    KeyLifecycleKept sampleEnvironment
      (EnvelopeSecretVault.start.after sampleEnvironment rotatedActs) :=
  keyLifecycle_kept sampleEnvironment sample_ideal rotatedActs

/-- Every secret whose key is not revoked can be moved. -/
def MovesUnlessRevoked (env : Environment δ ν)
    (vault : EnvelopeSecretVault δ ν) : Prop :=
  ∀ plaintext (secret : EnvelopeSecret) existing next context draw,
    vault.Issued plaintext secret →
    vault.keys.lifecycle? secret.tenantId secret.key = some existing →
    existing.state ≠ .revoked → validContext env context = .ok () →
    context.tenantId = secret.tenantId →
    FreshVersion env vault.keys context.tenantId existing next draw →
    ∃ moved, (vault.after env
        (rotationActs vault secret next context draw)).answers =
      vault.answers ++
        [.rotated secret next context (.ok (plaintext, moved))]

/-- What a step hands out is under a key which is active then. -/
def IssuesUnderActive (vault later : EnvelopeSecretVault δ ν) : Prop :=
  ∀ answer plaintext secret, later.answers = vault.answers ++ [answer] →
    answer.Issues plaintext secret → ∃ lifecycle,
      later.keys.lifecycle? secret.tenantId secret.key = some lifecycle ∧
        lifecycle.state = .active

/--
The other secret of a rotated key is not moved, and an encryption hands out an
envelope under a key which was revoked while it waited.
-/
theorem retired_stays_revoked_issues :
    ¬ MovesUnlessRevoked sampleEnvironment (sampleVault rotatedActs) ∧
      ¬ IssuesUnderActive (sampleVault revokedActs)
        (step sampleEnvironment (sampleVault revokedActs) (.resume 0)) := by
  constructor
  · intro moves
    have issued : (sampleVault rotatedActs).Issued "second"
        (sampleSecret "secret-b" "second") :=
      ⟨_, List.mem_of_getElem? (i := 1) rfl, .inl rfl⟩
    have fresh : FreshVersion sampleEnvironment
        (sampleVault rotatedActs).keys "tenant-a"
        { sampleLifecycle "1" 1 with
          state := .retired
          rotatedAt := some "2026-08-02T00:00:00.000Z" }
        (sampleLifecycle "3" 2) sampleDraw := {
      valid := rfl
      tenant := rfl
      active := rfl
      generation := rfl
      safe := by decide
      created := rfl
      fresh := rfl
      provided := ⟨sampleProvider, _, _, rfl, rfl, rfl⟩ }
    obtain ⟨moved, answers⟩ := moves _ _ _ (sampleLifecycle "3" 2)
      sampleContext sampleDraw issued rfl (by decide) rfl rfl fresh
    have last := congrArg (fun list => list[3]?) answers
    have refused : ((sampleVault rotatedActs).after sampleEnvironment
        (rotationActs (sampleVault rotatedActs)
          (sampleSecret "secret-b" "second") (sampleLifecycle "3" 2)
          sampleContext sampleDraw)).answers[3]? =
        some (.rotated (sampleSecret "secret-b" "second")
          (sampleLifecycle "3" 2) sampleContext
          (.error "vault_key_not_active:retired")) := rfl
    cases refused.symm.trans last
  · intro active
    obtain ⟨lifecycle, found, state⟩ := active
      (.encrypted "first" (.ok (sampleSecret "secret-a" "first"))) "first"
      (sampleSecret "secret-a" "first") rfl (.inl rfl)
    have revoked : (step sampleEnvironment (sampleVault revokedActs)
        (.resume 0)).keys.lifecycle? "tenant-a" (sampleKey "1") =
        some { sampleLifecycle "1" 1 with
          state := .revoked
          revokedAt := some "2026-08-02T01:00:00.000Z"
          revocationReason := some "credential incident" } := rfl
    cases revoked.symm.trans found
    cases state

end Mendpoint.Vault
