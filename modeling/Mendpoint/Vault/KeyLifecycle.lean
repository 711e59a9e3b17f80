import Mendpoint.Vault.Calls

/-!
# The life of the keys of a vault

Under an ideal cipher, whatever the order of the calls, a key never grows
younger, and an envelope which the vault has handed out opens to its text for
its own labels and for no others, until its key is revoked.
-/

namespace Mendpoint.Vault

open Mendpoint.Library
open Mendpoint.Library.Fallible

variable {δ ν : Type}

/-! ## Keys grow older -/

/-- A lifecycle which may come after another one of the same key. -/
def Follows (earlier later : EnvelopeKeyLifecycle) : Prop :=
  later.generation = earlier.generation ∧
    earlier.state.age ≤ later.state.age

/-- Every key of a registry is in another one, no younger. -/
def Grows (keys later : EnvelopeKeyLifecycleRegistry) : Prop :=
  ∀ identity lifecycle, keys.get? identity = some lifecycle →
    ∃ next, later.get? identity = some next ∧ Follows lifecycle next

theorem follows_refl (lifecycle : EnvelopeKeyLifecycle) :
    Follows lifecycle lifecycle :=
  ⟨rfl, Nat.le_refl _⟩

theorem grows_refl (keys : EnvelopeKeyLifecycleRegistry) : Grows keys keys :=
  fun _ lifecycle found => ⟨lifecycle, found, follows_refl lifecycle⟩

theorem Grows.trans {keys middle later : EnvelopeKeyLifecycleRegistry}
    (first : Grows keys middle) (second : Grows middle later) :
    Grows keys later := by
  intro identity lifecycle found
  obtain ⟨next, foundNext, generation, age⟩ := first identity lifecycle found
  obtain ⟨last, foundLast, generationLast, ageLast⟩ :=
    second identity next foundNext
  exact ⟨last, foundLast, generationLast.trans generation,
    age.trans ageLast⟩

theorem grows_set {keys : EnvelopeKeyLifecycleRegistry} {identity : String}
    {lifecycle : EnvelopeKeyLifecycle}
    (older : ∀ earlier, keys.get? identity = some earlier →
      Follows earlier lifecycle) :
    Grows keys (keys.set identity lifecycle) := by
  intro other earlier found
  by_cases here : other = identity
  · subst here
    exact ⟨lifecycle, OrderedMap.get?_set_self _ _ _, older earlier found⟩
  · rw [← OrderedMap.get?_set_of_ne keys lifecycle (Ne.symm here)] at found
    exact ⟨earlier, found, follows_refl earlier⟩

theorem age_active_le {lifecycle : EnvelopeKeyLifecycle}
    (active : lifecycle.state = .active) (state : EnvelopeKeyState) :
    lifecycle.state.age ≤ state.age := by
  rw [active]
  exact Nat.zero_le _

theorem age_le_revoked (state : EnvelopeKeyState) :
    state.age ≤ EnvelopeKeyState.revoked.age := by
  cases state with
  | active => decide
  | retired => decide
  | revoked => decide

theorem revoked_of_age_le {state : EnvelopeKeyState}
    (old : EnvelopeKeyState.revoked.age ≤ state.age) : state = .revoked := by
  cases state with
  | active => exact absurd old (by decide)
  | retired => exact absurd old (by decide)
  | revoked => rfl

section Registry

variable {env : Environment δ ν} {keys later : EnvelopeKeyLifecycleRegistry}

theorem grows_register {input : EnvelopeKeyLifecycle}
    (done : keys.register env input = .ok later) : Grows keys later := by
  obtain ⟨_, _, absent, rfl⟩ := ok_of_register done
  refine grows_set fun earlier found => ?_
  rw [absent] at found
  cases found

theorem grows_revoke {tenantId revokedAt reason : String}
    {key : EnvelopeKeyReference}
    (done : keys.revoke env tenantId key revokedAt reason = .ok later) :
    Grows keys later := by
  obtain ⟨existing, here, ⟨_, rfl⟩ | ⟨last, generation, revoked, rfl⟩⟩ :=
    ok_of_revoke done
  · exact grows_refl _
  · refine grows_set fun earlier found => ?_
    cases here.symm.trans found
    exact ⟨generation, revoked ▸ age_le_revoked _⟩

theorem grows_rotate {tenantId rotatedAt : String}
    {current : EnvelopeKeyReference} {next : EnvelopeKeyLifecycle}
    (done : keys.rotate env tenantId current next rotatedAt = .ok later) :
    Grows keys later := by
  obtain ⟨existing, admitted, _, _, rfl⟩ := ok_of_rotate done
  obtain ⟨here, active, _, _, _, _, _, _, absent⟩ :=
    assertRotation_eq_ok.mp admitted
  have different : keyIdentity tenantId current ≠
      keyIdentity tenantId next.key := by
    intro same
    rw [EnvelopeKeyLifecycleRegistry.lifecycle?, ← same] at absent
    cases here.symm.trans absent
  refine Grows.trans (grows_set ?_) (grows_set ?_)
  · intro earlier found
    cases absent.symm.trans found
  · intro earlier found
    rw [OrderedMap.get?_set_of_ne _ _ different.symm] at found
    cases here.symm.trans found
    exact ⟨rfl, age_active_le active _⟩

end Registry

/-! ## What a step does to the registry -/

section Steps

variable {env : Environment δ ν} (vault : EnvelopeSecretVault δ ν)

theorem keys_resumeReading (place : Nat) (opened : Outcome String)
    (envelope : EnvelopeSecret) (next : EnvelopeKeyLifecycle)
    (context : SecretAccessContext) (draw : Draw δ ν) :
    (vault.resumeReading env place opened envelope next context draw).keys =
      vault.keys := by
  rw [EnvelopeSecretVault.resumeReading]
  cases opened.result with
  | error failure => rfl
  | ok plaintext =>
    dsimp only
    cases vault.keys.assertRotation env context.tenantId envelope.key next
        context.«at» with
    | error failure => rfl
    | ok existing => rfl

/-- A rotation changes the registry when it succeeds, and only then. -/
def Rotates (env : Environment δ ν) (vault later : EnvelopeSecretVault δ ν) :
    Prop :=
  ∃ envelope next context plaintext secret,
    vault.keys.rotate env context.tenantId envelope.key next context.«at» =
      .ok later.keys ∧
    later.answers = vault.answers ++
      [.rotated envelope next context (.ok (plaintext, secret))]

theorem keys_resumeReplacing (place : Nat) (plaintext : String)
    (outcome : Outcome EnvelopeSecret) (envelope : EnvelopeSecret)
    (next : EnvelopeKeyLifecycle) (context : SecretAccessContext) :
    (vault.resumeReplacing env place plaintext outcome envelope next
        context).keys = vault.keys ∨
      Rotates env vault (vault.resumeReplacing env place plaintext outcome
        envelope next context) := by
  rw [EnvelopeSecretVault.resumeReplacing]
  cases outcome.result with
  | error failure => exact .inl rfl
  | ok secret =>
    dsimp only
    cases done : vault.keys.rotate env context.tenantId envelope.key next
        context.«at» with
    | error failure => exact .inl rfl
    | ok keys => exact .inr ⟨_, _, _, _, _, done, rfl⟩

theorem keys_resume (place : Nat) :
    (vault.resume env place).keys = vault.keys ∨
      Rotates env vault (vault.resume env place) := by
  rw [EnvelopeSecretVault.resume]
  split
  · exact .inl rfl
  · exact .inl rfl
  · exact .inl rfl
  · exact .inl (keys_resumeReading vault place _ _ _ _ _)
  · exact keys_resumeReplacing vault place _ _ _ _ _

theorem grows_withKeys
    {result : Except String EnvelopeKeyLifecycleRegistry}
    (grows : ∀ keys, result = .ok keys → Grows vault.keys keys) :
    Grows vault.keys (vault.withKeys result).keys := by
  cases result with
  | error failure => exact grows_refl _
  | ok keys => exact grows keys rfl

theorem grows_step (act : Act δ ν) :
    Grows vault.keys (step env vault act).keys := by
  cases act with
  | register input =>
    exact grows_withKeys vault fun keys done => grows_register done
  | revoke tenantId key revokedAt reason =>
    exact grows_withKeys vault fun keys done => grows_revoke done
  | encrypt secretId plaintext key context operation draw =>
    exact grows_refl _
  | decrypt envelope context => exact grows_refl _
  | rotate envelope next context draw => exact grows_refl _
  | resume place =>
    rcases keys_resume vault place with same | rotates
    · exact same ▸ grows_refl _
    · obtain ⟨_, _, _, _, _, done, _⟩ := rotates
      exact grows_rotate done

theorem grows_after (acts : List (Act δ ν)) :
    Grows vault.keys (vault.after env acts).keys := by
  have preserved : ∀ later act, Grows vault.keys later.keys →
      Grows vault.keys (step env later act).keys :=
    fun later act grown => grown.trans (grows_step later act)
  exact Run.run_invariant preserved (grows_refl _) acts

end Steps

end Mendpoint.Vault

/-!
## What an envelope is bound to

The associated data of an envelope determines its labels.  Under an ideal
cipher an envelope opens to its text for the labels it was sealed with, and
for no others.
-/

namespace Mendpoint.Vault

open Mendpoint.Library
open Mendpoint.Library.Fallible

variable {δ ν : Type}

/-! ## Labels -/

variable {text : String}

theorem not_mem_of_isName {allowed : List Char} {more : Nat}
    (named : Pattern.isName allowed more text = true) {char : Char}
    (strange : Pattern.isAlphanumeric char = false) (absent : char ∉ allowed) :
    char ∉ text.toList := by
  rw [Pattern.isName] at named
  split at named
  · cases named
  · next first rest chars =>
      simp only [Bool.and_eq_true_iff, List.all_eq_true, Bool.or_eq_true_iff,
        decide_eq_true_iff] at named
      obtain ⟨⟨alphanumeric, others⟩, _⟩ := named
      rw [chars, List.mem_cons, not_or]
      constructor
      · rintro rfl
        cases strange.symm.trans alphanumeric
      · intro member
        rcases others char member with usual | inside
        · cases strange.symm.trans usual
        · exact absent inside

theorem nul_free_of_isIdentifier (identifier : isIdentifier text = true) :
    '\x00' ∉ text.toList :=
  not_mem_of_isName identifier (by decide) (by decide)

theorem nul_free_of_isSha256 (digest : isSha256 text = true) :
    '\x00' ∉ text.toList := by
  rw [isSha256, Pattern.isHexText, Bool.and_eq_true_iff,
    List.all_eq_true] at digest
  intro member
  exact absurd (digest.2 _ member) (by decide)

theorem managedText_inj {key other : EnvelopeKeyReference}
    (same : key.managedText = other.managedText) :
    key.customerManaged = other.customerManaged := by
  rw [EnvelopeKeyReference.managedText,
    EnvelopeKeyReference.managedText] at same
  revert same
  cases key.customerManaged with
  | false =>
    cases other.customerManaged with
    | false => exact fun _ => rfl
    | true => exact fun same => absurd same (by decide)
  | true =>
    cases other.customerManaged with
    | false => exact fun same => absurd same (by decide)
    | true => exact fun _ => rfl

theorem nul_free_managedText (key : EnvelopeKeyReference) :
    '\x00' ∉ key.managedText.toList := by
  rw [EnvelopeKeyReference.managedText]
  split
  · decide
  · decide

/-- The parts of a key have the form of identifiers. -/
def Named (key : EnvelopeKeyReference) : Prop :=
  isIdentifier key.provider = true ∧ isIdentifier key.keyId = true ∧
    isIdentifier key.version = true

/-- The labels of an envelope are such as the vault checks them. -/
structure Labelled (secret : EnvelopeSecret) : Prop where
  tenant : isIdentifier secret.tenantId = true
  positive : 1 ≤ secret.generation
  key : Named secret.key
  digest : isSha256 secret.keyAttestationSha256 = true

namespace EnvelopeSecret

/-- The associated data of the labels of an envelope. -/
def aad (secret : EnvelopeSecret) : String :=
  envelopeAad secret.tenantId secret.secretId secret.generation secret.key
    secret.keyAttestationSha256

/-- Two envelopes have the same labels. -/
def SameLabels (secret other : EnvelopeSecret) : Prop :=
  secret.tenantId = other.tenantId ∧ secret.secretId = other.secretId ∧
    secret.generation = other.generation ∧ secret.key = other.key ∧
    secret.keyAttestationSha256 = other.keyAttestationSha256

end EnvelopeSecret

/-- The fields of the associated data behind the id of the secret. -/
def laterLabels (secret : EnvelopeSecret) : List String :=
  [toString secret.generation, secret.key.provider, secret.key.keyId,
    secret.key.version, secret.key.managedText, secret.keyAttestationSha256]

theorem nul_free_labels {secret : EnvelopeSecret}
    (labelled : Labelled secret) :
    ∀ field ∈ [secret.tenantId] ++ laterLabels secret,
      '\x00' ∉ field.toList := by
  have generation : '\x00' ∉ (toString secret.generation).toList := by
    obtain ⟨number, same⟩ := Int.eq_ofNat_of_zero_le
      (Int.le_trans Int.one_nonneg labelled.positive)
    rw [same]
    exact Delimited.not_mem_toString (by decide) number
  intro field member
  simp only [laterLabels, List.cons_append, List.nil_append, List.mem_cons,
    List.not_mem_nil, or_false] at member
  rcases member with rfl | rfl | rfl | rfl | rfl | rfl | rfl
  · exact nul_free_of_isIdentifier labelled.tenant
  · exact generation
  · exact nul_free_of_isIdentifier labelled.key.1
  · exact nul_free_of_isIdentifier labelled.key.2.1
  · exact nul_free_of_isIdentifier labelled.key.2.2
  · exact nul_free_managedText _
  · exact nul_free_of_isSha256 labelled.digest

theorem toString_int_inj {number other : Int} (positive : 1 ≤ number)
    (positive' : 1 ≤ other) (same : toString number = toString other) :
    number = other := by
  obtain ⟨left, rfl⟩ := Int.eq_ofNat_of_zero_le
    (Int.le_trans Int.one_nonneg positive)
  obtain ⟨right, rfl⟩ := Int.eq_ofNat_of_zero_le
    (Int.le_trans Int.one_nonneg positive')
  exact congrArg Int.ofNat (Delimited.toString_inj same)

theorem sameLabels_of_aad {secret other : EnvelopeSecret}
    (labelled : Labelled secret) (labelled' : Labelled other)
    (same : secret.aad = other.aad) : secret.SameLabels other := by
  have joined : Text.join (String.ofList ['\x00'])
        ([secret.tenantId] ++ secret.secretId :: laterLabels secret) =
      Text.join (String.ofList ['\x00'])
        ([other.tenantId] ++ other.secretId :: laterLabels other) := same
  obtain ⟨tenants, ids, rest⟩ := Delimited.join_inj (Eq.refl 1) (Eq.refl 6)
    (nul_free_labels labelled) (nul_free_labels labelled') joined
  simp only [laterLabels, List.cons.injEq, and_true] at tenants rest
  obtain ⟨generations, providers, keyIds, versions, managed, digests⟩ := rest
  refine ⟨tenants, ids, toString_int_inj labelled.positive labelled'.positive
    generations, ?_, digests⟩
  have customers := managedText_inj managed
  generalize secret.key = key at providers keyIds versions customers
  generalize other.key = otherKey at providers keyIds versions customers
  cases key
  cases otherKey
  rw [EnvelopeKeyReference.mk.injEq]
  exact ⟨providers, keyIds, versions, customers⟩

/-! ## Ideal encryption -/

/-- What the digest, the cipher and the providers promise. -/
structure Environment.Ideal (env : Environment δ ν) : Prop where
  digests : ∀ text, isSha256 (env.sha256 text) = true
  opens : ∀ dataKey iv aad plaintext,
    env.decipher dataKey aad (env.encipher dataKey iv aad plaintext) =
      some plaintext
  authentic : ∀ dataKey iv aad plaintext otherKey otherAad text,
    env.decipher otherKey otherAad
        (env.encipher dataKey iv aad plaintext) = some text →
      otherKey = dataKey ∧ otherAad = aad
  unwraps : ∀ provider ∈ env.providers,
    ∀ key tenantId dataKey wrapping wrapped,
      provider.wrapDataKey key tenantId dataKey wrapping = .ok wrapped →
      provider.unwrapDataKey key tenantId wrapped = .ok dataKey
  identifiers : ∀ provider ∈ env.providers, ∀ locator tenantId attested,
    provider.attestKey locator tenantId = .ok attested →
      Named attested.toEnvelopeKeyReference

section Ideal

variable {env : Environment δ ν}

variable {provider : KeyEncryptionKeyProvider δ ν}
  {key : EnvelopeKeyReference} {plaintext : String}
  {context : SecretAccessContext} {secret : EnvelopeSecret}
  {keys : EnvelopeKeyLifecycleRegistry}

theorem mem_of_enabledProvider {name : String}
    (enabled : enabledProvider env name = .ok provider) :
    provider ∈ env.providers := by
  rw [enabledProvider] at enabled
  cases found : provider? env name with
  | none =>
    rw [found] at enabled
    cases enabled
  | some other =>
    rw [found] at enabled
    dsimp only at enabled
    split at enabled
    · cases enabled
      have member := OrderedMap.mem_of_get?_ofList found
      obtain ⟨one, inside, same⟩ := List.mem_map.mp member
      cases same
      exact inside
    · cases enabled

theorem attested_of_ok (ideal : env.Ideal)
    (member : provider ∈ env.providers) {tenantId : String}
    {attested : EnvelopeKeyAttestation}
    (done : assertProviderAttestation env provider tenantId key = .ok
      attested) : Named key ∧ isSha256 attested.attestationSha256 = true := by
  simp only [assertProviderAttestation, bind_eq_ok, throwIf_eq_ok,
    exists_const, not_not, pure_eq_ok] at done
  obtain ⟨found, answered, same, digest, computed, equal, rfl⟩ := done
  refine ⟨same ▸ ideal.identifiers provider member _ _ _ answered, ?_⟩
  rw [equal]
  rw [attestationDigest] at computed
  split at computed
  · split at computed
    · split at computed
      · cases computed
        exact ideal.digests _
      · cases computed
    · cases computed
  · cases computed
    exact ideal.digests _

/-- The envelope seals a text by a provider, under its own labels. -/
def SealedWith (env : Environment δ ν)
    (provider : KeyEncryptionKeyProvider δ ν) (plaintext : String)
    (secret : EnvelopeSecret) : Prop :=
  ∃ attested dataKey iv wrapping,
    assertProviderAttestation env provider secret.tenantId secret.key =
      .ok attested ∧
    attested.attestationSha256 = secret.keyAttestationSha256 ∧
    provider.wrapDataKey secret.key secret.tenantId dataKey wrapping =
      .ok secret.wrappedDataKey ∧
    secret.toSealed = env.encipher dataKey iv secret.aad plaintext

/-- The envelope seals a text for a tenant whose id the vault checked. -/
def Seals (env : Environment δ ν) (plaintext : String)
    (secret : EnvelopeSecret) : Prop :=
  isIdentifier secret.tenantId = true ∧
    ∃ provider, enabledProvider env secret.key.provider = .ok provider ∧
      SealedWith env provider plaintext secret

theorem ok_of_encryptUnder {secretId : String} {generation : Int}
    {operation : Operation} {draw : Draw δ ν}
    (done : (encryptUnder env secretId plaintext generation key context
      operation draw).result = .ok secret) :
    secret.tenantId = context.tenantId ∧ secret.secretId = secretId ∧
      secret.generation = generation ∧ secret.key = key ∧
      ∃ provider, enabledProvider env key.provider = .ok provider ∧
        SealedWith env provider plaintext secret := by
  rw [encryptUnder] at done
  cases enabled : enabledProvider env key.provider with
  | error failure =>
    rw [enabled] at done
    cases done
  | ok provider =>
    rw [enabled] at done
    dsimp only at done
    split at done
    · next sealed sealing =>
        cases done
        simp only [sealUnder, bind_eq_ok, pure_eq_ok] at sealing
        obtain ⟨attested, attests, wrapped, wraps, rfl⟩ := sealing
        exact ⟨rfl, rfl, rfl, rfl, provider, rfl, attested, draw.dataKey,
          draw.iv, draw.wrapping, attests, rfl, wraps, rfl⟩
    · split at done
      · cases done
      · cases done

theorem ok_of_encrypt {secretId : String} {operation : Operation}
    {draw : Draw δ ν}
    (done : (encrypt env keys secretId plaintext key context operation
      draw).result = .ok secret) :
    Seals env plaintext secret ∧ secret.key = key ∧
      secret.tenantId = context.tenantId ∧ secret.secretId = secretId ∧
      ∃ lifecycle, keys.lifecycle? secret.tenantId secret.key =
          some lifecycle ∧
        lifecycle.state = .active ∧
        lifecycle.generation = secret.generation := by
  rw [encrypt] at done
  split at done
  · cases done
  · next lifecycle admitted =>
      simp only [bind_eq_ok, validContext, throwIf_eq_ok, exists_const,
        assertEncryptable_eq_ok, Bool.not_eq_false] at admitted
      obtain ⟨⟨identifier, _⟩, _, here, active⟩ := admitted
      obtain ⟨tenant, named, generation, sameKey, provider, enabled,
        sealing⟩ := ok_of_encryptUnder done
      rw [← sameKey] at here enabled
      rw [← tenant] at here identifier
      exact ⟨⟨identifier, provider, enabled, sealing⟩, sameKey, tenant,
        named, lifecycle, here, active, generation.symm⟩

theorem openUnder_eq_ok {envelope : EnvelopeSecret} :
    openUnder env keys envelope context = .ok plaintext ↔
      ∃ lifecycle provider attested dataKey,
        keys.lifecycle? context.tenantId envelope.key = some lifecycle ∧
        lifecycle.state ≠ .revoked ∧
        SafeInteger.Safe envelope.generation ∧ 1 ≤ envelope.generation ∧
        envelope.generation = lifecycle.generation ∧
        enabledProvider env envelope.key.provider = .ok provider ∧
        isSha256 envelope.keyAttestationSha256 = true ∧
        assertProviderAttestation env provider context.tenantId
          envelope.key = .ok attested ∧
        attested.attestationSha256 = envelope.keyAttestationSha256 ∧
        provider.unwrapDataKey envelope.key context.tenantId
          envelope.wrappedDataKey = .ok dataKey ∧
        env.decipher dataKey (envelopeAad context.tenantId envelope.secretId
          envelope.generation envelope.key envelope.keyAttestationSha256)
          envelope.toSealed = some plaintext := by
  simp only [openUnder, bind_eq_ok, throwIf_eq_ok, exists_const,
    assertDecryptable_eq_ok, Bool.not_eq_false, not_or, not_not, not_lt,
    ne_eq]
  constructor
  · rintro ⟨lifecycle, ⟨here, unrevoked⟩, ⟨safe, positive, generation⟩,
      provider, enabled, digest, attested, attests, same, dataKey, unwraps,
      opened⟩
    refine ⟨lifecycle, provider, attested, dataKey, here, unrevoked, safe,
      positive, generation, enabled, digest, attests, same, unwraps, ?_⟩
    split at opened
    · next text deciphered =>
        cases opened
        exact deciphered
    · cases opened
  · rintro ⟨lifecycle, provider, attested, dataKey, here, unrevoked, safe,
      positive, generation, enabled, digest, attests, same, unwraps,
      deciphered⟩
    refine ⟨lifecycle, ⟨here, unrevoked⟩, ⟨safe, positive, generation⟩,
      provider, enabled, digest, attested, attests, same, dataKey, unwraps,
      ?_⟩
    rw [deciphered]
    rfl

theorem decrypt_eq_ok {envelope : EnvelopeSecret} :
    (decrypt env keys envelope context).result = .ok plaintext ↔
      validContext env context = .ok () ∧
        envelope.tenantId = context.tenantId ∧
        openUnder env keys envelope context = .ok plaintext := by
  rw [decrypt]
  dsimp only
  cases validContext env context with
  | error failure => simp
  | ok checked =>
    dsimp only
    split
    · next other => simp [other]
    · next same =>
        cases openUnder env keys envelope context with
        | ok text => simpa using fun _ => not_not.mp same
        | error failure =>
          dsimp only
          split
          · simp
          · simp

theorem tenant_of_validContext (valid : validContext env context = .ok ()) :
    isIdentifier context.tenantId = true := by
  simp only [validContext, bind_eq_ok, throwIf_eq_ok, exists_const,
    Bool.not_eq_false] at valid
  exact valid.1

theorem labelled_of_seals (ideal : env.Ideal)
    (seals : Seals env plaintext secret) (positive : 1 ≤ secret.generation) :
    Labelled secret := by
  obtain ⟨tenant, provider, enabled, attested, _, _, _, attests, digest,
    _⟩ := seals
  obtain ⟨named, isDigest⟩ :=
    attested_of_ok ideal (mem_of_enabledProvider enabled) attests
  exact ⟨tenant, positive, named, digest ▸ isDigest⟩

theorem decrypt_of_seals (ideal : env.Ideal)
    (seals : Seals env plaintext secret) {lifecycle : EnvelopeKeyLifecycle}
    (found : keys.lifecycle? secret.tenantId secret.key = some lifecycle)
    (unrevoked : lifecycle.state ≠ .revoked)
    (generation : lifecycle.generation = secret.generation)
    (safe : SafeInteger.Safe secret.generation)
    (positive : 1 ≤ secret.generation)
    (valid : validContext env context = .ok ())
    (tenant : context.tenantId = secret.tenantId) :
    (decrypt env keys secret context).result = .ok plaintext := by
  have labelled := labelled_of_seals ideal seals positive
  obtain ⟨_, provider, enabled, attested, dataKey, iv, wrapping, attests,
    digest, wraps, sealing⟩ := seals
  have unwraps := ideal.unwraps provider (mem_of_enabledProvider enabled) _
    _ _ _ _ wraps
  rw [decrypt_eq_ok, openUnder_eq_ok]
  refine ⟨valid, tenant.symm, lifecycle, provider, attested, dataKey, ?_⟩
  rw [tenant]
  refine ⟨found, unrevoked, safe, positive, generation.symm, enabled,
    labelled.digest, attests, digest, unwraps, ?_⟩
  rw [sealing]
  exact ideal.opens _ _ _ _

theorem sameLabels_of_decrypt (ideal : env.Ideal) {other : EnvelopeSecret}
    (seals : Seals env plaintext secret) (positive : 1 ≤ secret.generation)
    (relabelled : other.toSealed = secret.toSealed)
    (opened : (decrypt env keys other context).result = .ok text) :
    context.tenantId = secret.tenantId ∧ secret.SameLabels other ∧
      text = plaintext := by
  have labelled := labelled_of_seals ideal seals positive
  rw [decrypt_eq_ok, openUnder_eq_ok] at opened
  obtain ⟨valid, tenant, _, provider, attested, dataKey, _, _, _,
    otherPositive, _, enabled, digest, attests, _, _, deciphered⟩ := opened
  obtain ⟨named, _⟩ :=
    attested_of_ok ideal (mem_of_enabledProvider enabled) attests
  obtain ⟨_, _, _, _, sealedKey, iv, _, _, _, _, sealing⟩ := seals
  rw [relabelled, sealing] at deciphered
  obtain ⟨rfl, aads⟩ := ideal.authentic _ _ _ _ _ _ _ deciphered
  rw [aads, ideal.opens, Option.some.injEq] at deciphered
  have identifier := tenant_of_validContext valid
  rw [← tenant] at aads identifier
  have otherLabelled : Labelled other :=
    ⟨identifier, otherPositive, named, digest⟩
  have same := sameLabels_of_aad labelled otherLabelled aads.symm
  exact ⟨tenant.symm.trans same.1.symm, same, deciphered.symm⟩

end Ideal

end Mendpoint.Vault
