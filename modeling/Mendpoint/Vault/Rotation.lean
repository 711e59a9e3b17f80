import Mendpoint.Vault.KeyLifecycle

/-!
# Rotation of keys

What a vault keeps whatever the order of its calls: the keys grow older, every
envelope which it has handed out opens for its own labels, and only a secret
under an active key is moved to a fresh one.
-/

namespace Mendpoint.Vault

open Mendpoint.Library
open Mendpoint.Library.Fallible

variable {δ ν : Type}

/-! ## The invariant of a vault -/

/-- The generations of the keys are whole and positive. -/
def Whole (keys : EnvelopeKeyLifecycleRegistry) : Prop :=
  ∀ identity lifecycle, keys.get? identity = some lifecycle →
    SafeInteger.Safe lifecycle.generation ∧ 1 ≤ lifecycle.generation

/-- The key of an envelope is registered with its generation. -/
def Keyed (keys : EnvelopeKeyLifecycleRegistry) (secret : EnvelopeSecret) :
    Prop :=
  ∃ lifecycle,
    keys.lifecycle? secret.tenantId secret.key = some lifecycle ∧
      lifecycle.generation = secret.generation

/-- What a waiting call goes on with is what it has sealed or read. -/
def CallSound (env : Environment δ ν) (keys : EnvelopeKeyLifecycleRegistry) :
    Pending δ ν → Prop
  | .encrypting plaintext outcome =>
    ∀ secret, outcome.result = .ok secret →
      Seals env plaintext secret ∧ Keyed keys secret
  | .decrypting _ _ _ => True
  | .reading opened _ _ context _ =>
    ∀ text, opened.result = .ok text →
      isIdentifier context.tenantId = true
  | .replacing plaintext outcome _ next context =>
    ∀ secret, outcome.result = .ok secret →
      Seals env plaintext secret ∧ secret.tenantId = context.tenantId ∧
        secret.key = next.key ∧ secret.generation = next.generation

structure Sound (env : Environment δ ν) (vault : EnvelopeSecretVault δ ν) :
    Prop where
  whole : Whole vault.keys
  pending : ∀ call ∈ vault.pending, CallSound env vault.keys call
  issued : ∀ plaintext secret, vault.Issued plaintext secret →
    Seals env plaintext secret ∧ Keyed vault.keys secret

theorem whole_set {keys : EnvelopeKeyLifecycleRegistry} (whole : Whole keys)
    (identity : String) {lifecycle : EnvelopeKeyLifecycle}
    (safe : SafeInteger.Safe lifecycle.generation)
    (positive : 1 ≤ lifecycle.generation) :
    Whole (keys.set identity lifecycle) := by
  intro other found within
  rw [OrderedMap.get?_set] at within
  split at within
  · cases within
    exact ⟨safe, positive⟩
  · exact whole other found within

theorem Keyed.grows {keys later : EnvelopeKeyLifecycleRegistry}
    {secret : EnvelopeSecret} (keyed : Keyed keys secret)
    (grows : Grows keys later) : Keyed later secret := by
  obtain ⟨lifecycle, found, generation⟩ := keyed
  obtain ⟨next, foundNext, same, _⟩ := grows _ _ found
  exact ⟨next, foundNext, same.trans generation⟩

theorem CallSound.grows {env : Environment δ ν}
    {keys later : EnvelopeKeyLifecycleRegistry} {call : Pending δ ν}
    (sound : CallSound env keys call) (grows : Grows keys later) :
    CallSound env later call := by
  cases call with
  | encrypting plaintext outcome =>
    intro secret done
    obtain ⟨seals, keyed⟩ := sound secret done
    exact ⟨seals, keyed.grows grows⟩
  | decrypting envelope context outcome => trivial
  | reading opened envelope next context draw => exact sound
  | replacing plaintext outcome envelope next context => exact sound

section Registry

variable {env : Environment δ ν} {keys later : EnvelopeKeyLifecycleRegistry}

theorem whole_revoke (whole : Whole keys)
    {tenantId revokedAt reason : String} {key : EnvelopeKeyReference}
    (done : keys.revoke env tenantId key revokedAt reason = .ok later) :
    Whole later := by
  obtain ⟨existing, here, ⟨_, rfl⟩ | ⟨last, generation, _, rfl⟩⟩ :=
    ok_of_revoke done
  · exact whole
  · obtain ⟨safe, positive⟩ := whole _ _ here
    exact whole_set whole _ (generation ▸ safe) (generation ▸ positive)

variable {tenantId rotatedAt : String} {current : EnvelopeKeyReference}
  {next : EnvelopeKeyLifecycle}

theorem whole_rotate (whole : Whole keys)
    (done : keys.rotate env tenantId current next rotatedAt = .ok later) :
    Whole later := by
  obtain ⟨existing, admitted, safe, positive, rfl⟩ := ok_of_rotate done
  have known := whole _ _ (assertRotation_eq_ok.mp admitted).1
  exact whole_set (whole_set whole _ safe positive) _ known.1 known.2

theorem registered_of_rotate
    (done : keys.rotate env tenantId current next rotatedAt = .ok later) :
    later.lifecycle? tenantId next.key = some next ∧
      ∃ existing, keys.lifecycle? tenantId current = some existing ∧
        later.lifecycle? tenantId current =
          some { existing with
            state := .retired
            rotatedAt := some rotatedAt } := by
  obtain ⟨existing, admitted, _, _, rfl⟩ := ok_of_rotate done
  obtain ⟨here, _, _, _, _, _, _, _, absent⟩ :=
    assertRotation_eq_ok.mp admitted
  have different : keyIdentity tenantId current ≠
      keyIdentity tenantId next.key := by
    intro same
    rw [EnvelopeKeyLifecycleRegistry.lifecycle?, ← same] at absent
    cases here.symm.trans absent
  refine ⟨?_, existing, here, OrderedMap.get?_set_self _ _ _⟩
  rw [EnvelopeKeyLifecycleRegistry.lifecycle?,
    OrderedMap.get?_set_of_ne _ _ different]
  exact OrderedMap.get?_set_self _ _ _

end Registry

section Steps

variable {env : Environment δ ν} {vault : EnvelopeSecretVault δ ν}

theorem sound_start : Sound env (EnvelopeSecretVault.start (δ := δ)) where
  whole := by
    intro identity lifecycle found
    cases found
  pending := List.forall_mem_nil _
  issued := by
    rintro plaintext secret ⟨answer, member, _⟩
    cases member

theorem Sound.withKeys (sound : Sound env vault)
    {result : Except String EnvelopeKeyLifecycleRegistry}
    (grows : ∀ keys, result = .ok keys →
      Grows vault.keys keys ∧ Whole keys) :
    Sound env (vault.withKeys result) := by
  cases result with
  | error failure => exact sound
  | ok keys =>
    obtain ⟨grown, whole⟩ := grows keys rfl
    refine ⟨whole, fun call member => (sound.pending call member).grows
      grown, fun plaintext secret issued => ?_⟩
    obtain ⟨seals, keyed⟩ := sound.issued plaintext secret issued
    exact ⟨seals, keyed.grows grown⟩

theorem Sound.begin (sound : Sound env vault) {call : Pending δ ν}
    (fresh : CallSound env vault.keys call) :
    Sound env (vault.begin call) where
  whole := sound.whole
  pending := by
    intro other member
    rcases List.mem_append.mp member with old | new
    · exact sound.pending other old
    · cases List.mem_singleton.mp new
      exact fresh
  issued := sound.issued

theorem Sound.answered (sound : Sound env vault) (place : Nat)
    (events : List EnvelopeAccessAuditEvent) {answer : Answer}
    (issues : ∀ plaintext secret, answer.Issues plaintext secret →
      Seals env plaintext secret ∧ Keyed vault.keys secret) :
    Sound env (vault.answered place events answer) where
  whole := sound.whole
  pending := fun call member =>
    sound.pending call (List.mem_of_mem_eraseIdx member)
  issued := by
    rintro plaintext secret ⟨other, member, issued⟩
    rcases List.mem_append.mp member with old | new
    · exact sound.issued plaintext secret ⟨other, old, issued⟩
    · cases List.mem_singleton.mp new
      exact issues plaintext secret issued

theorem Sound.failed (sound : Sound env vault) (place : Nat)
    (events : List EnvelopeAccessAuditEvent) (envelope : EnvelopeSecret)
    (next : EnvelopeKeyLifecycle) (context : SecretAccessContext)
    (failure : String) :
    Sound env (vault.answered place events
      (.rotated envelope next context (.error failure))) := by
  refine sound.answered place events ?_
  rintro plaintext secret (impossible | ⟨_, _, _, impossible⟩)
  · cases impossible
  · cases impossible

theorem Sound.resumeReading (sound : Sound env vault) {place : Nat}
    {opened : Outcome String} {envelope : EnvelopeSecret}
    {next : EnvelopeKeyLifecycle} {context : SecretAccessContext}
    {draw : Draw δ ν}
    (call : CallSound env vault.keys
      (.reading opened envelope next context draw)) :
    Sound env (vault.resumeReading env place opened envelope next context
      draw) := by
  rw [EnvelopeSecretVault.resumeReading]
  cases read : opened.result with
  | error failure => exact sound.failed _ _ _ _ _ _
  | ok text =>
    dsimp only
    cases vault.keys.assertRotation env context.tenantId envelope.key next
        context.«at» with
    | error failure => exact sound.failed _ _ _ _ _ _
    | ok existing =>
      refine ⟨sound.whole, ?_, sound.issued⟩
      intro other member
      rcases List.mem_or_eq_of_mem_set member with old | rfl
      · exact sound.pending other old
      · intro secret done
        obtain ⟨tenant, _, generation, key, provider, enabled,
          sealing⟩ := ok_of_encryptUnder done
        rw [← key] at enabled
        have identifier := call text read
        rw [← tenant] at identifier
        exact ⟨⟨identifier, provider, enabled, sealing⟩, tenant, key,
          generation⟩

theorem Sound.resumeReplacing (sound : Sound env vault) {place : Nat}
    {plaintext : String} {outcome : Outcome EnvelopeSecret}
    {envelope : EnvelopeSecret} {next : EnvelopeKeyLifecycle}
    {context : SecretAccessContext}
    (call : CallSound env vault.keys
      (.replacing plaintext outcome envelope next context)) :
    Sound env (vault.resumeReplacing env place plaintext outcome envelope
      next context) := by
  rw [EnvelopeSecretVault.resumeReplacing]
  cases made : outcome.result with
  | error failure => exact sound.failed _ _ _ _ _ _
  | ok secret =>
    dsimp only
    cases done : vault.keys.rotate env context.tenantId envelope.key next
        context.«at» with
    | error failure => exact sound.failed _ _ _ _ _ _
    | ok keys =>
      have grown : Sound env (vault.withKeys (.ok keys)) := by
        refine sound.withKeys fun later same => ?_
        cases same
        exact ⟨grows_rotate done, whole_rotate sound.whole done⟩
      refine grown.answered place outcome.events ?_
      obtain ⟨seals, tenant, key, generation⟩ := call secret made
      rintro text issued (impossible | ⟨_, _, _, same⟩)
      · cases impossible
      · cases same
        refine ⟨seals, next, ?_, generation.symm⟩
        rw [tenant, key]
        exact (registered_of_rotate done).1

theorem sound_step (sound : Sound env vault) (act : Act δ ν) :
    Sound env (step env vault act) := by
  cases act with
  | register input =>
    refine sound.withKeys fun later done => ⟨grows_register done, ?_⟩
    obtain ⟨safe, positive, _, rfl⟩ := ok_of_register done
    exact whole_set sound.whole _ safe positive
  | revoke tenantId key revokedAt reason =>
    exact sound.withKeys fun later done =>
      ⟨grows_revoke done, whole_revoke sound.whole done⟩
  | encrypt secretId plaintext key context operation draw =>
    refine sound.begin fun secret done => ?_
    obtain ⟨seals, _, _, _, lifecycle, found, _, generation⟩ :=
      ok_of_encrypt done
    exact ⟨seals, lifecycle, found, generation⟩
  | decrypt envelope context => exact sound.begin trivial
  | rotate envelope next context draw =>
    refine sound.begin ?_
    intro text done
    have valid := (decrypt_eq_ok.mp done).1
    rw [← SecretAccessContext.tenantId_forRotation]
    exact tenant_of_validContext valid
  | resume place =>
    show Sound env (vault.resume env place)
    rw [EnvelopeSecretVault.resume]
    split
    · exact sound
    · next plaintext outcome found =>
        have call := sound.pending _ (List.mem_of_getElem? found)
        refine sound.answered place _ ?_
        rintro text secret (same | ⟨_, _, _, impossible⟩)
        · obtain ⟨rfl, made⟩ := Answer.encrypted.inj same
          exact call secret made
        · cases impossible
    · refine sound.answered place _ ?_
      rintro text secret (impossible | ⟨_, _, _, impossible⟩)
      · cases impossible
      · cases impossible
    · next found =>
        exact sound.resumeReading
          (sound.pending _ (List.mem_of_getElem? found))
    · next found =>
        exact sound.resumeReplacing
          (sound.pending _ (List.mem_of_getElem? found))

theorem sound_after (acts : List (Act δ ν)) :
    Sound env (EnvelopeSecretVault.start.after env acts) := by
  have preserved : ∀ vault act, Sound env vault →
      Sound env (step env vault act) :=
    fun _ act sound => sound_step sound act
  exact Run.run_invariant preserved sound_start acts

end Steps

/-! ## Moving a secret -/

/-- A fresh version of a key which a provider can wrap under. -/
structure FreshVersion (env : Environment δ ν)
    (keys : EnvelopeKeyLifecycleRegistry) (tenantId : String)
    (existing next : EnvelopeKeyLifecycle) (draw : Draw δ ν) : Prop where
  valid : validKey next.key = .ok ()
  tenant : next.tenantId = tenantId
  active : next.state = .active
  generation : next.generation = existing.generation + 1
  safe : SafeInteger.Safe next.generation
  created : env.isTime next.createdAt = true
  fresh : keys.lifecycle? tenantId next.key = none
  provided : ∃ provider attested wrapped,
    enabledProvider env next.key.provider = .ok provider ∧
      assertProviderAttestation env provider tenantId next.key =
        .ok attested ∧
      provider.wrapDataKey next.key tenantId draw.dataKey draw.wrapping =
        .ok wrapped

theorem mem_dropWhile {α : Type} {drops : α → Bool} {item : α}
    {items : List α} (member : item ∈ items) (kept : drops item = false) :
    item ∈ items.dropWhile drops := by
  induction items with
  | nil => cases member
  | cons first rest inductionHypothesis =>
    rw [List.dropWhile_cons]
    split
    · next dropped =>
        rcases List.mem_cons.mp member with rfl | later
        · cases kept.symm.trans dropped
        · exact inductionHypothesis later
    · exact member

theorem trim_ne_empty {text : String} {char : Char}
    (member : char ∈ text.toList) (kept : Text.isTrimmed char = false) :
    Text.trim text ≠ "" := by
  intro empty
  have chars := congrArg String.toList empty
  rw [Text.trim, String.toList_ofList] at chars
  have inside : char ∈ (((text.toList.dropWhile
      Text.isTrimmed).reverse.dropWhile Text.isTrimmed).reverse) :=
    List.mem_reverse.mpr (mem_dropWhile
      (List.mem_reverse.mpr (mem_dropWhile member kept)) kept)
  rw [chars] at inside
  cases inside

section Moves

variable {env : Environment δ ν} {vault : EnvelopeSecretVault δ ν}

variable {context : SecretAccessContext}

theorem validContext_forRotation (valid : validContext env context = .ok ()) :
    validContext env context.forRotation = .ok () := by
  simp only [validContext, bind_eq_ok, throwIf_eq_ok, exists_const] at valid ⊢
  obtain ⟨tenant, actor, correlation, _, time⟩ := valid
  refine ⟨tenant, actor, correlation, ?_, time⟩
  have member : ':' ∈
      (context.purpose ++ ":read_for_rotation").toList := by
    rw [String.toList_append, List.mem_append]
    exact .inr (by decide)
  exact trim_ne_empty member (by decide)

theorem resume_reading {place : Nat} {opened : Outcome String}
    {envelope : EnvelopeSecret} {next existing : EnvelopeKeyLifecycle}
    {context : SecretAccessContext} {draw : Draw δ ν} {plaintext : String}
    (waiting : vault.pending[place]? =
      some (.reading opened envelope next context draw))
    (read : opened.result = .ok plaintext)
    (admitted : vault.keys.assertRotation env context.tenantId envelope.key
      next context.«at» = .ok existing) :
    vault.resume env place =
      { vault with
        pending := vault.pending.set place (.replacing plaintext
          (encryptUnder env envelope.secretId plaintext next.generation
            next.key context .rotate draw) envelope next context)
        events := vault.events ++ opened.events } := by
  rw [EnvelopeSecretVault.resume, waiting]
  dsimp only
  rw [EnvelopeSecretVault.resumeReading, read]
  dsimp only
  rw [admitted]

theorem resume_refused {place : Nat} {opened : Outcome String}
    {envelope : EnvelopeSecret} {next : EnvelopeKeyLifecycle}
    {context : SecretAccessContext} {draw : Draw δ ν}
    {plaintext failure : String}
    (waiting : vault.pending[place]? =
      some (.reading opened envelope next context draw))
    (read : opened.result = .ok plaintext)
    (refused : vault.keys.assertRotation env context.tenantId envelope.key
      next context.«at» = .error failure) :
    vault.resume env place = vault.answered place opened.events
      (.rotated envelope next context (.error failure)) := by
  rw [EnvelopeSecretVault.resume, waiting]
  dsimp only
  rw [EnvelopeSecretVault.resumeReading, read]
  dsimp only
  rw [refused]

theorem resume_replacing {place : Nat} {plaintext : String}
    {outcome : Outcome EnvelopeSecret} {envelope secret : EnvelopeSecret}
    {next : EnvelopeKeyLifecycle} {keys : EnvelopeKeyLifecycleRegistry}
    (waiting : vault.pending[place]? = some (.replacing plaintext outcome
      envelope next context)) (made : outcome.result = .ok secret)
    (rotated : vault.keys.rotate env context.tenantId envelope.key next
      context.«at» = .ok keys) :
    vault.resume env place =
      { vault.answered place outcome.events
          (.rotated envelope next context (.ok (plaintext, secret))) with
        keys := keys } := by
  rw [EnvelopeSecretVault.resume, waiting]
  dsimp only
  rw [EnvelopeSecretVault.resumeReplacing, made]
  dsimp only
  rw [rotated]

theorem exists_encryptUnder {secretId plaintext : String} {generation : Int}
    {key : EnvelopeKeyReference} {context : SecretAccessContext}
    {operation : Operation} {draw : Draw δ ν}
    {provider : KeyEncryptionKeyProvider δ ν}
    {attested : EnvelopeKeyAttestation} {wrapped : String}
    (enabled : enabledProvider env key.provider = .ok provider)
    (attests : assertProviderAttestation env provider context.tenantId key =
      .ok attested)
    (wraps : provider.wrapDataKey key context.tenantId draw.dataKey
      draw.wrapping = .ok wrapped) :
    ∃ secret, (encryptUnder env secretId plaintext generation key context
      operation draw).result = .ok secret := by
  have sealing : ∃ secret, sealUnder env provider secretId plaintext
      generation key context draw = .ok secret := by
    simp only [sealUnder, bind_eq_ok, pure_eq_ok]
    exact ⟨_, attested, attests, wrapped, wraps, rfl⟩
  obtain ⟨secret, made⟩ := sealing
  refine ⟨secret, ?_⟩
  rw [encryptUnder, enabled]
  dsimp only
  rw [made]

theorem Sound.decrypts (sound : Sound env vault) (ideal : env.Ideal)
    {plaintext : String} {secret : EnvelopeSecret}
    (issued : vault.Issued plaintext secret)
    {lifecycle : EnvelopeKeyLifecycle}
    (found : vault.keys.lifecycle? secret.tenantId secret.key = some
      lifecycle) (unrevoked : lifecycle.state ≠ .revoked)
    (valid : validContext env context = .ok ())
    (tenant : context.tenantId = secret.tenantId) :
    (decrypt env vault.keys secret context).result = .ok plaintext := by
  obtain ⟨seals, other, here, generation⟩ := sound.issued _ _ issued
  cases found.symm.trans here
  obtain ⟨safe, positive⟩ := sound.whole _ _ found
  exact decrypt_of_seals ideal seals found unrevoked generation
    (generation ▸ safe) (generation ▸ positive) valid tenant

end Moves

end Mendpoint.Vault
