import Mendpoint.Library.Run
import Mendpoint.Vault.Envelope

/-!
# Calls of a vault

A call of a vault waits for its providers, and other calls go on meanwhile.
An encryption and a decryption read the registry before they first wait; a
rotation reads it again after its decryption, and once more when it changes it.
-/

namespace Mendpoint.Vault

open Mendpoint.Library
open Mendpoint.Library.Fallible

variable {δ ν : Type}

/-! ## States -/

/-- A call which waits, with what it goes on with. -/
inductive Pending (δ ν : Type) where
  | encrypting (plaintext : String) (outcome : Outcome EnvelopeSecret)
  | decrypting (envelope : EnvelopeSecret) (context : SecretAccessContext)
      (outcome : Outcome String)
  | reading (opened : Outcome String) (envelope : EnvelopeSecret)
      (next : EnvelopeKeyLifecycle) (context : SecretAccessContext)
      (draw : Draw δ ν)
  | replacing (plaintext : String) (outcome : Outcome EnvelopeSecret)
      (envelope : EnvelopeSecret) (next : EnvelopeKeyLifecycle)
      (context : SecretAccessContext)

/-- What a call has returned; a rotation also tells which text it moved. -/
inductive Answer where
  | encrypted (plaintext : String) (result : Except String EnvelopeSecret)
  | decrypted (envelope : EnvelopeSecret) (context : SecretAccessContext)
      (result : Except String String)
  | rotated (envelope : EnvelopeSecret) (next : EnvelopeKeyLifecycle)
      (context : SecretAccessContext)
      (result : Except String (String × EnvelopeSecret))

/-- The answer hands out an envelope with a text. -/
def Answer.Issues (plaintext : String) (secret : EnvelopeSecret)
    (answer : Answer) : Prop :=
  answer = .encrypted plaintext (.ok secret) ∨
    ∃ envelope next context,
      answer = .rotated envelope next context (.ok (plaintext, secret))

structure EnvelopeSecretVault (δ ν : Type) where
  keys : EnvelopeKeyLifecycleRegistry
  pending : List (Pending δ ν)
  answers : List Answer
  events : List EnvelopeAccessAuditEvent

namespace EnvelopeSecretVault

/-- A vault over an empty registry. -/
def start : EnvelopeSecretVault δ ν where
  keys := .empty
  pending := []
  answers := []
  events := []

/-- The call at a place has returned. -/
def answered (vault : EnvelopeSecretVault δ ν) (place : Nat)
    (events : List EnvelopeAccessAuditEvent) (answer : Answer) :
    EnvelopeSecretVault δ ν :=
  { vault with
    pending := vault.pending.eraseIdx place
    answers := vault.answers ++ [answer]
    events := vault.events ++ events }

/-- The vault has handed out an envelope with a text. -/
def Issued (vault : EnvelopeSecretVault δ ν) (plaintext : String)
    (secret : EnvelopeSecret) : Prop :=
  ∃ answer ∈ vault.answers, answer.Issues plaintext secret

end EnvelopeSecretVault

/-! ## Steps -/

/-- What the world asks of a vault; `resume` lets a waiting call go on. -/
inductive Act (δ ν : Type) where
  | register (input : EnvelopeKeyLifecycle)
  | revoke (tenantId : String) (key : EnvelopeKeyReference)
      (revokedAt reason : String)
  | encrypt (secretId plaintext : String) (key : EnvelopeKeyReference)
      (context : SecretAccessContext) (operation : Operation)
      (draw : Draw δ ν)
  | decrypt (envelope : EnvelopeSecret) (context : SecretAccessContext)
  | rotate (envelope : EnvelopeSecret) (next : EnvelopeKeyLifecycle)
      (context : SecretAccessContext) (draw : Draw δ ν)
  | resume (place : Nat)

/-- The context in which a rotation reads the secret. -/
def SecretAccessContext.forRotation (context : SecretAccessContext) :
    SecretAccessContext :=
  { context with purpose := context.purpose ++ ":read_for_rotation" }

@[simp]
theorem SecretAccessContext.tenantId_forRotation
    (context : SecretAccessContext) :
    context.forRotation.tenantId = context.tenantId := rfl

variable (env : Environment δ ν)

/-- `rotate`, once its decryption has returned. -/
def EnvelopeSecretVault.resumeReading (vault : EnvelopeSecretVault δ ν)
    (place : Nat)
    (opened : Outcome String) (envelope : EnvelopeSecret)
    (next : EnvelopeKeyLifecycle) (context : SecretAccessContext)
    (draw : Draw δ ν) : EnvelopeSecretVault δ ν :=
  let fails := fun failure => vault.answered place opened.events
    (.rotated envelope next context (.error failure))
  match opened.result with
  | .error failure => fails failure
  | .ok plaintext =>
    match vault.keys.assertRotation env context.tenantId envelope.key next
        context.«at» with
    | .error failure => fails failure
    | .ok _ =>
      let outcome := encryptUnder env envelope.secretId plaintext
        next.generation next.key context .rotate draw
      { vault with
        pending := vault.pending.set place
          (.replacing plaintext outcome envelope next context)
        events := vault.events ++ opened.events }

/-- `rotate`, once its encryption has returned. -/
def EnvelopeSecretVault.resumeReplacing (vault : EnvelopeSecretVault δ ν)
    (place : Nat)
    (plaintext : String) (outcome : Outcome EnvelopeSecret)
    (envelope : EnvelopeSecret) (next : EnvelopeKeyLifecycle)
    (context : SecretAccessContext) : EnvelopeSecretVault δ ν :=
  let ends := fun result => vault.answered place outcome.events
    (.rotated envelope next context result)
  match outcome.result with
  | .error failure => ends (.error failure)
  | .ok secret =>
    match vault.keys.rotate env context.tenantId envelope.key next
        context.«at» with
    | .error failure => ends (.error failure)
    | .ok keys => { ends (.ok (plaintext, secret)) with keys := keys }

/-- A waiting call goes on. -/
def EnvelopeSecretVault.resume (vault : EnvelopeSecretVault δ ν)
    (place : Nat) : EnvelopeSecretVault δ ν :=
  match vault.pending[place]? with
  | none => vault
  | some (.encrypting plaintext outcome) =>
    vault.answered place outcome.events
      (.encrypted plaintext outcome.result)
  | some (.decrypting envelope context outcome) =>
    vault.answered place outcome.events
      (.decrypted envelope context outcome.result)
  | some (.reading opened envelope next context draw) =>
    vault.resumeReading env place opened envelope next context draw
  | some (.replacing plaintext outcome envelope next context) =>
    vault.resumeReplacing env place plaintext outcome envelope next context

/-- The vault after an operation on its registry, which may fail. -/
def EnvelopeSecretVault.withKeys (vault : EnvelopeSecretVault δ ν)
    (result : Except String EnvelopeKeyLifecycleRegistry) :
    EnvelopeSecretVault δ ν :=
  match result with
  | .error _ => vault
  | .ok keys => { vault with keys := keys }

def EnvelopeSecretVault.begin (vault : EnvelopeSecretVault δ ν)
    (call : Pending δ ν) : EnvelopeSecretVault δ ν :=
  { vault with pending := vault.pending ++ [call] }

def step (vault : EnvelopeSecretVault δ ν) :
    Act δ ν → EnvelopeSecretVault δ ν
  | .register input => vault.withKeys (vault.keys.register env input)
  | .revoke tenantId key revokedAt reason =>
    vault.withKeys (vault.keys.revoke env tenantId key revokedAt reason)
  | .encrypt secretId plaintext key context operation draw =>
    vault.begin (.encrypting plaintext
      (encrypt env vault.keys secretId plaintext key context operation
        draw))
  | .decrypt envelope context =>
    vault.begin (.decrypting envelope context
      (decrypt env vault.keys envelope context))
  | .rotate envelope next context draw =>
    vault.begin (.reading
      (decrypt env vault.keys envelope context.forRotation) envelope next
      context draw)
  | .resume place => vault.resume env place

/-- The vault after calls and resumptions in some order. -/
def EnvelopeSecretVault.after (acts : List (Act δ ν))
    (vault : EnvelopeSecretVault δ ν) : EnvelopeSecretVault δ ν :=
  Run.run (step env) vault acts

/-! ## What the parts of a call have done -/

section Outcomes

variable {env}

variable {keys : EnvelopeKeyLifecycleRegistry} {tenantId : String}
  {key : EnvelopeKeyReference}

theorem ok_of_register {registered : EnvelopeKeyLifecycleRegistry}
    {input : EnvelopeKeyLifecycle}
    (done : keys.register env input = .ok registered) :
    SafeInteger.Safe input.generation ∧ 1 ≤ input.generation ∧
      keys.get? (keyIdentity input.tenantId input.key) = none ∧
      registered = keys.set (keyIdentity input.tenantId input.key) input := by
  simp only [EnvelopeKeyLifecycleRegistry.register, bind_eq_ok,
    throwIf_eq_ok, exists_const, pure_eq_ok] at done
  obtain ⟨_, _, generation, _, fresh, same⟩ := done
  rw [not_or, not_not, not_lt] at generation
  refine ⟨generation.1, generation.2, ?_, same.symm⟩
  rw [OrderedMap.has_iff] at fresh
  exact (OrderedMap.not_mem_keys_iff _ _).mp fresh

theorem assertEncryptable_eq_ok {lifecycle : EnvelopeKeyLifecycle} :
    keys.assertEncryptable tenantId key = .ok lifecycle ↔
      keys.lifecycle? tenantId key = some lifecycle ∧
        lifecycle.state = .active := by
  rw [EnvelopeKeyLifecycleRegistry.assertEncryptable]
  cases keys.lifecycle? tenantId key with
  | none => simp
  | some found =>
    simp only [Option.some.injEq]
    split
    · next inactive =>
        constructor
        · intro impossible
          cases impossible
        · rintro ⟨rfl, active⟩
          exact absurd active inactive
    · next active =>
        rw [Except.ok.injEq]
        refine ⟨?_, And.left⟩
        rintro rfl
        exact ⟨rfl, not_not.mp active⟩

theorem assertDecryptable_eq_ok {lifecycle : EnvelopeKeyLifecycle} :
    keys.assertDecryptable tenantId key = .ok lifecycle ↔
      keys.lifecycle? tenantId key = some lifecycle ∧
        lifecycle.state ≠ .revoked := by
  rw [EnvelopeKeyLifecycleRegistry.assertDecryptable]
  cases keys.lifecycle? tenantId key with
  | none => simp
  | some found =>
    simp only [Option.some.injEq]
    split
    · next revoked =>
        constructor
        · intro impossible
          cases impossible
        · rintro ⟨rfl, unrevoked⟩
          exact absurd revoked unrevoked
    · next unrevoked =>
        rw [Except.ok.injEq]
        refine ⟨?_, And.left⟩
        rintro rfl
        exact ⟨rfl, unrevoked⟩

theorem assertRotation_eq_ok {rotatedAt : String}
    {current : EnvelopeKeyReference} {next existing : EnvelopeKeyLifecycle} :
    keys.assertRotation env tenantId current next rotatedAt = .ok existing ↔
      keys.lifecycle? tenantId current = some existing ∧
        existing.state = .active ∧ validKey next.key = .ok () ∧
        next.tenantId = tenantId ∧ next.state = .active ∧
        next.generation = existing.generation + 1 ∧
        env.isTime next.createdAt = true ∧ env.isTime rotatedAt = true ∧
        keys.lifecycle? tenantId next.key = none := by
  simp only [EnvelopeKeyLifecycleRegistry.assertRotation, bind_eq_ok,
    throwIf_eq_ok, exists_const, pure_eq_ok, assertEncryptable_eq_ok, not_or,
    not_not, Bool.not_eq_false]
  constructor
  · rintro ⟨found, ⟨here, active⟩, ⟨⟩, valid, ⟨tenant, fresh⟩, generation,
      created, rotated, absent, rfl⟩
    exact ⟨here, active, valid, tenant, fresh, generation, created, rotated,
      absent⟩
  · rintro ⟨here, active, valid, tenant, fresh, generation, created, rotated,
      absent⟩
    exact ⟨existing, ⟨here, active⟩, (), valid, ⟨tenant, fresh⟩,
      generation, created, rotated, absent, rfl⟩

theorem ok_of_rotate {rotated : EnvelopeKeyLifecycleRegistry}
    {rotatedAt : String} {current : EnvelopeKeyReference}
    {next : EnvelopeKeyLifecycle}
    (done : keys.rotate env tenantId current next rotatedAt = .ok rotated) :
    ∃ existing,
      keys.assertRotation env tenantId current next rotatedAt =
        .ok existing ∧
      SafeInteger.Safe next.generation ∧ 1 ≤ next.generation ∧
      rotated = (keys.set (keyIdentity tenantId next.key) next).set
        (keyIdentity tenantId current)
        { existing with state := .retired, rotatedAt := some rotatedAt } := by
  simp only [EnvelopeKeyLifecycleRegistry.rotate, bind_eq_ok,
    pure_eq_ok] at done
  obtain ⟨existing, admitted, registered, done, rfl⟩ := done
  obtain ⟨safe, positive, _, rfl⟩ := ok_of_register done
  have tenant := (assertRotation_eq_ok.mp admitted).2.2.2.1
  exact ⟨existing, admitted, safe, positive, by rw [tenant]⟩

theorem ok_of_revoke {revoked : EnvelopeKeyLifecycleRegistry}
    {revokedAt reason : String}
    (done : keys.revoke env tenantId key revokedAt reason = .ok revoked) :
    ∃ existing, keys.lifecycle? tenantId key = some existing ∧
      ((existing.state = .revoked ∧ revoked = keys) ∨
        ∃ later, later.generation = existing.generation ∧
          later.state = .revoked ∧
          revoked = keys.set (keyIdentity tenantId key) later) := by
  rw [EnvelopeKeyLifecycleRegistry.revoke] at done
  cases found : keys.lifecycle? tenantId key with
  | none =>
    rw [found] at done
    cases done
  | some existing =>
    rw [found] at done
    dsimp only at done
    refine ⟨existing, rfl, ?_⟩
    split at done
    · next already =>
        cases done
        exact .inl ⟨already, rfl⟩
    · split at done
      · cases done
      · cases done
        refine .inr ⟨{ existing with
          state := .revoked
          revokedAt := some revokedAt
          revocationReason := some reason }, ?_⟩
        exact ⟨rfl, rfl, rfl⟩

end Outcomes

end Mendpoint.Vault
