import Mendpoint.Warden.Encode

/-!
# The next runtime state

`validateWardenRuntimeStateTransition`: what may follow a state.  Events, calls
of the model and receipts are appended; a pending effect is prepared,
dispatched, completed and then resolved by its receipt.
-/

namespace Mendpoint.Warden

open Library Library.Fallible

variable (host : Host)

/-- `canonical(left) === canonical(right)` -/
def same (left right : Json) : Prop :=
  canonical host left = canonical host right

instance (left right : Json) : Decidable (same host left right) :=
  inferInstanceAs (Decidable (_ = _))

/-- The first values are the first of the second, one by one. -/
def keepsFront (first second : List Json) : Prop :=
  first.map (canonical host) <+: second.map (canonical host)

instance (first second : List Json) : Decidable (keepsFront host first second) :=
  inferInstanceAs (Decidable (_ <+: _))

/-- Every value occurs in the second list as often as in the first. -/
def retained (first second : List Json) : Prop :=
  ∀ value ∈ first, (first.map (canonical host)).count (canonical host value) ≤
    (second.map (canonical host)).count (canonical host value)

instance (first second : List Json) : Decidable (retained host first second) :=
  inferInstanceAs (Decidable (∀ _ ∈ _, _))

/-- `reject(field)`, unless something holds. -/
def demand (holds : Prop) [Decidable holds] (field : String) :
    Except String Unit :=
  throwIf (¬ holds) ("warden_runtime_state_transition_invalid:" ++ field)

/-! ## What stays -/

def validateIdentity (current next : PrivateRuntimeState) :
    Except String Unit := do
  demand (next.generation = current.generation + 1) "generation"
  demand (same host next.binding.toJson current.binding.toJson) "binding"
  demand (next.workspaceName = current.workspaceName) "workspace"
  demand (next.executorDigest = current.executorDigest) "executor"
  demand (next.phase = .terminal → current.phase = .agentRunning) "phase"
  demand (current.phase = .terminal → next.phase = .terminal) "phase"
  demand (same host
      (.arr (next.sourceManifest.map RuntimeManifestEntry.toJson))
      (.arr (current.sourceManifest.map RuntimeManifestEntry.toJson)))
    "source_manifest"

def validateHistory (current next : PrivateRuntimeState) :
    Except String Unit := do
  demand (keepsFront host (current.events.map RuntimeEvent.toJson)
    (next.events.map RuntimeEvent.toJson)) "events"
  demand (keepsFront host (current.modelCalls.map RuntimeModelCall.toJson)
    (next.modelCalls.map RuntimeModelCall.toJson)) "model_calls"
  demand (keepsFront host current.privateHistory next.privateHistory)
    "private_history"
  demand (same host current.privateState next.privateState ∨
      (next.privateHistory[current.privateHistory.length]?).map
        (canonical host) = some (canonical host current.privateState))
    "private_state"

def validateRetained (current next : PrivateRuntimeState) :
    Except String Unit := do
  demand (retained host
    (current.sourceEvidence.map CheckpointSourceEvidence.toJson)
    (next.sourceEvidence.map CheckpointSourceEvidence.toJson))
    "source_evidence"
  demand (retained host (current.observedDirectories.map .str)
    (next.observedDirectories.map .str)) "directories"
  demand (retained host current.searches next.searches) "searches"
  demand (retained host
    (current.rollbackPreimages.map RollbackPreimage.toJson)
    (next.rollbackPreimages.map RollbackPreimage.toJson)) "rollback"
  demand (retained host (current.blobs.map RuntimeBlob.toJson)
    (next.blobs.map RuntimeBlob.toJson)) "blobs"
  demand (keepsFront host
    (current.effectReceipts.map RuntimeEffectReceipt.toJson)
    (next.effectReceipts.map RuntimeEffectReceipt.toJson)) "effect_receipts"

/-! ## What is appended -/

def appendedEvents (current next : PrivateRuntimeState) :
    List RuntimeEvent :=
  next.events.drop current.events.length

def appendedReceipts (current next : PrivateRuntimeState) :
    List RuntimeEffectReceipt :=
  next.effectReceipts.drop current.effectReceipts.length

def appendedModelCalls (current next : PrivateRuntimeState) :
    List RuntimeModelCall :=
  next.modelCalls.drop current.modelCalls.length

/-- The receipt which an appended event uses is of an earlier state. -/
def validateReceiptKnown (current : PrivateRuntimeState)
    (event : RuntimeEvent) : Except String Unit :=
  demand (∃ receipt ∈ modelReceipts current.effectReceipts,
    some receipt.effectId = event.modelEffectId) "model_event"

def validatePlanned (current : PrivateRuntimeState) (event : RuntimeEvent) :
    Except String Unit := do
  let call ← jsonRecord (some event.call) "warden_runtime_state_event_invalid"
  demand (textAt call "tool" = some event.tool.text) "model_event"
  demand (∃ receipt ∈ modelReceipts current.effectReceipts,
    some receipt.effectId = event.modelEffectId ∧ receipt.plannedCallDigest =
      some (digestOf host (event.modelPlannedCall.getD event.call)))
    "model_event"

/-- Every receipt is appended with the call which it accounts for. -/
def receiptAccountingInvalid (receipts : List RuntimeEffectReceipt)
    (calls : List RuntimeModelCall) : Prop :=
  ∃ placed ∈ receipts.zipIdx,
    accountingText host placed.1.modelAccounting ≠
      accountingText host calls[placed.2]?

instance (receipts : List RuntimeEffectReceipt)
    (calls : List RuntimeModelCall) :
    Decidable (receiptAccountingInvalid host receipts calls) :=
  inferInstanceAs (Decidable (∃ _ ∈ _, _))

/-- Calls are appended with a receipt, or with the events which they planned. -/
def validateModelAppended (current next : PrivateRuntimeState) :
    Except String Unit := do
  let events := appendedEvents current next
  let calls := appendedModelCalls current next
  let receipts := modelReceipts (appendedReceipts current next)
  eachOnce RuntimeEvent.modelEffectId
    ("warden_runtime_state_transition_invalid:" ++ "model_event")
    (validateReceiptKnown current) (validatePlanned host current)
    (current.events.filterMap fun event =>
      event.modelEffectId.map some) (usingEvents events)
  demand (¬ ((∃ event ∈ events, event.plannerSource = .model ∧
        event.executed = false) ∨
      (receipts ≠ [] ∧ (calls.length ≠ receipts.length ∨
        (succeededCalls calls).length ≠ receipts.length ∨
        modelEvents events ≠ [])) ∨
      receiptAccountingInvalid host receipts calls ∨
      (receipts = [] ∧ (legacyModelEvents events).length ≠
        (succeededCalls calls).length))) "model_calls"

/-! ## The pending effect -/

/-- The same effect is still pending, in one of some states. -/
def stillPending (effect : RuntimePendingEffect) (states : List EffectState)
    (next : Option RuntimePendingEffect) : Prop :=
  ∃ other ∈ next, other.kind = effect.kind ∧
    other.effectId = effect.effectId ∧
    other.requestDigest = effect.requestDigest ∧ other.state ∈ states

instance (effect : RuntimePendingEffect) (states : List EffectState)
    (next : Option RuntimePendingEffect) :
    Decidable (stillPending effect states next) :=
  inferInstanceAs (Decidable (∃ _ ∈ _, _))

/-- The event of an effect tells of it, and its result is the stored one. -/
def effectEventValid (next : PrivateRuntimeState)
    (effect : RuntimePendingEffect) (events : List RuntimeEvent) :
    Except String Bool :=
  if isEventKind effect.kind = true then
    match events with
    | [event] =>
      if event.effectId = some effect.effectId ∧
          event.category = categoryOf effect.kind ∧
          event.executed = true then
        match next.blobs.find? fun blob =>
          decide (some blob.digest = effect.resultDigest) with
        | none => .ok false
        | some blob => do
            let result ← effectEventResultFromBytes host
              (Base64.decode blob.contentBase64)
            return decide (same host result event.result)
      else .ok false
    | _ => .ok false
  else
    .ok (!events.any fun event =>
      decide (event.effectId = some effect.effectId))

/-- The receipt of an effect is what the effect was. -/
def isReceiptOf (effect : RuntimePendingEffect)
    (receipt : RuntimeEffectReceipt) : Prop :=
  receipt.kind = effect.kind ∧ receipt.effectId = effect.effectId ∧
    receipt.requestDigest = effect.requestDigest ∧
    some receipt.resultDigest = effect.resultDigest

instance (effect : RuntimePendingEffect) (receipt : RuntimeEffectReceipt) :
    Decidable (isReceiptOf effect receipt) :=
  inferInstanceAs (Decidable (_ ∧ _))

/-- A resolved effect leaves its one receipt. -/
def leavesReceipt (effect : RuntimePendingEffect)
    (receipts : List RuntimeEffectReceipt) : Prop :=
  receipts.length = 1 ∧ ∀ receipt ∈ receipts, isReceiptOf effect receipt

instance (effect : RuntimePendingEffect)
    (receipts : List RuntimeEffectReceipt) :
    Decidable (leavesReceipt effect receipts) :=
  inferInstanceAs (Decidable (_ ∧ _))

def pendingEffectInvalid : String :=
  "warden_runtime_state_pending_effect_transition_invalid"

def validateResolved (current next : PrivateRuntimeState)
    (effect : RuntimePendingEffect) : Except String Unit := do
  let eventValid ← effectEventValid host next effect
    (appendedEvents current next)
  throwIf (¬ leavesReceipt effect (appendedReceipts current next) ∨
    eventValid = false) pendingEffectInvalid

def validatePendingTransition (current next : PrivateRuntimeState) :
    Except String Unit :=
  match current.pendingEffect with
  | none =>
    throwIf (appendedReceipts current next ≠ [] ∨
      ∃ effect ∈ next.pendingEffect, effect.state ≠ .prepared)
      pendingEffectInvalid
  | some effect =>
    match effect.state with
    | .prepared =>
      throwIf (appendedReceipts current next ≠ [] ∨
        ¬ stillPending effect [.prepared, .dispatched] next.pendingEffect)
        pendingEffectInvalid
    | .dispatched =>
      throwIf (appendedReceipts current next ≠ [] ∨
        ¬ stillPending effect [.dispatched, .completed] next.pendingEffect)
        pendingEffectInvalid
    | .completed =>
      if next.pendingEffect.isNone = true then
        validateResolved host current next effect
      else
        throwIf (appendedReceipts current next ≠ [] ∨
          ¬ stillPending effect [.completed] next.pendingEffect ∨
          ∀ other ∈ next.pendingEffect,
            other.resultDigest ≠ effect.resultDigest)
          pendingEffectInvalid

def validateWardenRuntimeStateTransition
    (current next : PrivateRuntimeState) : Except String Unit := do
  validateIdentity host current next
  validateHistory host current next
  validateRetained host current next
  validateModelAppended host current next
  validatePendingTransition host current next

end Mendpoint.Warden
