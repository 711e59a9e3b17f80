import Mendpoint.Warden.Validate

/-!
# Writing a runtime state

`validateState`, part by part in the order of the source, and
`encodeWardenRuntimeState`, which writes what it accepts in canonical order.
-/

namespace Mendpoint.Warden

open Library Library.Fallible

variable (host : Host)

/-! ## The state and its manifests -/

def validateHeader (state : PrivateRuntimeState) : Except String Unit := do
  throwIf (state.schemaVersion ≠ 1) "warden_runtime_state_invalid"
  validateBinding state.binding
  positive state.generation "warden_runtime_state_generation_invalid"
  positive state.writerLeaseGeneration "warden_runtime_state_lease_invalid"
  throwIf (isWorkspace state.workspaceName = false ∨
      state.previousEnvelopeDigest.any (fun digest =>
        !Pattern.isDigest digest) = true ∨
      (IsoTime.Instant.parse? state.createdAt).isNone = true)
    "warden_runtime_state_invalid"
  validDigest state.executorDigest "warden_runtime_state_invalid"

def validateManifests (state : PrivateRuntimeState) : Except String Unit := do
  validateManifest host state.sourceManifest
    "warden_runtime_state_source_manifest_invalid"
  let digest ← createWardenRuntimeManifestDigest host state.sourceManifest
  throwIf (digest ≠ state.binding.sourceManifestSha256)
    "warden_runtime_state_source_manifest_invalid"
  validateManifest host state.workspaceManifest
    "warden_runtime_state_workspace_manifest_invalid"

/-- The entries of a manifest by their paths. -/
def entriesByPath (entries : List RuntimeManifestEntry) :
    OrderedMap String RuntimeManifestEntry :=
  .ofList (entries.map fun entry => (entry.path, entry))

/-- Evidence is of a file of the source, as it is there. -/
def validateEvidenceSource (manifest : List RuntimeManifestEntry)
    (evidence : CheckpointSourceEvidence) : Except String Unit :=
  throwIf (¬ ((entriesByPath manifest).get? evidence.path).any
      (fun entry => decide (entry.digest = evidence.digest ∧
        entry.bytes = evidence.bytes)) = true)
    "warden_runtime_state_source_evidence_invalid"

def validateObserved (state : PrivateRuntimeState) : Except String Unit := do
  validateEvidence state.sourceEvidence
  state.sourceEvidence.forM (validateEvidenceSource state.sourceManifest)
  throwIf (maxCollection < state.observedDirectories.length ∨
      ¬ state.observedDirectories.Nodup)
    "warden_runtime_state_directories_invalid"
  state.observedDirectories.forM fun path =>
    validPath path "warden_runtime_state_directories_invalid"
  throwIf (maxCollection < state.searches.length)
    "warden_runtime_state_searches_invalid"
  state.searches.forM (validateJson 0)

def validateAccounts (state : PrivateRuntimeState) : Except String Unit := do
  throwIf (256 < state.modelCalls.length)
    "warden_runtime_state_accounting_invalid"
  state.modelCalls.forM validateModelCall
  [state.sourceCounters.observedBytes, state.sourceCounters.searchBytes,
    state.sourceCounters.changedBytes, state.sourceCounters.groundedMutations,
    state.sourceCounters.blockedMutations].forM fun value =>
      nonnegative value "warden_runtime_state_counters_invalid"
  validateJson 0 state.privateState
  throwIf (isRecord state.privateState = false)
    "warden_runtime_state_private_invalid"
  throwIf (maxCollection < state.privateHistory.length)
    "warden_runtime_state_private_invalid"
  state.privateHistory.forM (validateJson 0)

/-! ## Preimages and blobs -/

def validatePreimage (preimage : RollbackPreimage) : Except String Unit := do
  let code := "warden_runtime_state_rollback_invalid"
  validPath preimage.path code
  throwIf (preimage.existed ≠ preimage.blobDigest.isSome) code
  preimage.blobDigest.toList.forM fun digest => validDigest digest code

def validatePreimages (state : PrivateRuntimeState) : Except String Unit := do
  let code := "warden_runtime_state_rollback_invalid"
  throwIf (maxCollection < state.rollbackPreimages.length) code
  eachOnce (fun preimage => host.toLowerCase preimage.path) code
    validatePreimage (fun _ => .ok ()) [] state.rollbackPreimages

def validateBlob (blob : RuntimeBlob) : Except String Unit := do
  let code := "warden_runtime_state_blob_invalid"
  validDigest blob.digest code
  nonnegative blob.bytes code
  let content := Base64.decode blob.contentBase64
  throwIf (Base64.encode content ≠ blob.contentBase64 ∨
      (content.size : ℚ) ≠ blob.bytes ∨ sha256 host content ≠ blob.digest) code

def validateBlobs (state : PrivateRuntimeState) : Except String Unit := do
  let code := "warden_runtime_state_blob_invalid"
  throwIf (maxCollection < state.blobs.length) code
  eachOnce RuntimeBlob.digest code (validateBlob host) (fun _ => .ok ()) []
    state.blobs

/-! ## Receipts and events -/

/-- A call as text, where an undefined one is nothing. -/
def accountingText (call : Option RuntimeModelCall) : Option String :=
  call.map fun call => canonical host call.toJson

/-- The stored result of a call of the model is that of its receipt. -/
def validateModelReceipt (state : PrivateRuntimeState)
    (receipt : RuntimeEffectReceipt) : Except String Unit :=
  if receipt.kind = .model then
    match state.blobContent? receipt.resultDigest with
    | none => .error "warden_runtime_state_model_result_invalid"
    | some content => do
        let result ← modelResultFromBytes host content
        throwIf (some result.plannedCallDigest ≠ receipt.plannedCallDigest ∨
            accountingText host (some result.accounting) ≠
              accountingText host receipt.modelAccounting)
          "warden_runtime_state_model_result_invalid"
  else .ok ()

def validateReceipts (state : PrivateRuntimeState) : Except String Unit := do
  let code := "warden_runtime_state_effect_receipt_invalid"
  throwIf (maxCollection < state.effectReceipts.length) code
  eachOnce RuntimeEffectReceipt.effectId code validateEffectReceipt
    (validateModelReceipt host state) [] state.effectReceipts

/-- The events of effects, `runtimeEffectEvents`. -/
def effectEvents (events : List RuntimeEvent) : List RuntimeEvent :=
  events.filter fun event => event.effectId.isSome

/-- `receipt.kind === "tool" || receipt.kind === "verifier"` -/
def isEventKind (kind : EffectKind) : Bool :=
  decide (kind = .tool ∨ kind = .verifier)

/-- The receipts of effects which have an event. -/
def eventReceipts (receipts : List RuntimeEffectReceipt) :
    List RuntimeEffectReceipt :=
  receipts.filter fun receipt => isEventKind receipt.kind

def categoryOf (kind : EffectKind) : EventCategory :=
  if kind = .verifier then .verifier else .tool

/-- The model effect which a request names is that of the event, or null. -/
def namesModelEffect (request : Json) (event : RuntimeEvent) : Bool :=
  match event.modelEffectId with
  | none => isNull (request.get? "modelEffectId")
  | some effectId => decide (textAt request "modelEffectId" = some effectId)

/-- A request names its planner as the event does, where it names one. -/
def plannedAs (request : Json) (event : RuntimeEvent) : Prop :=
  ((request.get? "plannerSource").isSome = true →
      textAt request "plannerSource" = some event.plannerSource.text) ∧
    ((request.get? "modelEffectId").isSome = true →
      namesModelEffect request event = true) ∧
    ∀ planned ∈ request.get? "modelPlannedCall",
      canonical host planned =
        canonical host (event.modelPlannedCall.getD .null)

instance (request : Json) (event : RuntimeEvent) :
    Decidable (plannedAs host request event) :=
  inferInstanceAs (Decidable (_ ∧ _ ∧ _))

/-- The request of a receipt is the one of its event. -/
def validateRequest (content : ByteArray) (event : RuntimeEvent) :
    Except String Unit := do
  let code := "warden_runtime_state_effect_event_invalid"
  let value ← parsed host content code
  let request ← jsonRecord (some value) code
  throwIf ((request.get? "call").map (canonical host) ≠
    some (canonical host event.call)) code
  throwIf (¬ plannedAs host request event) code

/-- The result of a receipt is the one of its event. -/
def validateEffectEvent (state : PrivateRuntimeState)
    (receipt : RuntimeEffectReceipt) (event : RuntimeEvent) :
    Except String Unit :=
  match state.blobContent? receipt.requestDigest,
    state.blobContent? receipt.resultDigest with
  | some request, some content => do
      throwIf (event.category ≠ categoryOf receipt.kind)
        "warden_runtime_state_effect_event_invalid"
      let result ← effectEventResultFromBytes host content
      throwIf (canonical host result ≠ canonical host event.result)
        "warden_runtime_state_effect_event_invalid"
      validateRequest host request event
  | _, _ => .error "warden_runtime_state_effect_event_invalid"

def validateEventReceipt (state : PrivateRuntimeState)
    (receipt : RuntimeEffectReceipt) : Except String Unit :=
  match state.events.find? fun event =>
    decide (event.effectId = some receipt.effectId) with
  | some event => validateEffectEvent host state receipt event
  | none => .error "warden_runtime_state_effect_event_invalid"

def validateEffectEvents (state : PrivateRuntimeState) :
    Except String Unit := do
  eachOnce RuntimeEvent.effectId "warden_runtime_state_effect_event_invalid"
    (fun _ => .ok ()) (fun _ => .ok ()) [] (effectEvents state.events)
  (eventReceipts state.effectReceipts).forM (validateEventReceipt host state)

/-! ## Calls of the model -/

def modelReceipts (receipts : List RuntimeEffectReceipt) :
    List RuntimeEffectReceipt :=
  receipts.filter fun receipt => decide (receipt.kind = .model)

/-- The executed events which the model planned. -/
def modelEvents (events : List RuntimeEvent) : List RuntimeEvent :=
  events.filter fun event =>
    decide (event.plannerSource = .model) && event.executed

/-- The events which use the receipt of a call of the model. -/
def usingEvents (events : List RuntimeEvent) : List RuntimeEvent :=
  (modelEvents events).filter fun event => event.modelEffectId.isSome

/-- The events of a call of the model without a receipt. -/
def legacyModelEvents (events : List RuntimeEvent) : List RuntimeEvent :=
  (modelEvents events).filter fun event => event.modelEffectId.isNone

def succeededCalls (calls : List RuntimeModelCall) : List RuntimeModelCall :=
  calls.filter fun call => decide (call.status = .succeeded)

/-- The receipt which an event uses is there, and of the planned call. -/
def validateModelEvent (receipts : List RuntimeEffectReceipt)
    (event : RuntimeEvent) : Except String Unit :=
  throwIf (¬ ((modelReceipts receipts).find? fun receipt =>
        decide (some receipt.effectId = event.modelEffectId)).any
      (fun receipt => decide (receipt.plannedCallDigest =
        some (digestOf host (event.modelPlannedCall.getD event.call)))) = true)
    "warden_runtime_state_model_event_invalid"

def validateModelEvents (state : PrivateRuntimeState) :
    Except String Unit := do
  eachOnce RuntimeEvent.modelEffectId "warden_runtime_state_model_event_invalid"
    (validateModelEvent host state.effectReceipts) (fun _ => .ok ()) []
    (usingEvents state.events)
  throwIf ((succeededCalls state.modelCalls).length ≠
      (modelReceipts state.effectReceipts).length +
        (legacyModelEvents state.events).length)
    "warden_runtime_state_accounting_invalid"

/-! ## Pending effects and references -/

def validatePending (state : PrivateRuntimeState) : Except String Unit := do
  state.pendingEffect.toList.forM validatePendingEffect
  throwIf (state.pendingEffect.any (fun effect => decide (effect.effectId ∈
      state.effectReceipts.map RuntimeEffectReceipt.effectId)) = true)
    "warden_runtime_state_pending_effect_invalid"
  throwIf (state.phase = .terminal ∧ state.pendingEffect.isSome = true)
    "warden_runtime_state_terminal_effect_unresolved"

def PrivateRuntimeState.hasBlob (state : PrivateRuntimeState)
    (digest : String) : Prop :=
  digest ∈ state.blobs.map RuntimeBlob.digest

instance (state : PrivateRuntimeState) (digest : String) :
    Decidable (state.hasBlob digest) :=
  inferInstanceAs (Decidable (_ ∈ _))

/-- The digests of contents to which a state refers. -/
def PrivateRuntimeState.references (state : PrivateRuntimeState) :
    List String :=
  state.sourceEvidence.map CheckpointSourceEvidence.digest ++
    (state.workspaceManifest.filter fun entry =>
      decide (((entriesByPath state.sourceManifest).get? entry.path).map
        RuntimeManifestEntry.digest ≠ some entry.digest)).map
          RuntimeManifestEntry.digest ++
    state.rollbackPreimages.filterMap RollbackPreimage.blobDigest ++
    state.pendingEffect.toList.flatMap (fun effect =>
      effect.requestDigest :: effect.resultDigest.toList) ++
    state.effectReceipts.flatMap fun receipt =>
      [receipt.requestDigest, receipt.resultDigest]

def validateReferences (state : PrivateRuntimeState) : Except String Unit :=
  throwIf (¬ ∀ digest ∈ state.references, state.hasBlob digest)
    "warden_runtime_state_blob_reference_missing"

/-! ## Mutations -/

/-- The files which the events change, in the order of the events. -/
def mutations (events : List RuntimeEvent) :
    Except String (List MutationIdentity) :=
  (events.filter RuntimeEvent.mutation).mapM (mutationIdentity host)

/-- The last change of every file, up to the case of its path. -/
def mutationTargets (identities : List MutationIdentity) :
    OrderedMap String MutationIdentity :=
  .ofList (identities.map fun identity =>
    (host.toLowerCase identity.path, identity))

/-- A file which is gone from the workspace was deleted last. -/
def validateGone (state : PrivateRuntimeState)
    (targets : OrderedMap String MutationIdentity)
    (entry : RuntimeManifestEntry) : Except String Unit :=
  throwIf (entry.path ∉
        state.workspaceManifest.map RuntimeManifestEntry.path ∧
      (targets.get? (host.toLowerCase entry.path)).map
        MutationIdentity.digest ≠ some (absentFileEvidenceDigest host))
    "warden_runtime_state_workspace_manifest_invalid"

/-- The preimage of a file is what the source has of it. -/
def isPreimageOf (entry : Option RuntimeManifestEntry)
    (preimage : RollbackPreimage) : Prop :=
  match entry with
  | none => preimage.existed = false ∧ preimage.blobDigest = none
  | some entry =>
    preimage.existed = true ∧ preimage.blobDigest = some entry.digest

instance (entry : Option RuntimeManifestEntry) (preimage : RollbackPreimage) :
    Decidable (isPreimageOf entry preimage) :=
  match entry with
  | none => inferInstanceAs (Decidable (_ ∧ _))
  | some _ => inferInstanceAs (Decidable (_ ∧ _))

def validateTarget (state : PrivateRuntimeState)
    (identity : MutationIdentity) : Except String Unit :=
  throwIf (¬ (state.rollbackPreimages.find? fun preimage =>
        decide (host.toLowerCase preimage.path =
          host.toLowerCase identity.path)).any (fun preimage =>
      decide (preimage.path = identity.path ∧
        isPreimageOf
          ((entriesByPath state.sourceManifest).get? identity.path)
          preimage)) = true)
    "warden_runtime_state_rollback_invalid"

def validateMutations (state : PrivateRuntimeState) : Except String Unit := do
  let identities ← mutations host state.events
  let targets := mutationTargets host identities
  throwIf (targets.size ≠ state.rollbackPreimages.length)
    "warden_runtime_state_rollback_invalid"
  state.sourceManifest.forM (validateGone host state targets)
  targets.values.forM (validateTarget host state)

/-! ## The whole state -/

def validateState (state : PrivateRuntimeState) : Except String Unit := do
  validateHeader state
  validateManifests host state
  throwIf (256 < state.events.length) "warden_runtime_state_event_invalid"
  state.events.forM (validateEvent host)
  validateObserved state
  validateAccounts state
  validatePreimages host state
  validateBlobs host state
  validateReceipts host state
  validateEffectEvents host state
  validateModelEvents host state
  validatePending state
  validateReferences state
  validateMutations host state

def normalizeState (state : PrivateRuntimeState) : PrivateRuntimeState :=
  { state with
    sourceManifest := state.sourceManifest.insertionSort byPath
    workspaceManifest := state.workspaceManifest.insertionSort byPath
    sourceEvidence := state.sourceEvidence.insertionSort fun left right =>
      Text.codeUnitLe left.path right.path = true
    observedDirectories :=
      state.observedDirectories.insertionSort fun left right =>
        Text.codeUnitLe left right = true
    searches := state.searches.insertionSort fun left right =>
      Text.codeUnitLe (canonical host left) (canonical host right) = true
    rollbackPreimages := state.rollbackPreimages.insertionSort
      fun left right => Text.codeUnitLe left.path right.path = true
    blobs := state.blobs.insertionSort fun left right =>
      Text.codeUnitLe left.digest right.digest = true
  }

def encodeWardenRuntimeState (state : PrivateRuntimeState) :
    Except String ByteArray := do
  validateState host state
  let encoded := Utf8Text.encode
    (canonical host (normalizeState host state).toJson)
  throwIf (encoded.size < 1 ∨ maxRuntimeBytes < encoded.size)
    "warden_runtime_state_size_invalid"
  return encoded

end Mendpoint.Warden
