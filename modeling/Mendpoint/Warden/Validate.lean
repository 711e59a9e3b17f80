import Mendpoint.Warden.State

/-!
# Checks of a runtime state

What `encodeWardenRuntimeState` demands of the parts of a state before it
writes it.  Every check names the part by its error.
-/

namespace Mendpoint.Warden

open Library Library.Fallible

/-! ## Values -/

def maxCollection : Nat := 512

def maxManifestEntries : Nat := 50000

def maxRuntimeBytes : Nat := 64 * 1024 * 1024

def isSafeInteger (value : ℚ) : Prop :=
  value.den = 1 ∧ SafeInteger.Safe value.num

instance (value : ℚ) : Decidable (isSafeInteger value) :=
  inferInstanceAs (Decidable (_ ∧ _))

def nonnegative (value : ℚ) (code : String) : Except String Unit :=
  throwIf (¬ isSafeInteger value ∨ value < 0) code

def positive (value : ℚ) (code : String) : Except String Unit :=
  throwIf (¬ isSafeInteger value ∨ value < 1) code

/-- `CODE` -/
def isCode (text : String) : Bool :=
  Pattern.isName ['.', '_', ':', '-'] 127 text

/-- `IDENTIFIER` -/
def isIdentifier (text : String) : Bool :=
  Pattern.isName ['.', '_', ':', '-'] 255 text

/-- `WORKSPACE` -/
def isWorkspace (text : String) : Bool :=
  Pattern.isName ['.', '_', '-'] 255 text

def isLineTerminator (char : Char) : Bool :=
  char.toNat ∈ [0x0a, 0x0d, 0x2028, 0x2029]

def startsWithDrive : List Char → Bool
  | letter :: colon :: _ => letter.isAlpha && colon == ':'
  | _ => false

/-- `RELATIVE_PATH` -/
def isRelativePath (text : String) : Bool :=
  !startsWithDrive text.toList &&
    !(text.toList.head?.any fun char => char == '/' || char == '\\') &&
    !(Text.splitOn '/' (Text.replaceChar '\\' '/' text)).contains ".." &&
    !text.toList.any isLineTerminator &&
    decide (1 ≤ (Text.codeUnits text).length) &&
    decide ((Text.codeUnits text).length ≤ 1000)

def validPath (value code : String) : Except String Unit :=
  throwIf (Text.includes value "\\" = true ∨ isRelativePath value = false) code

def validDigest (value code : String) : Except String Unit :=
  throwIf (Pattern.isDigest value = false) code

mutual

/-- `validateJson`, which also tests the depth of a value. -/
def validateJson (depth : Nat) : Json → Except String Unit
  | .arr items => do
      throwIf (64 < depth) "warden_runtime_state_json_invalid"
      throwIf (10000 < items.length) "warden_runtime_state_json_invalid"
      validateItems depth items
  | .obj fields => do
      throwIf (64 < depth) "warden_runtime_state_json_invalid"
      throwIf (10000 < fields.length) "warden_runtime_state_json_invalid"
      validateFields depth fields
  | _ => throwIf (64 < depth) "warden_runtime_state_json_invalid"

def validateItems (depth : Nat) : List Json → Except String Unit
  | [] => .ok ()
  | item :: rest => do
      validateJson (depth + 1) item
      validateItems depth rest

def validateFields (depth : Nat) :
    List (String × Json) → Except String Unit
  | [] => .ok ()
  | (key, item) :: rest => do
      throwIf (key = "" ∨ 256 < (Text.codeUnits key).length)
        "warden_runtime_state_json_invalid"
      validateJson (depth + 1) item
      validateFields depth rest

end

def isRecord : Json → Bool
  | .obj _ => true
  | _ => false

/-- `jsonRecord(value, code)`, where the value may be undefined. -/
def jsonRecord (value : Option Json) (code : String) : Except String Json :=
  match value with
  | some (.obj fields) => .ok (.obj fields)
  | _ => .error code

def exactKeys (value : Json) (expected : List String) (code : String) :
    Except String Unit :=
  throwIf (Text.sortTexts value.keys ≠ Text.sortTexts expected) code

/-- The name of a member which is only expected where it is defined. -/
def ifDefined (value : Json) (name : String) : List String :=
  if (value.get? name).isSome = true then [name] else []

/-- A member which is a text, where `typeof` is `"string"`. -/
def textAt (value : Json) (name : String) : Option String :=
  (value.get? name).bind Json.text?

def jsonText (value : Option String) (code : String) : Except String String :=
  match value with
  | some text => .ok text
  | none => .error code

def jsonNumber (value : Option Json) (code : String) : Except String ℚ :=
  match value with
  | some (.num number) => .ok number
  | _ => .error code

def isBoolean : Option Json → Bool
  | some (.bool _) => true
  | _ => false

def isNumber (number : ℚ) : Option Json → Bool
  | some (.num value) => decide (value = number)
  | _ => false

/-- `value === undefined || typeof value === "string"` -/
def isOptionalText (value : Json) (name : String) : Prop :=
  (value.get? name).isSome = true → (textAt value name).isSome = true

instance (value : Json) (name : String) :
    Decidable (isOptionalText value name) :=
  inferInstanceAs (Decidable (_ → _))

/-! ## Calls of the model -/

def validateModelCall (call : RuntimeModelCall) : Except String Unit := do
  nonnegative call.promptTokens "warden_runtime_state_accounting_invalid"
  nonnegative call.completionTokens "warden_runtime_state_accounting_invalid"
  nonnegative call.totalTokens "warden_runtime_state_accounting_invalid"
  throwIf (call.totalTokens ≠ call.promptTokens + call.completionTokens ∨
      call.costUsd < 0)
    "warden_runtime_state_accounting_invalid"

def callStatus (value : Option String) (code : String) :
    Except String CallStatus :=
  if value = some "succeeded" then .ok .succeeded
  else if value = some "failed" then .ok .failed
  else .error code

/-- A call of the model which was stored, after `validateModelCall`. -/
def storedModelCall (value : Option Json) (code : String) :
    Except String RuntimeModelCall := do
  let record ← jsonRecord value code
  exactKeys record RuntimeModelCall.keys code
  let status ← callStatus (textAt record "status") code
  let promptTokens ← jsonNumber (record.get? "promptTokens") code
  let completionTokens ← jsonNumber (record.get? "completionTokens") code
  let totalTokens ← jsonNumber (record.get? "totalTokens") code
  let costUsd ← jsonNumber (record.get? "costUsd") code
  let call : RuntimeModelCall := {
    status := status
    promptTokens := promptTokens
    completionTokens := completionTokens
    totalTokens := totalTokens
    costUsd := costUsd
  }
  (validateModelCall call).mapError fun _ => code
  return call

structure ModelResult where
  plannedCallDigest : String
  accounting : RuntimeModelCall

variable (host : Host)

def parsed (content : ByteArray) (code : String) : Except String Json :=
  match host.parse content with
  | some value => .ok value
  | none => .error code

def validateTelemetry (telemetry : Json) (code : String) :
    Except String Unit := do
  exactKeys telemetry ["responseBytes", "provenance"] code
  let responseBytes ← jsonNumber (telemetry.get? "responseBytes") code
  throwIf (¬ isSafeInteger responseBytes ∨ responseBytes < 0 ∨
      ((telemetry.get? "provenance").bind Json.items?).isNone = true) code

/-- The call which the model planned, if the agent takes it as it is. -/
def plannedCall (result : Json) (code : String) : Except String Json :=
  match result.get? "call" with
  | none => .error code
  | some stored =>
    match host.validatedToolCall stored with
    | none => .error code
    | some call =>
      if canonical host call = canonical host stored then .ok call
      else .error code

def modelResultFromBytes (content : ByteArray) : Except String ModelResult := do
  let code := "warden_runtime_state_model_result_invalid"
  let value ← parsed host content code
  validateJson 0 value
  let result ← jsonRecord (some value) code
  exactKeys result (["call", "accounting"] ++ ifDefined result "telemetry") code
  let call ← plannedCall host result code
  let accounting ← storedModelCall (result.get? "accounting") code
  throwIf (accounting.status ≠ .succeeded) code
  if (result.get? "telemetry").isSome = true then
    let telemetry ← jsonRecord (result.get? "telemetry") code
    validateTelemetry telemetry code
  return { plannedCallDigest := digestOf host call, accounting := accounting }

/-! ## Results of effects -/

def failureClasses : List String :=
  ["bad_arguments", "policy_refusal", "infra_failure", "target_failure",
    "undetermined"]

/-- A stored content which is the bytes of its digest. -/
def validateStored (digest contentBase64 : Option String) (code : String) :
    Except String Unit := do
  let digest ← jsonText digest code
  let contentBase64 ← jsonText contentBase64 code
  validDigest digest code
  let content := Base64.decode contentBase64
  throwIf (Base64.encode content ≠ contentBase64 ∨
      sha256 host content ≠ digest) code

def isNull : Option Json → Bool
  | some .null => true
  | _ => false

/-- A member which is null or a text. -/
def isNullableText (value : Json) (name : String) : Prop :=
  isNull (value.get? name) = true ∨ (textAt value name).isSome = true

instance (value : Json) (name : String) :
    Decidable (isNullableText value name) :=
  inferInstanceAs (Decidable (_ ∨ _))

def isTrue : Option Json → Bool
  | some (.bool value) => value
  | _ => false

/-- What an effect tells of the file which it changed. -/
def validateMutation (mutation : Json) (code : String) :
    Except String Unit := do
  let deletion := isTrue (mutation.get? "postAbsent")
  exactKeys mutation
    (if deletion then
      ["path", "preExisted", "preDigest", "preContentBase64", "postAbsent"]
    else
      ["path", "preExisted", "preDigest", "preContentBase64", "postDigest",
        "postContentBase64"]) code
  let path ← jsonText (textAt mutation "path") code
  let preExisted := isTrue (mutation.get? "preExisted")
  throwIf (isBoolean (mutation.get? "preExisted") = false ∨
      ¬ isNullableText mutation "preDigest" ∨
      ¬ isNullableText mutation "preContentBase64" ∨
      preExisted ≠ !isNull (mutation.get? "preDigest") ∨
      preExisted ≠ !isNull (mutation.get? "preContentBase64") ∨
      (deletion = true ∧ preExisted = false) ∨
      (deletion = false ∧ ((textAt mutation "postDigest").isNone = true ∨
        (textAt mutation "postContentBase64").isNone = true))) code
  validPath path code
  if deletion = false then
    validateStored host (textAt mutation "postDigest")
      (textAt mutation "postContentBase64") code
  if preExisted = true then
    validateStored host (textAt mutation "preDigest")
      (textAt mutation "preContentBase64") code

def effectEventResultFromBytes (content : ByteArray) : Except String Json := do
  let code := "warden_runtime_state_effect_event_invalid"
  let value ← parsed host content code
  validateJson 0 value
  let envelope ← jsonRecord (some value) code
  exactKeys envelope (["result"] ++ ifDefined envelope "mutation") code
  let result ← jsonRecord (envelope.get? "result") code
  exactKeys result (["ok", "tool", "summary"] ++ ifDefined result "data" ++
    ifDefined result "error" ++ ifDefined result "failureClass") code
  let tool ← jsonText (textAt result "tool") code
  throwIf (isBoolean (result.get? "ok") = false ∨
      (textAt result "summary").isNone = true ∨
      tool ∉ toolNames.map ToolName.text ∨ ¬ isOptionalText result "error" ∨
      ((result.get? "failureClass").isSome = true ∧
        ∀ failure ∈ failureClasses,
          textAt result "failureClass" ≠ some failure)) code
  if (envelope.get? "mutation").isSome = true then
    let mutation ← jsonRecord (envelope.get? "mutation") code
    validateMutation host mutation code
  return result

/-! ## Events -/

structure MutationIdentity where
  path : String
  digest : String

def createWardenRuntimeMutationOperationDigest (tool : ToolName)
    (targetPath : String) (args : Json) : String :=
  digestOf host (.obj [("schemaVersion", .num 1), ("tool", .str tool.text),
    ("targetPath", .str targetPath), ("args", args)])

def isMutationTool (tool : ToolName) : Prop :=
  tool = .writeFile ∨ tool = .replaceInFile ∨ tool = .deleteFile

instance (tool : ToolName) : Decidable (isMutationTool tool) :=
  inferInstanceAs (Decidable (_ ∨ _))

/-- The arguments of a mutation, by its tool. -/
def expectedArgs (tool : ToolName) (args : Json) : List String :=
  if tool = .writeFile then ["path", "content"]
  else if tool = .deleteFile then ["path"]
  else ["path", "from", "to"] ++ ifDefined args "global"

def validateArgs (tool : ToolName) (args : Json) (code : String) :
    Except String Unit := do
  exactKeys args (expectedArgs tool args) code
  throwIf ((textAt args "path").isNone = true ∨
      (tool = .writeFile ∧ (textAt args "content").isNone = true) ∨
      (tool = .replaceInFile ∧ ((textAt args "from").isNone = true ∨
        (textAt args "to").isNone = true ∨
        ((args.get? "global").isSome = true ∧
          isBoolean (args.get? "global") = false)))) code

def intentKeys : List String :=
  ["schemaVersion", "hypothesis", "targetPath", "targetSymbol",
    "targetDigest", "evidenceRefs", "precondition", "expectedObservation",
    "postcondition", "rollback", "confidence", "risk", "stopCondition",
    "assessmentSource", "operationDigest", "expectedResultDigest"]

/-- Returns the digest which the intent expects of the file. -/
def validateIntent (tool : ToolName) (path : String) (args intent : Json)
    (code : String) : Except String String := do
  exactKeys intent intentKeys code
  throwIf (isNumber 1 (intent.get? "schemaVersion") = false ∨
      textAt intent "targetPath" ≠ some path) code
  let operationDigest ← jsonText (textAt intent "operationDigest") code
  let expectedResultDigest ←
    jsonText (textAt intent "expectedResultDigest") code
  validDigest operationDigest code
  validDigest expectedResultDigest code
  throwIf (operationDigest ≠
    createWardenRuntimeMutationOperationDigest host tool path args) code
  throwIf (¬ (tool = .deleteFile ↔
    expectedResultDigest = absentFileEvidenceDigest host)) code
  return expectedResultDigest

def validateResult (tool : ToolName) (path : String) (result : Json)
    (code : String) : Except String Unit := do
  exactKeys result (["ok", "tool", "summary"] ++ ifDefined result "data" ++
    ifDefined result "error") code
  throwIf (isTrue (result.get? "ok") = false ∨
      textAt result "tool" ≠ some tool.text ∨
      (textAt result "summary").isNone = true ∨
      ¬ isOptionalText result "error") code
  let data ← jsonRecord (result.get? "data") code
  throwIf (textAt data "path" ≠ some path) code

def mutationIdentity (event : RuntimeEvent) :
    Except String MutationIdentity := do
  let code := "warden_runtime_state_event_invalid"
  let call ← jsonRecord (some event.call) code
  throwIf (textAt call "tool" ≠ some event.tool.text) code
  exactKeys call (["tool", "args", "intent"] ++ ifDefined call "thought") code
  throwIf (¬ isOptionalText call "thought") code
  let args ← jsonRecord (call.get? "args") code
  validateArgs event.tool args code
  let path ← jsonText (textAt args "path") code
  validPath path code
  let intent ← jsonRecord (call.get? "intent") code
  let digest ← validateIntent host event.tool path args intent code
  let result ← jsonRecord (some event.result) code
  validateResult event.tool path result code
  return { path := path, digest := digest }

def validateEvent (event : RuntimeEvent) : Except String Unit := do
  let code := "warden_runtime_state_event_invalid"
  throwIf (isCode event.summaryCode = false ∨
      event.errorCode.any (fun text => !isCode text) = true ∨
      event.effectId.any (fun effectId =>
        !event.executed || !isIdentifier effectId) = true ∨
      event.modelEffectId.any (fun effectId =>
        decide (event.plannerSource ≠ .model) || !event.executed ||
          !isIdentifier effectId) = true ∨
      (event.modelPlannedCall.isSome = true ∧
        event.modelEffectId = none)) code
  throwIf (event.mutation = true ∧ (event.executed = false ∨
      event.ok = false ∨ ¬ isMutationTool event.tool)) code
  validateJson 0 event.call
  validateJson 0 event.result
  event.modelPlannedCall.toList.forM (validateJson 0)
  let call ← jsonRecord (some event.call) code
  throwIf (textAt call "tool" ≠ some event.tool.text) code
  if event.mutation = true then
    let _ ← mutationIdentity host event

/-! ## Effects -/

def validatePendingEffect (effect : RuntimePendingEffect) :
    Except String Unit := do
  let code := "warden_runtime_state_pending_effect_invalid"
  throwIf (isIdentifier effect.effectId = false) code
  validDigest effect.requestDigest code
  effect.resultDigest.toList.forM fun digest => validDigest digest code
  throwIf (¬ (effect.state = .completed ↔ effect.resultDigest.isSome = true))
    code

def validateEffectReceipt (receipt : RuntimeEffectReceipt) :
    Except String Unit := do
  let code := "warden_runtime_state_effect_receipt_invalid"
  throwIf (isIdentifier receipt.effectId = false) code
  validDigest receipt.requestDigest code
  validDigest receipt.resultDigest code
  throwIf (¬ (receipt.kind = .model ↔
        receipt.plannedCallDigest.isSome = true) ∨
      ¬ (receipt.kind = .model ↔ receipt.modelAccounting.isSome = true)) code
  receipt.plannedCallDigest.toList.forM fun digest => validDigest digest code
  receipt.modelAccounting.toList.forM validateModelCall

/-! ## Manifests and evidence -/

def validateBinding (binding : CheckpointBinding) : Except String Unit := do
  let code := "warden_runtime_state_binding_invalid"
  throwIf (binding.schemaVersion ≠ 1 ∨
      ([binding.tenantId, binding.jobId, binding.attemptId,
        binding.repositoryId, binding.snapshotId].all isIdentifier) = false ∨
      Pattern.isHexText 40 binding.revision.toList = false) code
  validDigest binding.sourceManifestSha256 code
  validDigest binding.allowedPathsDigest code
  validDigest binding.verificationProfileDigest code
  validDigest binding.modelPolicyDigest code

def validateManifestEntry (code : String) (entry : RuntimeManifestEntry) :
    Except String Unit := do
  validPath entry.path code
  validDigest entry.digest code
  nonnegative entry.bytes code

def validateManifest (entries : List RuntimeManifestEntry) (code : String) :
    Except String Unit := do
  throwIf (maxManifestEntries < entries.length) code
  eachOnce (fun entry => host.toLowerCase entry.path) code
    (validateManifestEntry code) (fun _ => .ok ()) [] entries

def byPath (left right : RuntimeManifestEntry) : Prop :=
  Text.codeUnitLe left.path right.path = true

instance : DecidableRel byPath := fun _ _ =>
  inferInstanceAs (Decidable (_ = true))

def createWardenRuntimeManifestDigest (entries : List RuntimeManifestEntry) :
    Except String String := do
  validateManifest host entries "warden_runtime_state_source_manifest_invalid"
  return digestOf host
    (.arr ((entries.insertionSort byPath).map RuntimeManifestEntry.toJson))

/-- The ranges behind a place, each behind the one before. -/
def validateRanges (totalChars : ℚ) (code : String) :
    ℚ → List EvidenceRange → Except String Unit
  | _, [] => .ok ()
  | priorEnd, range :: rest => do
      nonnegative range.start code
      nonnegative range.stop code
      throwIf (range.stop < range.start ∨ range.start < priorEnd ∨
        totalChars < range.stop) code
      validateRanges totalChars code range.stop rest

/-- Whether the ranges are the whole text. -/
def isFull (evidence : CheckpointSourceEvidence) : Bool :=
  decide (evidence.totalChars = 0) ||
    match evidence.ranges with
    | [range] =>
      decide (range.start = 0 ∧ range.stop = evidence.totalChars)
    | _ => false

def validateEvidenceEntry (entry : CheckpointSourceEvidence) :
    Except String Unit := do
  let code := "warden_runtime_state_source_evidence_invalid"
  validPath entry.path code
  validDigest entry.digest code
  nonnegative entry.bytes code
  nonnegative entry.totalChars code
  throwIf (maxCollection < entry.ranges.length) code

def validateEvidenceRanges (entry : CheckpointSourceEvidence) :
    Except String Unit := do
  let code := "warden_runtime_state_source_evidence_invalid"
  validateRanges entry.totalChars code 0 entry.ranges
  throwIf (entry.fullyObserved ≠ isFull entry) code

def validateEvidence (entries : List CheckpointSourceEvidence) :
    Except String Unit := do
  let code := "warden_runtime_state_source_evidence_invalid"
  throwIf (maxCollection < entries.length) code
  eachOnce CheckpointSourceEvidence.path code validateEvidenceEntry
    validateEvidenceRanges [] entries

end Mendpoint.Warden
