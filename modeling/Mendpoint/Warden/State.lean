import Mendpoint.Library.Utf8Text
import Mendpoint.Library.CanonicalJson
import Mendpoint.Library.Fallible
import Mendpoint.Library.IsoTime
import Mendpoint.Library.TextOrder
import Mendpoint.Library.Numbers

/-!
# The private runtime state of a warden

The record which a warden keeps of an attempt: the source and the workspace as
digests of their files, the events, the calls of the model, the effects with
their receipts, and what restores the source.  The types carry what the program
tests with `exactKeys` and `typeof`; numbers are finite.
-/

namespace Mendpoint.Warden

open Library

/-! ## Names -/

inductive ToolName where
  | listDir
  | readFile
  | search
  | writeFile
  | replaceInFile
  | deleteFile
  | runCommand
  | httpProbe
  | finish
  deriving DecidableEq

def ToolName.text : ToolName → String
  | .listDir => "list_dir"
  | .readFile => "read_file"
  | .search => "search"
  | .writeFile => "write_file"
  | .replaceInFile => "replace_in_file"
  | .deleteFile => "delete_file"
  | .runCommand => "run_command"
  | .httpProbe => "http_probe"
  | .finish => "finish"

def toolNames : List ToolName :=
  [.listDir, .readFile, .search, .writeFile, .replaceInFile, .deleteFile,
    .runCommand, .httpProbe, .finish]

inductive EventCategory where
  | tool
  | verifier
  deriving DecidableEq

def EventCategory.text : EventCategory → String
  | .tool => "tool"
  | .verifier => "verifier"

inductive PlannerSource where
  | model
  | heuristic
  | system
  deriving DecidableEq

def PlannerSource.text : PlannerSource → String
  | .model => "model"
  | .heuristic => "heuristic"
  | .system => "system"

inductive CallStatus where
  | succeeded
  | failed
  deriving DecidableEq

def CallStatus.text : CallStatus → String
  | .succeeded => "succeeded"
  | .failed => "failed"

inductive EffectKind where
  | model
  | tool
  | verifier
  | artifact
  deriving DecidableEq

def EffectKind.text : EffectKind → String
  | .model => "model"
  | .tool => "tool"
  | .verifier => "verifier"
  | .artifact => "artifact"

inductive EffectState where
  | prepared
  | dispatched
  | completed
  deriving DecidableEq

def EffectState.text : EffectState → String
  | .prepared => "prepared"
  | .dispatched => "dispatched"
  | .completed => "completed"

inductive Phase where
  | agentRunning
  | verificationFeedback
  | terminal
  deriving DecidableEq

def Phase.text : Phase → String
  | .agentRunning => "agent_running"
  | .verificationFeedback => "verification_feedback"
  | .terminal => "terminal"

/-! ## Records -/

structure CheckpointBinding where
  schemaVersion : ℚ
  tenantId : String
  jobId : String
  attemptId : String
  repositoryId : String
  snapshotId : String
  revision : String
  sourceManifestSha256 : String
  allowedPathsDigest : String
  verificationProfileDigest : String
  modelPolicyDigest : String

structure RuntimeManifestEntry where
  path : String
  digest : String
  bytes : ℚ

structure RuntimeEvent where
  category : EventCategory
  tool : ToolName
  plannerSource : PlannerSource
  executed : Bool
  ok : Bool
  summaryCode : String
  errorCode : Option String
  effectId : Option String
  modelEffectId : Option String
  modelPlannedCall : Option Json
  call : Json
  result : Json
  mutation : Bool

structure EvidenceRange where
  start : ℚ
  stop : ℚ

structure CheckpointSourceEvidence where
  path : String
  digest : String
  bytes : ℚ
  totalChars : ℚ
  ranges : List EvidenceRange
  fullyObserved : Bool

structure RuntimeModelCall where
  status : CallStatus
  promptTokens : ℚ
  completionTokens : ℚ
  totalTokens : ℚ
  costUsd : ℚ

/-- A pending effect of a kind other than `none`. -/
structure RuntimePendingEffect where
  kind : EffectKind
  state : EffectState
  effectId : String
  requestDigest : String
  resultDigest : Option String

structure RuntimeEffectReceipt where
  kind : EffectKind
  effectId : String
  requestDigest : String
  resultDigest : String
  plannedCallDigest : Option String
  modelAccounting : Option RuntimeModelCall

structure SourceCounters where
  observedBytes : ℚ
  searchBytes : ℚ
  changedBytes : ℚ
  groundedMutations : ℚ
  blockedMutations : ℚ

structure RollbackPreimage where
  path : String
  existed : Bool
  blobDigest : Option String

structure RuntimeBlob where
  digest : String
  bytes : ℚ
  contentBase64 : String

structure PrivateRuntimeState where
  schemaVersion : ℚ
  binding : CheckpointBinding
  generation : ℚ
  writerLeaseGeneration : ℚ
  workspaceName : String
  phase : Phase
  previousEnvelopeDigest : Option String
  createdAt : String
  executorDigest : String
  sourceManifest : List RuntimeManifestEntry
  workspaceManifest : List RuntimeManifestEntry
  events : List RuntimeEvent
  sourceEvidence : List CheckpointSourceEvidence
  observedDirectories : List String
  searches : List Json
  modelCalls : List RuntimeModelCall
  sourceCounters : SourceCounters
  privateState : Json
  privateHistory : List Json
  rollbackPreimages : List RollbackPreimage
  blobs : List RuntimeBlob
  effectReceipts : List RuntimeEffectReceipt
  pendingEffect : Option RuntimePendingEffect

/-- What the program calls of its platform and of the agent. -/
structure Host where
  /-- `createHash("sha256").update(bytes).digest("hex")` -/
  sha256 : ByteArray → String
  /-- `createHmac("sha256", key).update(bytes).digest()` -/
  hmac : ByteArray → ByteArray → ByteArray
  toLowerCase : String → String
  numerals : Numerals
  /-- `JSON.parse(bytes.toString("utf8"))`, nothing where it throws. -/
  parse : ByteArray → Option Json
  /-- `parse`, where the text is that of a runtime state. -/
  parseState : ByteArray → Option PrivateRuntimeState
  /-- `validatedToolCall`, nothing for `null`. -/
  validatedToolCall : Json → Option Json

/-! ## Records as JSON -/

def texts (values : List String) : Json :=
  .arr (values.map .str)

def CheckpointBinding.keys : List String :=
  ["schemaVersion", "tenantId", "jobId", "attemptId", "repositoryId",
    "snapshotId", "revision", "sourceManifestSha256", "allowedPathsDigest",
    "verificationProfileDigest", "modelPolicyDigest"]

def CheckpointBinding.toJson (binding : CheckpointBinding) : Json :=
  .record keys [some (.num binding.schemaVersion), some (.str binding.tenantId),
    some (.str binding.jobId), some (.str binding.attemptId),
    some (.str binding.repositoryId), some (.str binding.snapshotId),
    some (.str binding.revision), some (.str binding.sourceManifestSha256),
    some (.str binding.allowedPathsDigest),
    some (.str binding.verificationProfileDigest),
    some (.str binding.modelPolicyDigest)]

def RuntimeManifestEntry.keys : List String :=
  ["path", "digest", "bytes"]

def RuntimeManifestEntry.toJson (entry : RuntimeManifestEntry) : Json :=
  .record keys [some (.str entry.path), some (.str entry.digest),
    some (.num entry.bytes)]

def RuntimeEvent.keys : List String :=
  ["category", "tool", "plannerSource", "executed", "ok", "summaryCode",
    "errorCode", "effectId", "modelEffectId", "modelPlannedCall", "call",
    "result", "mutation"]

def RuntimeEvent.toJson (event : RuntimeEvent) : Json :=
  .record keys [some (.str event.category.text), some (.str event.tool.text),
    some (.str event.plannerSource.text), some (.bool event.executed),
    some (.bool event.ok), some (.str event.summaryCode),
    event.errorCode.map .str, event.effectId.map .str,
    event.modelEffectId.map .str, event.modelPlannedCall, some event.call,
    some event.result, some (.bool event.mutation)]

def EvidenceRange.toJson (range : EvidenceRange) : Json :=
  .record ["start", "end"] [some (.num range.start), some (.num range.stop)]

def CheckpointSourceEvidence.keys : List String :=
  ["path", "digest", "bytes", "totalChars", "ranges", "fullyObserved"]

def CheckpointSourceEvidence.toJson (evidence : CheckpointSourceEvidence) :
    Json :=
  .record keys [some (.str evidence.path), some (.str evidence.digest),
    some (.num evidence.bytes), some (.num evidence.totalChars),
    some (.arr (evidence.ranges.map EvidenceRange.toJson)),
    some (.bool evidence.fullyObserved)]

def RuntimeModelCall.keys : List String :=
  ["status", "promptTokens", "completionTokens", "totalTokens", "costUsd"]

def RuntimeModelCall.toJson (call : RuntimeModelCall) : Json :=
  .record keys [some (.str call.status.text), some (.num call.promptTokens),
    some (.num call.completionTokens), some (.num call.totalTokens),
    some (.num call.costUsd)]

def RuntimePendingEffect.keys : List String :=
  ["kind", "state", "effectId", "requestDigest", "resultDigest"]

def RuntimePendingEffect.toJson (effect : RuntimePendingEffect) : Json :=
  .record keys [some (.str effect.kind.text), some (.str effect.state.text),
    some (.str effect.effectId), some (.str effect.requestDigest),
    effect.resultDigest.map .str]

def RuntimeEffectReceipt.keys : List String :=
  ["kind", "effectId", "requestDigest", "resultDigest", "plannedCallDigest",
    "modelAccounting"]

def RuntimeEffectReceipt.toJson (receipt : RuntimeEffectReceipt) : Json :=
  .record keys [some (.str receipt.kind.text), some (.str receipt.effectId),
    some (.str receipt.requestDigest), some (.str receipt.resultDigest),
    receipt.plannedCallDigest.map .str,
    receipt.modelAccounting.map RuntimeModelCall.toJson]

def SourceCounters.toJson (counters : SourceCounters) : Json :=
  .record ["observedBytes", "searchBytes", "changedBytes",
      "groundedMutations", "blockedMutations"]
    [some (.num counters.observedBytes), some (.num counters.searchBytes),
      some (.num counters.changedBytes), some (.num counters.groundedMutations),
      some (.num counters.blockedMutations)]

def RollbackPreimage.keys : List String :=
  ["path", "existed", "blobDigest"]

def RollbackPreimage.toJson (preimage : RollbackPreimage) : Json :=
  .record keys [some (.str preimage.path), some (.bool preimage.existed),
    preimage.blobDigest.map .str]

def RuntimeBlob.keys : List String :=
  ["digest", "bytes", "contentBase64"]

def RuntimeBlob.toJson (blob : RuntimeBlob) : Json :=
  .record keys [some (.str blob.digest), some (.num blob.bytes),
    some (.str blob.contentBase64)]

def PrivateRuntimeState.keys : List String :=
  ["schemaVersion", "binding", "generation", "writerLeaseGeneration",
    "workspaceName", "phase", "previousEnvelopeDigest", "createdAt",
    "executorDigest", "sourceManifest", "workspaceManifest", "events",
    "sourceEvidence", "observedDirectories", "searches", "modelCalls",
    "sourceCounters", "privateState", "privateHistory", "rollbackPreimages",
    "blobs", "effectReceipts", "pendingEffect"]

def PrivateRuntimeState.toJson (state : PrivateRuntimeState) : Json :=
  .record keys [some (.num state.schemaVersion), some state.binding.toJson,
    some (.num state.generation), some (.num state.writerLeaseGeneration),
    some (.str state.workspaceName), some (.str state.phase.text),
    some ((state.previousEnvelopeDigest.map Json.str).getD .null),
    some (.str state.createdAt), some (.str state.executorDigest),
    some (.arr (state.sourceManifest.map RuntimeManifestEntry.toJson)),
    some (.arr (state.workspaceManifest.map RuntimeManifestEntry.toJson)),
    some (.arr (state.events.map RuntimeEvent.toJson)),
    some (.arr (state.sourceEvidence.map CheckpointSourceEvidence.toJson)),
    some (texts state.observedDirectories), some (.arr state.searches),
    some (.arr (state.modelCalls.map RuntimeModelCall.toJson)),
    some state.sourceCounters.toJson, some state.privateState,
    some (.arr state.privateHistory),
    some (.arr (state.rollbackPreimages.map RollbackPreimage.toJson)),
    some (.arr (state.blobs.map RuntimeBlob.toJson)),
    some (.arr (state.effectReceipts.map RuntimeEffectReceipt.toJson)),
    some ((state.pendingEffect.map RuntimePendingEffect.toJson).getD
      (.obj [("kind", .str "none")]))]

/-! ## Digests -/

variable (host : Host)

def canonical (value : Json) : String :=
  value.canonical host.numerals

def sha256 (bytes : ByteArray) : String :=
  "sha256:" ++ host.sha256 bytes

/-- `sha256(canonical(value))` -/
def digestOf (value : Json) : String :=
  sha256 host (Utf8Text.encode (canonical host value))

/-- `sha256("mendpoint:absent-file:v1")` -/
def absentFileEvidenceDigest : String :=
  sha256 host (Utf8Text.encode "mendpoint:absent-file:v1")

/-- `blobContents.get(digest)` -/
def PrivateRuntimeState.blobContent? (state : PrivateRuntimeState)
    (digest : String) : Option ByteArray :=
  (state.blobs.find? fun blob => decide (blob.digest = digest)).map fun blob =>
    Base64.decode blob.contentBase64

end Mendpoint.Warden
