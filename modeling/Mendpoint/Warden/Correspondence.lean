import Mathlib.Data.List.ReduceOption
import Mendpoint.Warden.Records

/-!
# Effects, events and calls of the model correspond

Along the states of a warden the receipts of tools and verifiers have their
events, and the receipts of calls of the model have their calls.  The step
which resolves an effect appends the event with the receipt; no other step is
kept from appending an event of an effect, so the correspondence lasts just as
long as the steps do so.
-/

namespace Mendpoint.Warden

open Library Library.Fallible

variable {host : Host} {state current next start : PrivateRuntimeState}

/-! ## Chains of states -/

def Accepts (host : Host) (state : PrivateRuntimeState) : Prop :=
  ∃ encoded, encodeWardenRuntimeState host state = .ok encoded

/-- A state before anything happened. -/
structure Starts (host : Host) (state : PrivateRuntimeState) : Prop where
  accepts : Accepts host state
  events : state.events = []
  receipts : state.effectReceipts = []
  pending : state.pendingEffect = none

/-- A state which may follow another. -/
structure Follows (host : Host) (current next : PrivateRuntimeState) :
    Prop where
  transition :
    validateWardenRuntimeStateTransition host current next = .ok ()
  accepts : Accepts host next

/-- What a call pays for, if a receipt uses it. -/
def Pays (host : Host) (call : RuntimeModelCall)
    (use : Option RuntimeEffectReceipt) : Prop :=
  ∀ receipt ∈ use,
    accountingText host receipt.modelAccounting =
      accountingText host (some call)

/-- Events, receipts and calls of the model belong together. -/
structure Corresponds (host : Host) (state : PrivateRuntimeState) :
    Prop where
  paired : List.Forall₂ (Matches host state) (effectEvents state.events)
    (eventReceipts state.effectReceipts)
  usedOnce : ∀ receipt ∈ modelReceipts state.effectReceipts,
    ((modelEvents state.events).filter fun event =>
      decide (event.modelEffectId = some receipt.effectId)).length ≤ 1
  paid : ∃ uses, List.Forall₂ (Pays host) (succeededCalls state.modelCalls)
      uses ∧ uses.reduceOption = modelReceipts state.effectReceipts
  single :
    (state.effectReceipts.map RuntimeEffectReceipt.effectId).Nodup

/-- Events and receipts of a later state continue those of an earlier one. -/
structure Grows (host : Host) (current next : PrivateRuntimeState) :
    Prop where
  events : keepsFront host (current.events.map RuntimeEvent.toJson)
    (next.events.map RuntimeEvent.toJson)
  receipts : current.effectReceipts <+: next.effectReceipts

/-- A completed effect of a tool or a verifier is resolved. -/
def Resolves (current next : PrivateRuntimeState) : Prop :=
  ∃ effect ∈ current.pendingEffect, effect.state = .completed ∧
    isEventKind effect.kind = true ∧ next.pendingEffect = none

/-- Events of effects are only appended where an effect is resolved. -/
def EventsResolve (current next : PrivateRuntimeState) : Prop :=
  Resolves current next ∨ effectEvents (appendedEvents current next) = []

/-! ## What a step keeps and appends -/

theorem Follows.parts (follows : Follows host current next) :
    validateHistory host current next = .ok () ∧
      validateRetained host current next = .ok () ∧
      validateModelAppended host current next = .ok () ∧
      validatePendingTransition host current next = .ok () := by
  have valid := follows.transition
  simp only [validateWardenRuntimeStateTransition, bind_eq_ok] at valid
  rcases valid with ⟨_, _, _, history, _, kept, _, appended, pending⟩
  exact ⟨history, kept, appended, pending⟩

theorem Follows.grows (follows : Follows host current next) :
    Grows host current next where
  events := by
    have history := follows.parts.1
    rw [validateHistory, bind_eq_ok] at history
    rcases history with ⟨_, kept, _⟩
    rwa [demand, throwIf_eq_ok, not_not] at kept
  receipts := by
    have kept := follows.parts.2.1
    simp only [validateRetained, demand, bind_eq_ok, throwIf_eq_ok, not_not]
      at kept
    rcases kept with ⟨_, _, _, _, _, _, _, _, _, _, kept⟩
    rw [eq_append_of_keepsFront RuntimeEffectReceipt.toJson_inj kept]
    exact List.prefix_append _ _

theorem Follows.receipts_eq (follows : Follows host current next) :
    next.effectReceipts =
      current.effectReceipts ++ appendedReceipts current next := by
  rcases follows.grows.receipts with ⟨more, equal⟩
  rw [appendedReceipts, ← equal, List.drop_left]

theorem Follows.modelCalls_eq (follows : Follows host current next) :
    next.modelCalls =
      current.modelCalls ++ appendedModelCalls current next := by
  have history := follows.parts.1
  simp only [validateHistory, demand, bind_eq_ok, throwIf_eq_ok, not_not]
    at history
  rcases history with ⟨_, _, _, kept, _⟩
  exact eq_append_of_keepsFront RuntimeModelCall.toJson_inj kept

theorem effectEvents_ids {lefts rights : List RuntimeEvent}
    (alike : List.Forall₂ RuntimeEvent.Alike lefts rights) :
    (effectEvents lefts).map RuntimeEvent.effectId =
      (effectEvents rights).map RuntimeEvent.effectId := by
  induction alike with
  | nil => rfl
  | @cons left right _ _ here _ inductionHypothesis =>
    rw [effectEvents, effectEvents, List.filter_cons, List.filter_cons,
      here.effectId]
    by_cases named : right.effectId.isSome = true
    · rw [if_pos named, if_pos named, List.map_cons, List.map_cons,
        here.effectId]
      exact congrArg _ inductionHypothesis
    · rw [if_neg named, if_neg named]
      exact inductionHypothesis

theorem Grows.effectEvents_ids (grows : Grows host current next) :
    (effectEvents next.events).map RuntimeEvent.effectId =
      (effectEvents current.events).map RuntimeEvent.effectId ++
        (effectEvents (appendedEvents current next)).map
          RuntimeEvent.effectId := by
  have alike := (keepsFront_iff.mp grows.events).imp
    fun _ _ written => RuntimeEvent.alike written
  rw [Warden.effectEvents_ids alike, ← List.map_append]
  rw [effectEvents, effectEvents, effectEvents, ← List.filter_append,
    appendedEvents, List.take_append_drop]

/-! ## The step of an effect -/

/-- A step appends events and receipts of the same effects. -/
def Balanced (current next : PrivateRuntimeState) : Prop :=
  (effectEvents (appendedEvents current next)).map RuntimeEvent.effectId =
    (eventReceipts (appendedReceipts current next)).map fun receipt =>
      some receipt.effectId

theorem validateResolved_cases {effect : RuntimePendingEffect} {answer : Unit}
    (valid : validateResolved host current next effect = .ok answer) :
    (isEventKind effect.kind = true ∧ Balanced current next) ∨
      (isEventKind effect.kind = false ∧
        eventReceipts (appendedReceipts current next) = []) := by
  simp only [validateResolved, bind_eq_ok, throwIf_eq_ok, not_or, not_not,
    Bool.not_eq_false] at valid
  rcases valid with ⟨_, validEvent, ⟨single, isReceipt⟩, rfl⟩
  rcases List.length_eq_one_iff.mp single with ⟨receipt, only⟩
  rcases isReceipt receipt (by rw [only]; exact List.mem_singleton_self _) with
    ⟨kind, effectId, _⟩
  by_cases event : isEventKind effect.kind = true
  · left
    refine ⟨event, ?_⟩
    cases told : appendedEvents current next with
    | nil =>
      simp only [told, effectEventValid, event, if_pos] at validEvent
      cases validEvent
    | cons first rest =>
      cases rest with
      | cons second others =>
        simp only [told, effectEventValid, event, if_pos] at validEvent
        cases validEvent
      | nil =>
        simp only [told, effectEventValid, event, if_pos] at validEvent
        by_cases tells : first.effectId = some effect.effectId ∧
            first.category = categoryOf effect.kind ∧
            first.executed = true
        · rw [Balanced, told, only, effectEvents, eventReceipts,
            List.filter_cons, List.filter_cons, tells.1, kind, event,
            if_pos rfl, if_pos Option.isSome_some, List.map_cons,
            List.map_cons, tells.1, effectId]
          rfl
        · simp only [if_neg tells] at validEvent
          cases validEvent
  · right
    rw [Bool.not_eq_true] at event
    refine ⟨event, ?_⟩
    rw [only, eventReceipts, List.filter_cons, kind, event]
    rfl

theorem pending_cases
    (valid : validatePendingTransition host current next = .ok ()) :
    (Resolves current next ∧ Balanced current next) ∨
      (¬ Resolves current next ∧
        eventReceipts (appendedReceipts current next) = []) := by
  have unresolved : appendedReceipts current next = [] →
      eventReceipts (appendedReceipts current next) = [] := by
    intro none
    rw [none]
    rfl
  rw [validatePendingTransition] at valid
  cases pending : current.pendingEffect with
  | none =>
    rw [pending] at valid
    simp only [throwIf_eq_ok, not_or, not_not] at valid
    refine .inr ⟨?_, unresolved valid.1⟩
    rintro ⟨effect, member, _⟩
    rw [pending] at member
    cases member
  | some effect =>
    have others : effect.state ≠ .completed ∨ isEventKind effect.kind = false ∨
        next.pendingEffect ≠ none → ¬ Resolves current next := by
      rintro other ⟨resolved, member, completed, event, none⟩
      rw [pending, Option.mem_some_iff] at member
      rw [← member] at completed event
      rcases other with incomplete | silent | kept
      · exact incomplete completed
      · rw [silent] at event
        cases event
      · exact kept none
    rw [pending] at valid
    simp only at valid
    cases isState : effect.state with
    | prepared =>
      simp only [isState, throwIf_eq_ok, not_or, not_not] at valid
      refine .inr ⟨others (.inl ?_), unresolved valid.1⟩
      rw [isState]
      exact EffectState.noConfusion
    | dispatched =>
      simp only [isState, throwIf_eq_ok, not_or, not_not] at valid
      refine .inr ⟨others (.inl ?_), unresolved valid.1⟩
      rw [isState]
      exact EffectState.noConfusion
    | completed =>
      simp only [isState] at valid
      split at valid
      · next gone =>
          rw [Option.isNone_iff_eq_none] at gone
          rcases validateResolved_cases valid with
            ⟨event, balanced⟩ | ⟨silent, empty⟩
          · refine .inl ⟨⟨effect, ?_, isState, event, gone⟩, balanced⟩
            rw [pending]
            exact Option.mem_some_self effect
          · exact .inr ⟨others (.inr (.inl silent)), empty⟩
      · next kept =>
          rw [Option.isNone_iff_eq_none] at kept
          simp only [throwIf_eq_ok, not_or, not_not] at valid
          exact .inr ⟨others (.inr (.inr kept)), unresolved valid.1⟩

theorem Follows.balanced_iff (follows : Follows host current next) :
    Balanced current next ↔ EventsResolve current next := by
  rcases pending_cases follows.parts.2.2.2 with
    ⟨resolves, balanced⟩ | ⟨unresolved, empty⟩
  · exact ⟨fun _ => .inl resolves, fun _ => balanced⟩
  · rw [Balanced, EventsResolve, empty, List.map_nil, List.map_eq_nil_iff,
      or_iff_right unresolved]

/-! ## The step of a call of the model -/

/-- Succeeded calls are used by the receipts of calls of the model, in order. -/
def Paid (host : Host) (calls : List RuntimeModelCall)
    (receipts : List RuntimeEffectReceipt) : Prop :=
  ∃ uses, List.Forall₂ (Pays host) (succeededCalls calls) uses ∧
    uses.reduceOption = modelReceipts receipts

variable {calls : List RuntimeModelCall}
  {receipts : List RuntimeEffectReceipt}

theorem Paid.append {more : List RuntimeModelCall}
    {further : List RuntimeEffectReceipt} (first : Paid host calls receipts)
    (second : Paid host more further) :
    Paid host (calls ++ more) (receipts ++ further) := by
  rcases first with ⟨uses, pays, all⟩
  rcases second with ⟨usesMore, paysMore, allMore⟩
  refine ⟨uses ++ usesMore, ?_, ?_⟩
  · rw [succeededCalls, List.filter_append]
    exact List.rel_append pays paysMore
  · rw [List.reduceOption_append, all, allMore, modelReceipts, modelReceipts,
      modelReceipts, List.filter_append]

theorem paid_of_no_receipts (empty : modelReceipts receipts = []) :
    Paid host calls receipts := by
  refine ⟨(succeededCalls calls).map fun _ => none, ?_, ?_⟩
  · rw [List.forall₂_map_right_iff, List.forall₂_same]
    intro call _ receipt member
    cases member
  · rw [empty, List.reduceOption, List.filterMap_map, List.filterMap_eq_nil_iff]
    exact fun call _ => rfl

theorem paid_of_receipts
    (many : calls.length = (modelReceipts receipts).length)
    (succeeded : (succeededCalls calls).length = (modelReceipts
      receipts).length)
    (accounted : ¬ receiptAccountingInvalid host (modelReceipts receipts)
      calls) : Paid host calls receipts := by
  have all : succeededCalls calls = calls :=
    List.filter_sublist.eq_of_length (succeeded.trans many.symm)
  refine ⟨(modelReceipts receipts).map some, ?_, ?_⟩
  · rw [all, List.forall₂_map_right_iff, List.forall₂_iff_get]
    refine ⟨many, fun place inside insideReceipts => ?_⟩
    intro receipt member
    rw [Option.mem_some_iff] at member
    rw [← member]
    by_contra differ
    apply accounted
    refine ⟨((modelReceipts receipts).get ⟨place, insideReceipts⟩, place), ?_,
      ?_⟩
    · rw [List.mem_zipIdx_iff_getElem?, List.getElem?_eq_getElem insideReceipts]
      rfl
    · rw [List.getElem?_eq_getElem inside]
      exact differ
  · rw [List.reduceOption, List.filterMap_map]
    exact List.filterMap_some

theorem Follows.paid (follows : Follows host current next) :
    Paid host (appendedModelCalls current next)
      (appendedReceipts current next) := by
  have appended := follows.parts.2.2.1
  simp only [validateModelAppended, demand, bind_eq_ok, throwIf_eq_ok,
    not_not, not_or] at appended
  rcases appended with ⟨_, _, _, consumed, accounted, _⟩
  by_cases empty : modelReceipts (appendedReceipts current next) = []
  · exact paid_of_no_receipts empty
  · have both := not_and.mp consumed empty
    rw [not_or, not_or, not_not, not_not] at both
    exact paid_of_receipts both.1 both.2.1 accounted

/-! ## Runs -/

/-- What a run keeps, from which a state corresponds. -/
structure Tracked (host : Host) (state : PrivateRuntimeState) : Prop where
  ids : (effectEvents state.events).map RuntimeEvent.effectId =
    (eventReceipts state.effectReceipts).map fun receipt =>
      some receipt.effectId
  paid : Paid host state.modelCalls state.effectReceipts

theorem Starts.tracked (starts : Starts host state) : Tracked host state where
  ids := by
    rw [starts.events, starts.receipts]
    rfl
  paid := by
    apply paid_of_no_receipts
    rw [starts.receipts]
    rfl

theorem Follows.ids_iff (follows : Follows host current next)
    (tracked : Tracked host current) :
    ((effectEvents next.events).map RuntimeEvent.effectId =
      (eventReceipts next.effectReceipts).map fun receipt =>
        some receipt.effectId) ↔ EventsResolve current next := by
  have appended : eventReceipts next.effectReceipts =
      eventReceipts current.effectReceipts ++
        eventReceipts (appendedReceipts current next) := by
    rw [follows.receipts_eq]
    exact List.filter_append ..
  rw [follows.grows.effectEvents_ids, tracked.ids, appended, List.map_append,
    List.append_cancel_left_eq, ← follows.balanced_iff]
  exact Iff.rfl

theorem Follows.tracked (follows : Follows host current next)
    (tracked : Tracked host current) (resolve : EventsResolve current next) :
    Tracked host next where
  ids := (follows.ids_iff tracked).mpr resolve
  paid := by
    rw [follows.modelCalls_eq, follows.receipts_eq]
    exact tracked.paid.append follows.paid

theorem Accepts.accepted (accepts : Accepts host state) :
    Accepted host state := by
  rcases accepts with ⟨encoded, encodes⟩
  exact accepted_of_encode encodes

theorem Tracked.corresponds (tracked : Tracked host state)
    (accepts : Accepts host state) : Corresponds host state where
  paired := accepts.accepted.matched tracked.ids
  usedOnce := by
    intro receipt _
    have counted := List.nodup_iff_count_le_one.mp accepts.accepted.usedOnce
      (some receipt.effectId)
    rw [List.count, List.countP_map, usingEvents, List.countP_filter] at counted
    rw [← List.countP_eq_length_filter]
    refine le_trans (List.countP_mono_left fun event _ uses => ?_) counted
    rw [decide_eq_true_eq] at uses
    simp [uses]
  paid := tracked.paid
  single := accepts.accepted.effectIds

theorem Corresponds.tracked (corresponds : Corresponds host state) :
    Tracked host state where
  ids := by
    rw [← List.forall₂_eq_eq_eq, List.forall₂_map_left_iff,
      List.forall₂_map_right_iff]
    exact corresponds.paired.imp fun event receipt matched => matched.effectId
  paid := corresponds.paid

theorem Grows.trans {last : PrivateRuntimeState}
    (first : Grows host current next) (second : Grows host next last) :
    Grows host current last where
  events := first.events.trans second.events
  receipts := first.receipts.trans second.receipts

theorem Starts.corresponds (starts : Starts host state) :
    Corresponds host state :=
  starts.tracked.corresponds starts.accepts

theorem Corresponds.along_iff (corresponds : Corresponds host start)
    {states : List PrivateRuntimeState}
    (chain : List.IsChain (Follows host) (start :: states)) :
    (∀ state ∈ states, Corresponds host state) ↔
      List.IsChain EventsResolve (start :: states) := by
  induction states generalizing start with
  | nil => simp
  | cons next rest inductionHypothesis =>
    rw [List.isChain_cons_cons] at chain ⊢
    rw [List.forall_mem_cons]
    have tracked := corresponds.tracked
    constructor
    · rintro ⟨here, later⟩
      exact ⟨(chain.1.ids_iff tracked).mp here.tracked.ids,
        (inductionHypothesis here chain.2).mp later⟩
    · rintro ⟨resolve, later⟩
      have here := (chain.1.tracked tracked resolve).corresponds
        chain.1.accepts
      exact ⟨here, (inductionHypothesis here chain.2).mpr later⟩

/-- Events, receipts and calls correspond in every state of a chain, and only
grow, just when its steps append events of effects to resolve them. -/
theorem corresponds_iff_resolve {states : List PrivateRuntimeState}
    (starts : Starts host start)
    (chain : List.IsChain (Follows host) (start :: states)) :
    ((∀ state ∈ start :: states, Corresponds host state) ∧
        List.Pairwise (Grows host) (start :: states)) ↔
      List.IsChain EventsResolve (start :: states) := by
  have grows : List.Pairwise (Grows host) (start :: states) := by
    have transitive : IsTrans PrivateRuntimeState (Grows host) :=
      ⟨fun _ _ _ first second => first.trans second⟩
    exact (chain.imp fun _ _ follows => follows.grows).pairwise
  rw [and_iff_left grows, List.forall_mem_cons,
    and_iff_right starts.corresponds]
  exact starts.corresponds.along_iff chain

/-! ## A stray event -/

/-- A platform on which only the digest of an empty manifest is asked for. -/
def sampleHost : Host where
  sha256 bytes :=
    if Utf8Text.decode bytes = "[]" then
      "4f53cda18c2baa0c0354bb5f9a3ecbe5ed12ab4d8e11ba873c2f11161202b945"
    else "e3b0c44298fc1c149afbf4c8996fb92427ae41e4649b934ca495991b7852b855"
  hmac _ _ := .empty
  toLowerCase := Text.lowerCase
  numerals := .fractions
  parse _ := none
  parseState _ := none
  validatedToolCall _ := none

def sampleDigest : String :=
  "sha256:4f53cda18c2baa0c0354bb5f9a3ecbe5ed12ab4d8e11ba873c2f11161202b945"

def sampleBinding : CheckpointBinding where
  schemaVersion := 1
  tenantId := "tenant-1"
  jobId := "job-1"
  attemptId := "attempt-1"
  repositoryId := "repository-1"
  snapshotId := "snapshot-1"
  revision := "0123456789abcdef0123456789abcdef01234567"
  sourceManifestSha256 := sampleDigest
  allowedPathsDigest := sampleDigest
  verificationProfileDigest := sampleDigest
  modelPolicyDigest := sampleDigest

/-- A state with some events, in which nothing else has happened. -/
def sampleState (generation : ℚ) (events : List RuntimeEvent) :
    PrivateRuntimeState where
  schemaVersion := 1
  binding := sampleBinding
  generation := generation
  writerLeaseGeneration := 1
  workspaceName := "workspace"
  phase := .agentRunning
  previousEnvelopeDigest := none
  createdAt := "2026-01-01T00:00:00.000Z"
  executorDigest := sampleDigest
  sourceManifest := []
  workspaceManifest := []
  events := events
  sourceEvidence := []
  observedDirectories := []
  searches := []
  modelCalls := []
  sourceCounters := {
    observedBytes := 0
    searchBytes := 0
    changedBytes := 0
    groundedMutations := 0
    blockedMutations := 0
  }
  privateState := .obj []
  privateHistory := []
  rollbackPreimages := []
  blobs := []
  effectReceipts := []
  pendingEffect := none

/-- A reading which a heuristic planned. -/
def sampleEvent (effectId : Option String) : RuntimeEvent where
  category := .tool
  tool := .readFile
  plannerSource := .heuristic
  executed := true
  ok := true
  summaryCode := "read"
  errorCode := none
  effectId := effectId
  modelEffectId := none
  modelPlannedCall := none
  call := .obj [("tool", .str "read_file")]
  result := .obj [("ok", .bool true)]
  mutation := false

theorem accepts_of_size
    (valid : (validateState host state).isOk = true)
    (fits : 4 * Json.lengthBound host.numerals
      (normalizeState host state).toJson.sorted ≤ maxRuntimeBytes) :
    Accepts host state := by
  rcases exists_of_isOk valid with ⟨answer, checked⟩
  have nonempty : 0 < ((Json.chars host.numerals
      (normalizeState host state).toJson.sorted).map Char.utf8Size).sum := by
    rcases Json.chars_first host.numerals
      (normalizeState host state).toJson.sorted with ⟨first, rest, text, _⟩
    rw [text, List.map_cons, List.sum_cons]
    exact Nat.add_pos_left (Char.utf8Size_pos first) _
  have small := Utf8Text.sum_utf8Size_le (Json.chars host.numerals
    (normalizeState host state).toJson.sorted)
  have short := Json.length_chars_le host.numerals
    (normalizeState host state).toJson.sorted
  refine ⟨Utf8Text.encode
    (canonical host (normalizeState host state).toJson), ?_⟩
  rw [encodeWardenRuntimeState, bind_eq_ok]
  refine ⟨answer, checked, ?_⟩
  rw [bind_eq_ok]
  refine ⟨⟨⟩, throwIf_eq_ok.mpr ?_, rfl⟩
  rw [canonical, Json.canonical, Utf8Text.size_encode_ofList]
  omega

/-- The three states of the samples are evaluated one after the other. -/
theorem accepts_samples :
    Accepts sampleHost (sampleState 1 []) ∧
      Accepts sampleHost (sampleState 2 [sampleEvent none]) ∧
      Accepts sampleHost (sampleState 2 [sampleEvent (some "effect-1")]) := by
  refine ⟨accepts_of_size ?_ ?_, accepts_of_size ?_ ?_, accepts_of_size ?_ ?_⟩
  · decide +kernel
  · decide +kernel
  · decide +kernel
  · decide +kernel
  · decide +kernel
  · decide +kernel

theorem starts_sample : Starts sampleHost (sampleState 1 []) where
  accepts := accepts_samples.1
  events := rfl
  receipts := rfl
  pending := rfl

theorem follows_sample (effectId : Option String)
    (accepts : Accepts sampleHost (sampleState 2 [sampleEvent effectId])) :
    Follows sampleHost (sampleState 1 [])
      (sampleState 2 [sampleEvent effectId]) where
  transition := by
    simp only [validateWardenRuntimeStateTransition, bind_eq_ok]
    refine ⟨⟨⟩, ?_, ⟨⟩, ?_, ⟨⟩, ?_, ⟨⟩, ?_, ?_⟩
    · simp only [validateIdentity, demand, bind_eq_ok, throwIf_eq_ok, not_not]
      have counted : (2 : ℚ) = 1 + 1 := by norm_num
      exact ⟨⟨⟩, counted, ⟨⟩, rfl, ⟨⟩, rfl, ⟨⟩, rfl, ⟨⟩, fun _ => rfl, ⟨⟩,
        fun terminal => terminal, rfl⟩
    · simp only [validateHistory, demand, bind_eq_ok, throwIf_eq_ok, not_not]
      exact ⟨⟨⟩, List.nil_prefix, ⟨⟩, List.prefix_refl _, ⟨⟩,
        List.prefix_refl _, .inl rfl⟩
    · simp only [validateRetained, demand, bind_eq_ok, throwIf_eq_ok, not_not]
      exact ⟨⟨⟩, List.forall_mem_nil _, ⟨⟩, List.forall_mem_nil _, ⟨⟩,
        List.forall_mem_nil _, ⟨⟩, List.forall_mem_nil _, ⟨⟩,
        List.forall_mem_nil _, List.prefix_refl _⟩
    · rfl
    · rfl
  accepts := accepts

/-- A state with a reading outside of any effect follows the first one. -/
theorem corresponds_sample :
    (∀ state ∈ [sampleState 1 [], sampleState 2 [sampleEvent none]],
        Corresponds sampleHost state) ∧
      List.Pairwise (Grows sampleHost)
        [sampleState 1 [], sampleState 2 [sampleEvent none]] := by
  have follows := follows_sample none accepts_samples.2.1
  have resolve : EventsResolve (sampleState 1 [])
      (sampleState 2 [sampleEvent none]) := Or.inr rfl
  apply (corresponds_iff_resolve starts_sample
    (List.IsChain.cons_cons follows (List.IsChain.singleton _))).mpr
  exact List.IsChain.cons_cons resolve (List.IsChain.singleton _)

/-- The event of an effect which was never pending has no receipt. -/
theorem stray_event_accepted :
    Starts sampleHost (sampleState 1 []) ∧
      List.IsChain (Follows sampleHost)
        [sampleState 1 [], sampleState 2 [sampleEvent (some "effect-1")]] ∧
      ¬ Corresponds sampleHost
        (sampleState 2 [sampleEvent (some "effect-1")]) := by
  have follows := follows_sample (some "effect-1") accepts_samples.2.2
  refine ⟨starts_sample,
    List.IsChain.cons_cons follows (List.IsChain.singleton _), ?_⟩
  intro corresponds
  have paired := corresponds.paired.length_eq
  have lengths : 1 = 0 := paired
  cases lengths

end Mendpoint.Warden
