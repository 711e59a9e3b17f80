import Mendpoint.Warden.Transition

/-!
# Records which are written alike

What two records have in common when their canonical texts are one text.
Records without stored JSON are then the same.
-/

namespace Mendpoint.Warden

open Library

variable {host : Host}

theorem ToolName.text_injective : Function.Injective ToolName.text := by
  intro left right equal
  cases left <;> cases right <;>
    first | rfl | exact absurd equal (by decide)

theorem EventCategory.text_injective :
    Function.Injective EventCategory.text := by
  intro left right equal
  cases left <;> cases right <;>
    first | rfl | exact absurd equal (by decide)

theorem PlannerSource.text_injective :
    Function.Injective PlannerSource.text := by
  intro left right equal
  cases left <;> cases right <;>
    first | rfl | exact absurd equal (by decide)

theorem CallStatus.text_injective : Function.Injective CallStatus.text := by
  intro left right equal
  cases left <;> cases right <;>
    first | rfl | exact absurd equal (by decide)

theorem EffectKind.text_injective : Function.Injective EffectKind.text := by
  intro left right equal
  cases left <;> cases right <;>
    first | rfl | exact absurd equal (by decide)

theorem Phase.text_injective : Function.Injective Phase.text := by
  intro left right equal
  cases left <;> cases right <;>
    first | rfl | exact absurd equal (by decide)

@[simp]
theorem map_sorted_str (text : Option String) :
    (text.map Json.str).map Json.sorted = text.map Json.str := by
  cases text <;> rfl

theorem RuntimeModelCall.toJson_inj {left right : RuntimeModelCall}
    (equal : left.toJson.sorted = right.toJson.sorted) : left = right := by
  have values := Json.record_sorted_inj (by decide) rfl rfl equal
  simp only [List.map_cons, Option.map_some, Json.sorted, List.cons.injEq,
    Option.some.injEq, Json.str.injEq, Json.num.injEq] at values
  rcases values with ⟨status, promptTokens, completion, total, cost, _⟩
  cases left
  cases right
  simp only [RuntimeModelCall.mk.injEq]
  exact ⟨CallStatus.text_injective status, promptTokens, completion, total,
    cost⟩

theorem RuntimeEffectReceipt.toJson_inj {left right : RuntimeEffectReceipt}
    (equal : left.toJson.sorted = right.toJson.sorted) : left = right := by
  have values := Json.record_sorted_inj (by decide) rfl rfl equal
  simp only [List.map_cons, Option.map_some, Json.sorted, List.cons.injEq,
    Option.some.injEq, Json.str.injEq, map_sorted_str] at values
  rcases values with ⟨kind, effectId, request, result, planned, accounting, _⟩
  have plannedSame := Option.map_injective (fun _ _ => Json.str.inj) planned
  have accountingSame : left.modelAccounting = right.modelAccounting := by
    rw [Option.map_map, Option.map_map] at accounting
    exact Option.map_injective
      (fun _ _ written => RuntimeModelCall.toJson_inj written) accounting
  cases left
  cases right
  simp only [RuntimeEffectReceipt.mk.injEq]
  exact ⟨EffectKind.text_injective kind, effectId, request, result,
    plannedSame, accountingSame⟩

theorem RuntimeManifestEntry.toJson_inj {left right : RuntimeManifestEntry}
    (equal : left.toJson.sorted = right.toJson.sorted) : left = right := by
  have values := Json.record_sorted_inj (by decide) rfl rfl equal
  simp only [List.map_cons, Option.map_some, Json.sorted, List.cons.injEq,
    Option.some.injEq, Json.str.injEq, Json.num.injEq] at values
  rcases values with ⟨path, digest, bytes, _⟩
  cases left
  cases right
  simp only [RuntimeManifestEntry.mk.injEq]
  exact ⟨path, digest, bytes⟩

theorem RollbackPreimage.toJson_inj {left right : RollbackPreimage}
    (equal : left.toJson.sorted = right.toJson.sorted) : left = right := by
  have values := Json.record_sorted_inj (by decide) rfl rfl equal
  simp only [List.map_cons, Option.map_some, Json.sorted, List.cons.injEq,
    Option.some.injEq, Json.str.injEq, Json.bool.injEq, map_sorted_str]
    at values
  rcases values with ⟨path, existed, digest, _⟩
  have digestSame := Option.map_injective (fun _ _ => Json.str.inj) digest
  cases left
  cases right
  simp only [RollbackPreimage.mk.injEq]
  exact ⟨path, existed, digestSame⟩

/-- What events have in common which are written alike. -/
structure RuntimeEvent.Alike (left right : RuntimeEvent) : Prop where
  category : left.category = right.category
  tool : left.tool = right.tool
  plannerSource : left.plannerSource = right.plannerSource
  executed : left.executed = right.executed
  effectId : left.effectId = right.effectId
  modelEffectId : left.modelEffectId = right.modelEffectId
  call : left.call.sorted = right.call.sorted
  result : left.result.sorted = right.result.sorted
  mutation : left.mutation = right.mutation

theorem RuntimeEvent.alike {left right : RuntimeEvent}
    (equal : left.toJson.sorted = right.toJson.sorted) : left.Alike right := by
  have values := Json.record_sorted_inj (by decide) rfl rfl equal
  simp only [List.map_cons, Option.map_some, Json.sorted, List.cons.injEq,
    Option.some.injEq, Json.str.injEq, Json.bool.injEq, map_sorted_str]
    at values
  rcases values with ⟨category, tool, planner, executed, _, _, _, effectId,
    modelEffectId, _, call, result, mutation, _⟩
  exact {
    category := EventCategory.text_injective category
    tool := ToolName.text_injective tool
    plannerSource := PlannerSource.text_injective planner
    executed := executed
    effectId := Option.map_injective (fun _ _ => Json.str.inj) effectId
    modelEffectId :=
      Option.map_injective (fun _ _ => Json.str.inj) modelEffectId
    call := call
    result := result
    mutation := mutation
  }

/-! ## Lists which are written alike -/

theorem forall₂_of_texts {α : Type} {toJson : α → Json} {lefts rights : List α}
    (equal : (lefts.map toJson).map (canonical host) =
      (rights.map toJson).map (canonical host)) :
    List.Forall₂ (fun left right =>
      (toJson left).sorted = (toJson right).sorted) lefts rights := by
  rw [List.map_map, List.map_map, ← List.forall₂_eq_eq_eq,
    List.forall₂_map_left_iff, List.forall₂_map_right_iff] at equal
  exact equal.imp fun left right written => Json.canonical_eq_iff.mp written

theorem keepsFront_iff {α : Type} {toJson : α → Json} {first second : List α} :
    keepsFront host (first.map toJson) (second.map toJson) ↔
      List.Forall₂ (fun left right =>
        (toJson left).sorted = (toJson right).sorted) first
        (second.take first.length) := by
  rw [keepsFront, List.prefix_iff_eq_take]
  simp only [List.length_map, ← List.map_take]
  constructor
  · exact forall₂_of_texts
  · intro alike
    rw [List.map_map, List.map_map, ← List.forall₂_eq_eq_eq,
      List.forall₂_map_left_iff, List.forall₂_map_right_iff]
    exact alike.imp fun left right written => Json.canonical_eq_iff.mpr written

theorem eq_append_of_keepsFront {α : Type} {toJson : α → Json}
    (told : ∀ {left right : α},
      (toJson left).sorted = (toJson right).sorted → left = right)
    {first second : List α}
    (kept : keepsFront host (first.map toJson) (second.map toJson)) :
    second = first ++ second.drop first.length := by
  have equal := (keepsFront_iff.mp kept).imp fun _ _ written => told written
  rw [List.forall₂_eq_eq_eq] at equal
  calc
    second = second.take first.length ++ second.drop first.length :=
      (List.take_append_drop first.length second).symm
    _ = first ++ second.drop first.length := by rw [← equal]

end Mendpoint.Warden

/-!
## What an accepted state has

The checks of `validateState` read as facts about the state: one event for
every receipt of a tool or a verifier, one event at most for every receipt of
a call of the model, and no two receipts of one effect.
-/

namespace Mendpoint.Warden

open Library Library.Fallible

variable {host : Host} {state current next : PrivateRuntimeState}

/-- Every part of a state passes its check. -/
structure Accepted (host : Host) (state : PrivateRuntimeState) : Prop where
  manifests : validateManifests host state = .ok ()
  events : ∀ event ∈ state.events, validateEvent host event = .ok ()
  preimages : validatePreimages host state = .ok ()
  receipts : validateReceipts host state = .ok ()
  eventsOfReceipts : validateEffectEvents host state = .ok ()
  eventsOfModel : validateModelEvents host state = .ok ()
  mutations : validateMutations host state = .ok ()

theorem accepted_of_validateState {answer : Unit}
    (valid : validateState host state = .ok answer) : Accepted host state := by
  simp only [validateState, bind_eq_ok, forM_eq_ok] at valid
  rcases valid with ⟨_, _, _, manifests, _, _, _, events, _, _, _, _, _,
    preimages, _, _, _, receipts, _, eventsOfReceipts, _, eventsOfModel, _, _,
    _, _, mutations⟩
  exact {
    manifests := manifests
    events := events
    preimages := preimages
    receipts := receipts
    eventsOfReceipts := eventsOfReceipts
    eventsOfModel := eventsOfModel
    mutations := mutations
  }

theorem accepted_of_encode {encoded : ByteArray}
    (encodes : encodeWardenRuntimeState host state = .ok encoded) :
    Accepted host state := by
  rw [encodeWardenRuntimeState, bind_eq_ok] at encodes
  rcases encodes with ⟨_, valid, _⟩
  exact accepted_of_validateState valid

/-! ## Receipts -/

theorem Accepted.effectIds (accepted : Accepted host state) :
    (state.effectReceipts.map RuntimeEffectReceipt.effectId).Nodup := by
  have checked := accepted.receipts
  rw [validateReceipts, bind_eq_ok] at checked
  rcases checked with ⟨_, _, checked⟩
  exact (eachOnce_eq_ok.mp checked).2.1

theorem Accepted.eventIds (accepted : Accepted host state) :
    ((effectEvents state.events).map RuntimeEvent.effectId).Nodup := by
  have checked := accepted.eventsOfReceipts
  rw [validateEffectEvents, bind_eq_ok] at checked
  rcases checked with ⟨_, once, _⟩
  exact (eachOnce_eq_ok.mp once).2.1

/-- The event of a receipt, which tells what the receipt stores. -/
structure Matches (host : Host) (state : PrivateRuntimeState)
    (event : RuntimeEvent) (receipt : RuntimeEffectReceipt) : Prop where
  effectId : event.effectId = some receipt.effectId
  category : event.category = categoryOf receipt.kind
  result : ∃ content result,
    state.blobContent? receipt.resultDigest = some content ∧
      effectEventResultFromBytes host content = .ok result ∧
      same host result event.result

theorem matches_of_validateEffectEvent {receipt : RuntimeEffectReceipt}
    {event : RuntimeEvent} {answer : Unit}
    (named : event.effectId = some receipt.effectId)
    (valid : validateEffectEvent host state receipt event = .ok answer) :
    Matches host state event receipt := by
  rw [validateEffectEvent] at valid
  cases found : state.blobContent? receipt.requestDigest with
  | none =>
    rw [found] at valid
    cases valid
  | some request =>
    cases stored : state.blobContent? receipt.resultDigest with
    | none =>
      rw [found, stored] at valid
      cases valid
    | some content =>
      rw [found, stored] at valid
      simp only [bind_eq_ok, throwIf_eq_ok, not_not] at valid
      rcases valid with ⟨_, category, result, read, _, equal, _⟩
      exact {
        effectId := named
        category := category
        result := ⟨content, result, stored, read, equal⟩
      }

theorem Accepted.exists_event (accepted : Accepted host state)
    {receipt : RuntimeEffectReceipt}
    (member : receipt ∈ eventReceipts state.effectReceipts) :
    ∃ event ∈ effectEvents state.events, Matches host state event receipt := by
  have checked := accepted.eventsOfReceipts
  rw [validateEffectEvents, bind_eq_ok] at checked
  rcases checked with ⟨_, _, checked⟩
  have valid := forM_eq_ok.mp checked receipt member
  rw [validateEventReceipt] at valid
  cases found : state.events.find? fun event =>
      decide (event.effectId = some receipt.effectId) with
  | none =>
    rw [found] at valid
    cases valid
  | some event =>
    rw [found] at valid
    have named := List.find?_some found
    rw [decide_eq_true_eq] at named
    refine ⟨event, List.mem_filter.mpr
      ⟨List.mem_of_find?_eq_some found, ?_⟩,
      matches_of_validateEffectEvent named valid⟩
    rw [named]
    rfl

theorem Accepted.matched (accepted : Accepted host state)
    (ids : (effectEvents state.events).map RuntimeEvent.effectId =
      (eventReceipts state.effectReceipts).map fun receipt =>
        some receipt.effectId) :
    List.Forall₂ (Matches host state) (effectEvents state.events)
      (eventReceipts state.effectReceipts) := by
  rw [← List.forall₂_eq_eq_eq, List.forall₂_map_left_iff,
    List.forall₂_map_right_iff] at ids
  have listed := (List.forall₂_and_left _ _).mpr
    ⟨fun receipt isReceipt => isReceipt, ids.flip⟩
  apply ((List.forall₂_and_left _ _).mpr
    ⟨fun event isEvent => isEvent, listed.flip⟩).imp
  rintro event receipt ⟨isEvent, isReceipt, named⟩
  rcases accepted.exists_event isReceipt with ⟨other, isOther, matchesOther⟩
  have equal : event = other :=
    List.inj_on_of_nodup_map accepted.eventIds isEvent isOther
      (named.trans matchesOther.effectId.symm)
  rw [equal]
  exact matchesOther

/-! ## Receipts of calls of the model -/

theorem Accepted.usedOnce (accepted : Accepted host state) :
    ((usingEvents state.events).map RuntimeEvent.modelEffectId).Nodup := by
  have checked := accepted.eventsOfModel
  rw [validateModelEvents, bind_eq_ok] at checked
  rcases checked with ⟨_, once, _⟩
  exact (eachOnce_eq_ok.mp once).2.1

theorem Accepted.succeeded (accepted : Accepted host state) :
    (succeededCalls state.modelCalls).length =
      (modelReceipts state.effectReceipts).length +
        (legacyModelEvents state.events).length := by
  have checked := accepted.eventsOfModel
  rw [validateModelEvents, bind_eq_ok] at checked
  rcases checked with ⟨_, _, counted⟩
  rwa [throwIf_eq_ok, not_not] at counted

end Mendpoint.Warden
