import Mendpoint.Trust.EventAudit

/-!
# Logs of tenants

What the calls of one tenant append and are answered does not depend on the
calls of the others, as long as no two tenants choose the same event id.
-/

namespace Mendpoint.Trust

open Mendpoint.Library
open Mendpoint.Library.Fallible

section Tenants

variable {sha256 : String → String} {rows : List EventRow} {tenantId : String}

/-- The calls which write to the log of a tenant. -/
def callsOf (calls : List AppendCall) (tenantId : String) : List AppendCall :=
  calls.filter fun call => decide (call.input.tenantId = tenantId)

/-- What a call is answered after others. -/
def AppendCall.answer (sha256 : String → String) (rows : List EventRow)
    (call : AppendCall) : Except String (EventRow × Bool) :=
  (appendEventRow sha256 call.principals rows call.input).map
    fun appended => (appended.row, appended.inserted)

theorem rowByKey_eventsOf (rows : List EventRow) (tenantId key : String) :
    rowByKey (eventsOf rows tenantId) tenantId key =
      rowByKey rows tenantId key := by
  rw [rowByKey, rowByKey, eventsOf, List.find?_filter]
  congr 1
  ext row
  simp

theorem eventsOf_eventsOf (rows : List EventRow) (tenantId : String) :
    eventsOf (eventsOf rows tenantId) tenantId = eventsOf rows tenantId := by
  simp [eventsOf, List.filter_filter]

theorem row_eventsOf (rows : List EventRow) (input : RowInput) :
    input.row sha256 (eventsOf rows input.tenantId) =
      input.row sha256 rows := by
  simp only [RowInput.row, lastRow, eventsOf_eventsOf]

/-- A call does with the log of its tenant what it does with all logs. -/
theorem append_eventsOf (principals : List Principal) (input : RowInput)
    (own : ∀ row ∈ rows, row.id = input.id → row.tenantId = input.tenantId) :
    appendEventRow sha256 principals (eventsOf rows input.tenantId) input =
      (appendEventRow sha256 principals rows input).map fun appended =>
        { appended with rows := eventsOf appended.rows input.tenantId } := by
  have taken : (∃ row ∈ eventsOf rows input.tenantId, row.id = input.id) ↔
      ∃ row ∈ rows, row.id = input.id := by
    constructor
    · rintro ⟨row, member, same⟩
      exact ⟨row, List.mem_of_mem_filter member, same⟩
    · rintro ⟨row, member, same⟩
      exact ⟨row, List.mem_filter.mpr
        ⟨member, decide_eq_true (own row member same)⟩, same⟩
  rw [appendEventRow, appendEventRow]
  cases requireTenantRecord principals input.actorPrincipalId
      input.tenantId with
  | error message => rfl
  | ok value =>
    rw [ok_bind, ok_bind, rowByKey_eventsOf]
    cases rowByKey rows input.tenantId input.idempotencyKey with
    | some existing =>
      dsimp only
      by_cases same : existing.Same sha256 input
      · rw [throwIf_of_not (not_not.mpr same)]
        rfl
      · rw [throwIf_eq_error.mpr ⟨same, rfl⟩]
        rfl
    | none =>
      dsimp only
      by_cases clash : ∃ row ∈ rows, row.id = input.id
      · rw [throwIf_eq_error.mpr ⟨clash, rfl⟩,
          throwIf_eq_error.mpr ⟨taken.mpr clash, rfl⟩]
        rfl
      · rw [throwIf_of_not clash, throwIf_of_not fun other =>
          clash (taken.mp other), ok_bind, ok_bind, row_eventsOf]
        refine congrArg Except.ok ?_
        simp [eventsOf, RowInput.row]

theorem answer_eventsOf {call : AppendCall}
    (own : ∀ row ∈ rows, row.id = call.input.id →
      row.tenantId = call.input.tenantId) :
    call.answer sha256 (eventsOf rows call.input.tenantId) =
      call.answer sha256 rows := by
  rw [AppendCall.answer, AppendCall.answer, append_eventsOf _ _ own]
  cases appendEventRow sha256 call.principals rows call.input with
  | error message => rfl
  | ok appended => rfl

theorem eventsOf_step {call : AppendCall}
    (own : ∀ row ∈ rows, row.id = call.input.id →
      row.tenantId = call.input.tenantId) :
    eventsOf (call.step sha256 rows) tenantId =
      if call.input.tenantId = tenantId then
        call.step sha256 (eventsOf rows tenantId)
      else eventsOf rows tenantId := by
  split
  · case isTrue same =>
    subst same
    rw [AppendCall.step, AppendCall.step, append_eventsOf _ _ own]
    cases appendEventRow sha256 call.principals rows call.input with
    | error message => rfl
    | ok appended => rfl
  · case isFalse different =>
    rcases step_cases sha256 rows call with same | ⟨_, appended⟩
    · rw [same]
    · have apart : (call.input.row sha256 rows).tenantId ≠ tenantId := different
      rw [appended, eventsOf, List.filter_append, List.filter_cons_of_neg]
      · simp [eventsOf]
      · simpa using apart

/-- No two tenants choose the same event id. -/
def Apart (calls : List AppendCall) : Prop :=
  ∀ call ∈ calls, ∀ other ∈ calls, call.input.id = other.input.id →
    call.input.tenantId = other.input.tenantId

theorem mem_history {calls : List AppendCall} {row : EventRow}
    (member : row ∈ history sha256 calls) :
    ∃ call ∈ calls, row.id = call.input.id ∧
      row.tenantId = call.input.tenantId := by
  induction calls using List.reverseRecOn with
  | nil => cases member
  | append_singleton calls call inductionHypothesis =>
    have older (stored : row ∈ history sha256 calls) :
        ∃ other ∈ calls ++ [call], row.id = other.input.id ∧
          row.tenantId = other.input.tenantId := by
      rcases inductionHypothesis stored with ⟨other, inside, same⟩
      exact ⟨other, List.mem_append_left _ inside, same⟩
    rw [history, Run.run_append] at member
    rcases step_cases sha256 (history sha256 calls) call with
      same | ⟨_, appended⟩
    · exact older (same ▸ member)
    · have split : row ∈ history sha256 calls ++
          [call.input.row sha256 (history sha256 calls)] := appended ▸ member
      rcases List.mem_append.mp split with stored | last
      · exact older stored
      · cases List.mem_singleton.mp last
        exact ⟨call, by simp, rfl, rfl⟩

theorem Apart.own {calls : List AppendCall} {call : AppendCall}
    (apart : Apart (calls ++ [call])) :
    ∀ row ∈ history sha256 calls, row.id = call.input.id →
      row.tenantId = call.input.tenantId := by
  intro row stored same
  rcases mem_history stored with ⟨other, inside, id, tenant⟩
  rw [tenant]
  exact apart other (List.mem_append_left _ inside) call (by simp)
    (id.symm.trans same)

theorem Apart.front {calls : List AppendCall} {call : AppendCall}
    (apart : Apart (calls ++ [call])) : Apart calls :=
  fun one member other inside => apart one (List.mem_append_left _ member) other
    (List.mem_append_left _ inside)

theorem eventsOf_history {calls : List AppendCall} (apart : Apart calls)
    (tenantId : String) :
    eventsOf (history sha256 calls) tenantId =
      history sha256 (callsOf calls tenantId) := by
  induction calls using List.reverseRecOn with
  | nil => rfl
  | append_singleton calls call inductionHypothesis =>
    rw [history, Run.run_append, callsOf, List.filter_append]
    refine (eventsOf_step apart.own).trans ?_
    split
    · case isTrue own =>
      have kept : [call].filter
          (fun call => decide (call.input.tenantId = tenantId)) = [call] := by
        simp [own]
      rw [kept]
      have last : history sha256 (callsOf calls tenantId ++ [call]) =
          call.step sha256 (history sha256 (callsOf calls tenantId)) :=
        Run.run_append ..
      exact (congrArg (AppendCall.step sha256 · call)
        (inductionHypothesis apart.front)).trans last.symm
    · case isFalse different =>
      have dropped : [call].filter
          (fun call => decide (call.input.tenantId = tenantId)) = [] := by
        simp [different]
      rw [dropped, List.append_nil]
      exact inductionHypothesis apart.front

/-- The log of a tenant, and what its calls are answered, are those of its own
calls alone. -/
theorem logs_isolated (sha256 : String → String) {calls : List AppendCall}
    {call : AppendCall} (apart : Apart (calls ++ [call])) :
    eventsOf (history sha256 calls) call.input.tenantId =
        history sha256 (callsOf calls call.input.tenantId) ∧
      call.answer sha256 (history sha256 calls) =
        call.answer sha256
          (history sha256 (callsOf calls call.input.tenantId)) := by
  have own := @eventsOf_history sha256 calls apart.front call.input.tenantId
  refine ⟨own, ?_⟩
  rw [← own, answer_eventsOf apart.own]

end Tenants

/-- Two tenants with one event each. -/
theorem logs_isolated_sample :
    eventsOf (history (fun text => text) [sampleCall "one" "left"]) "right" =
        [] ∧
      (sampleCall "two" "right").answer (fun text => text)
          (history (fun text => text) [sampleCall "one" "left"]) =
        (sampleCall "two" "right").answer (fun text => text) [] :=
  @logs_isolated (fun text => text) [sampleCall "one" "left"]
    (sampleCall "two" "right")
    (by
      unfold Apart
      decide)

end Mendpoint.Trust
