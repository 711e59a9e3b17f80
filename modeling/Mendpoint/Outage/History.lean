import Mendpoint.Library.CanonicalJson
import Mendpoint.Library.Run
import Mendpoint.Outage.Calls

/-!
# The history never stands in the way

Under a hash without collisions the events of the history have different
hashes, and so has the next one: a call changes the rows as it would with an
empty history.
-/

namespace Mendpoint.Outage

open Mendpoint.Library
open Mendpoint.Library.IsoTime

/-! ## What a hash determines -/

theorem optionalText_injective {left right : Option String}
    (same : optionalText left = optionalText right) : left = right := by
  cases left with
  | none =>
    cases right with
    | none => rfl
    | some text => cases same
  | some text =>
    cases right with
    | none => cases same
    | some other => exact congrArg some (Written.str.inj same)

theorem DependencyKind.text_injective {left right : DependencyKind}
    (same : left.text = right.text) : left = right := by
  revert same
  cases left <;> cases right <;> decide

theorem mem_of_canonical_eq {left right : List (String × Written)}
    (same : (Written.obj left).canonical = (Written.obj right).canonical)
    (field : String × Written) :
    field ∈ Written.sortedFields left ↔
      field ∈ Written.sortedFields right := by
  have equal := Written.stringify_injective same
  rw [Written.sorted, Written.sorted, Written.obj.injEq] at equal
  have forth := (List.perm_insertionSort
    (fun one two : String × Written =>
      Text.codeUnitLe one.1 two.1 = true)
    (Written.sortedFields left)).mem_iff (a := field)
  have back := (List.perm_insertionSort
    (fun one two : String × Written =>
      Text.codeUnitLe one.1 two.1 = true)
    (Written.sortedFields right)).mem_iff (a := field)
  rw [← forth, equal, back]

theorem eventContent_canonical {scope other : Scope}
    {kind kind' : EventKind} {observedAt observedAt' : Instant}
    {details details' : Written} {previousHash previousHash' : Option String}
    (same : (eventContent scope kind observedAt details
      previousHash).canonical =
      (eventContent other kind' observedAt' details'
        previousHash').canonical) :
    scope.key = other.key ∧ previousHash = previousHash' := by
  have fields := mem_of_canonical_eq same
  have previous : ∀ text, (optionalText text).sorted = optionalText text := by
    intro text
    cases text <;> simp only [optionalText, Written.sorted]
  simp only [Written.sortedFields, Written.sorted, previous, List.mem_cons,
    List.not_mem_nil, or_false] at fields
  have tenant := (fields ("tenantId", .str scope.tenantId)).mp (by simp)
  have dependency := (fields
    ("dependencyKind", .str scope.dependencyKind.text)).mp (by simp)
  have provider := (fields ("providerId", .str scope.providerId)).mp (by simp)
  have operation := (fields ("operationId", .str scope.operationId)).mp
    (by simp)
  have hash := (fields ("previousHash", optionalText previousHash)).mp
    (by simp)
  simp only [Prod.mk.injEq, Written.str.injEq, true_and, false_and,
    String.reduceEq, or_false, false_or] at tenant dependency provider hash
  simp only [Prod.mk.injEq, Written.str.injEq, true_and, false_and,
    String.reduceEq, or_false, false_or] at operation
  refine ⟨?_, optionalText_injective hash⟩
  rw [Scope.key, Scope.key, tenant, provider, operation,
    DependencyKind.text_injective dependency]

/-! ## Chained histories -/

section Chains

variable {sha256 : String → String}

/-- The event of a call behind a history. -/
def event (sha256 : String → String) (history : List HistoryRow)
    (scope : Scope) (kind : EventKind) (observedAt : Instant)
    (details : Written) : HistoryRow where
  key := scope.key
  eventKind := kind
  observedAt := observedAt
  details := details.sorted
  previousHash := lastHash history scope.key
  eventHash := sha256 (eventContent scope kind observedAt details.sorted
    (lastHash history scope.key)).canonical

/-- Every event is one behind the events before it, with a hash of its own. -/
inductive Chained (sha256 : String → String) : List HistoryRow → Prop where
  | nil : Chained sha256 []
  | snoc {history : List HistoryRow} (chained : Chained sha256 history)
      (scope : Scope) (kind : EventKind) (observedAt : Instant)
      (details : Written)
      (fresh :
        (event sha256 history scope kind observedAt details).eventHash ∉
          history.map HistoryRow.eventHash) :
      Chained sha256
        (history ++ [event sha256 history scope kind observedAt details])

namespace Chained

variable {history : List HistoryRow}

theorem nodup (chained : Chained sha256 history) :
    (history.map HistoryRow.eventHash).Nodup := by
  induction chained with
  | nil => exact .nil
  | snoc _ scope kind observedAt details fresh inductionHypothesis =>
    rw [List.map_append, List.nodup_append]
    refine ⟨inductionHypothesis, List.nodup_singleton _, ?_⟩
    rintro hash member other inside rfl
    rw [List.mem_singleton.mp inside] at member
    exact fresh member

theorem exists_event (chained : Chained sha256 history) {row : HistoryRow}
    (member : row ∈ history) :
    ∃ front back scope kind observedAt details,
      history = front ++ row :: back ∧
      row = event sha256 front scope kind observedAt details := by
  induction chained with
  | nil => cases member
  | @snoc history _ scope kind observedAt details _ inductionHypothesis =>
    rcases List.mem_append.mp member with old | new
    · rcases inductionHypothesis old with
        ⟨front, back, scope', kind', observedAt', details', split, made⟩
      refine ⟨front,
        back ++ [event sha256 history scope kind observedAt details],
        scope', kind', observedAt', details', ?_, made⟩
      rw [split, List.append_assoc]
      rfl
    · rw [List.mem_singleton.mp new]
      exact ⟨history, [], scope, kind, observedAt, details, rfl, rfl⟩

end Chained

theorem lastHash_eq_some {history : List HistoryRow} {key : Key}
    {hash : String} (last : lastHash history key = some hash) :
    ∃ row ∈ history, row.eventHash = hash := by
  rw [lastHash, Option.map_eq_some_iff] at last
  rcases last with ⟨row, found, same⟩
  exact ⟨row, (List.mem_filter.mp (List.mem_of_getLast? found)).1, same⟩

theorem lastHash_append {front back : List HistoryRow} {row : HistoryRow} :
    ∃ later ∈ row :: back,
      lastHash (front ++ row :: back) row.key = some later.eventHash := by
  have kept : (row :: back).filter
      (fun other => decide (other.key = row.key)) ≠ [] := by
    intro none'
    have absent := List.filter_eq_nil_iff.mp none' row List.mem_cons_self
    exact absent (decide_eq_true rfl)
  refine ⟨((row :: back).filter fun other =>
    decide (other.key = row.key)).getLast kept, ?_, ?_⟩
  · exact (List.mem_filter.mp (List.getLast_mem kept)).1
  · rw [lastHash, List.filter_append, List.getLast?_append_of_ne_nil _ kept,
      List.getLast?_eq_some_getLast kept]
    rfl

theorem Chained.fresh {history : List HistoryRow}
    (chained : Chained sha256 history)
    (collisionFree : Function.Injective sha256) (scope : Scope)
    (kind : EventKind) (observedAt : Instant) (details : Written) :
    (event sha256 history scope kind observedAt details).eventHash ∉
      history.map HistoryRow.eventHash := by
  intro member
  rcases List.mem_map.mp member with ⟨row, inside, sameHash⟩
  rcases chained.exists_event inside with
    ⟨front, back, scope', kind', observedAt', details', split, made⟩
  rw [made] at sameHash
  rcases eventContent_canonical (collisionFree sameHash) with
    ⟨sameKey, samePrevious⟩
  have rowKey : row.key = scope.key := by
    rw [made]
    exact sameKey
  rcases @lastHash_append front back row with
    ⟨later, isLater, last⟩
  rw [← split, rowKey, ← samePrevious] at last
  rcases lastHash_eq_some last with ⟨earlier, isEarlier, sameHashes⟩
  have nodup := chained.nodup
  rw [split, List.map_append, List.nodup_append] at nodup
  exact nodup.2.2 _ (List.mem_map_of_mem isEarlier) _
    (List.mem_map_of_mem isLater) sameHashes

theorem Chained.append {store : Store} (chained : Chained sha256 store.history)
    (collisionFree : Function.Injective sha256) (scope : Scope)
    (kind : EventKind) (observedAt : Instant) (details : Written) :
    append sha256 scope kind observedAt details store = .ok { store with
      history := store.history ++
        [event sha256 store.history scope kind observedAt details] } := by
  rw [Outage.append]
  exact if_neg (chained.fresh collisionFree scope kind observedAt details)

theorem chained_of_append {scope : Scope} {kind : EventKind}
    {observedAt : Instant} {details : Written} {store after : Store}
    (chained : Chained sha256 store.history)
    (appended : Outage.append sha256 scope kind observedAt details store =
      .ok after) : Chained sha256 after.history := by
  rw [Outage.append] at appended
  split at appended
  · cases appended
  · next fresh =>
      cases appended
      exact .snoc chained scope kind observedAt details fresh

theorem Writes.chained {store after : Store} {scope : Scope} {row : OutageRow}
    (writes : Writes sha256 store after scope row)
    (chained : Chained sha256 store.history) :
    Chained sha256 after.history := by
  rcases writes.appended with ⟨kind, observedAt, details, _, appended⟩
  have kept : Chained sha256 (store.write scope row).history := chained
  exact chained_of_append kept appended

theorem Chained.step {store : Store} (chained : Chained sha256 store.history)
    (call : Call) : Chained sha256 (step sha256 store call).history := by
  rcases @step_cases sha256 store call with
    same | ⟨scope, row, _, writes⟩
  · rw [same]
    exact chained
  · exact writes.chained chained

theorem chained_run {store : Store} (chained : Chained sha256 store.history)
    (calls : List Call) :
    Chained sha256 (Run.run (step sha256) store calls).history := by
  induction calls generalizing store with
  | nil => exact chained
  | cons call rest inductionHypothesis =>
    exact inductionHypothesis (chained.step call)

/-! ## The rows without the history -/

/-- The same error, or the same answer and the same rows. -/
def Alike {α : Type} (left right : Except String (Store × α)) : Prop :=
  left.map (fun answer => (answer.1.operations, answer.2)) =
    right.map (fun answer => (answer.1.operations, answer.2))

namespace Alike

variable {α β : Type}

theorem bind (first : Except String β)
    {left right : β → Except String (Store × α)}
    (alike : ∀ value, Alike (left value) (right value)) :
    Alike (first >>= left) (first >>= right) := by
  cases first with
  | error code => rfl
  | ok value => exact alike value

theorem ite {holds : Prop} [Decidable holds]
    {left right left' right' : Except String (Store × α)}
    (first : Alike left right) (second : Alike left' right') :
    Alike (if holds then left else left') (if holds then right else right') := by
  split
  · exact first
  · exact second

theorem operations {left right : Except String (Store × α)}
    {store bare : Store} (alike : Alike left right)
    (same : store.operations = bare.operations) :
    (match left with
      | .ok (after, _) => after
      | .error _ => store).operations =
    (match right with
      | .ok (after, _) => after
      | .error _ => bare).operations := by
  cases left with
  | error code =>
    cases right with
    | error code' => exact same
    | ok answer => cases alike
  | ok answer =>
    cases right with
    | error code' => cases alike
    | ok answer' => exact congrArg Prod.fst (Except.ok.inj alike)

end Alike

/-- A store without its history. -/
def Store.bare (store : Store) : Store :=
  { store with history := [] }

theorem Store.row_bare (store : Store) (scope : Scope) :
    store.bare.row scope = store.row scope := rfl

section Bare

variable {store : Store} (chained : Chained sha256 store.history)
  (collisionFree : Function.Injective sha256)

include chained collisionFree

theorem Alike.append {α : Type} (scope : Scope) (kind : EventKind)
    (observedAt : Instant) (details details' : Written) (row : OutageRow)
    (answer : α) :
    Alike
      (append sha256 scope kind observedAt details (store.write scope row) >>=
        fun after => pure (after, answer))
      (Outage.append sha256 scope kind observedAt details'
          (store.bare.write scope row) >>=
        fun after => pure (after, answer)) := by
  have kept : Chained sha256 (store.write scope row).history := chained
  have fresh : Chained sha256 (store.bare.write scope row).history := .nil
  rw [kept.append collisionFree, fresh.append collisionFree]
  rfl

theorem enqueue_bare (input : EnqueueInput) (observedAt : String) :
    Alike (enqueue sha256 input observedAt store)
      (enqueue sha256 input observedAt store.bare) := by
  rw [enqueue, enqueue]
  apply Alike.bind _ fun _ => ?_
  apply Alike.bind _ fun _ => ?_
  apply Alike.bind _ fun observed => ?_
  apply Alike.bind _ fun nextAttemptAt => ?_
  apply Alike.bind _ fun expiresAt => ?_
  apply Alike.bind _ fun _ => ?_
  apply Alike.bind _ fun openedAt => ?_
  rw [Store.row_bare]
  cases store.row input.scope with
  | none =>
    apply Alike.bind _ fun _ => ?_
    exact Alike.append chained collisionFree _ _ _ _ _ _ _
  | some existing => exact Alike.ite rfl rfl

theorem claim_bare (input : ClaimInput) :
    Alike (claim sha256 input store) (claim sha256 input store.bare) := by
  rw [claim, claim]
  apply Alike.bind _ fun _ => ?_
  apply Alike.bind _ fun _ => ?_
  apply Alike.bind _ fun now => ?_
  apply Alike.bind _ fun _ => ?_
  rw [Store.row_bare]
  cases store.row input.scope with
  | none => rfl
  | some current =>
    apply Alike.bind _ fun _ => ?_
    apply Alike.bind _ fun _ => ?_
    rw [claimRow, claimRow]
    apply Alike.ite
    · exact Alike.append chained collisionFree _ _ _ _ _ _ _
    · apply Alike.ite
      · rfl
      · cases Instant.ofMs? (now.ms + input.leaseMs) with
        | none => rfl
        | some claimExpiresAt =>
          exact Alike.append chained collisionFree _ _ _ _ _ _ _

theorem complete_bare (held : Claim) (completionDigest observedAt : String) :
    Alike (complete sha256 held completionDigest observedAt store)
      (complete sha256 held completionDigest observedAt store.bare) := by
  rw [complete, complete]
  apply Alike.bind _ fun _ => ?_
  apply Alike.bind _ fun _ => ?_
  apply Alike.bind _ fun observed => ?_
  rw [Store.row_bare]
  cases store.row held.scope with
  | none => rfl
  | some current =>
    apply Alike.bind _ fun _ => ?_
    apply Alike.ite
    · apply Alike.bind _ fun _ => ?_
      rfl
    · apply Alike.ite
      · rfl
      · exact Alike.append chained collisionFree _ _ _ _ _ _ _

theorem fail_bare (held : Claim) (decision : FailureDecision)
    (observedAt : String) :
    Alike (fail sha256 held decision observedAt store)
      (fail sha256 held decision observedAt store.bare) := by
  rw [fail, fail]
  apply Alike.bind _ fun _ => ?_
  apply Alike.bind _ fun observed => ?_
  apply Alike.bind _ fun decided => ?_
  rw [Store.row_bare]
  cases store.row held.scope with
  | none => rfl
  | some current =>
    apply Alike.bind _ fun _ => ?_
    apply Alike.bind _ fun _ => ?_
    apply Alike.bind _ fun _ => ?_
    apply Alike.bind _ fun _ => ?_
    apply Alike.bind _ fun _ => ?_
    exact Alike.append chained collisionFree _ _ _ _ _ _ _

theorem reactivateAuthority_bare (scope : Scope) (input : ReactivateInput) :
    Alike (reactivateAuthority sha256 scope input store)
      (reactivateAuthority sha256 scope input store.bare) := by
  rw [reactivateAuthority, reactivateAuthority]
  apply Alike.bind _ fun _ => ?_
  apply Alike.bind _ fun _ => ?_
  apply Alike.bind _ fun _ => ?_
  apply Alike.bind _ fun now => ?_
  rw [Store.row_bare]
  cases store.row scope with
  | none => rfl
  | some current =>
    apply Alike.bind _ fun _ => ?_
    apply Alike.bind _ fun _ => ?_
    apply Alike.bind _ fun _ => ?_
    apply Alike.bind _ fun _ => ?_
    exact Alike.append chained collisionFree _ _ _ _ _ _ _

theorem reopen_bare (scope : Scope) (input : ReopenInput) :
    Alike (reopen sha256 scope input store)
      (reopen sha256 scope input store.bare) := by
  rw [reopen, reopen]
  apply Alike.bind _ fun _ => ?_
  apply Alike.bind _ fun observed => ?_
  apply Alike.bind _ fun expiresAt => ?_
  apply Alike.bind _ fun nextAttemptAt => ?_
  apply Alike.bind _ fun _ => ?_
  rw [Store.row_bare]
  cases store.row scope with
  | none => rfl
  | some current =>
    apply Alike.bind _ fun _ => ?_
    rw [reopenRow, reopenRow]
    apply Alike.ite
    · rfl
    · apply Alike.ite
      · rfl
      · apply Alike.ite
        · rfl
        · exact Alike.append chained collisionFree _ _ _ _ _ _ _

theorem operations_step_bare (call : Call) :
    (step sha256 store call).operations =
      (step sha256 store.bare call).operations := by
  cases call with
  | enqueue input observedAt =>
    exact (enqueue_bare chained collisionFree input observedAt).operations rfl
  | claim input =>
    exact (claim_bare chained collisionFree input).operations rfl
  | complete held completionDigest observedAt =>
    exact (complete_bare chained collisionFree held completionDigest
      observedAt).operations rfl
  | fail held decision observedAt =>
    exact (fail_bare chained collisionFree held decision
      observedAt).operations rfl
  | reactivateAuthority scope input =>
    exact (reactivateAuthority_bare chained collisionFree scope
      input).operations rfl
  | reopen scope input =>
    exact (reopen_bare chained collisionFree scope input).operations rfl

end Bare

/-- A step which forgets the history. -/
def bareStep (sha256 : String → String) (store : Store) (call : Call) :
    Store :=
  (step sha256 store call).bare

variable {store : Store}

theorem bareStep_bare (chained : Chained sha256 store.history)
    (collisionFree : Function.Injective sha256) (call : Call) :
    bareStep sha256 store.bare call = (step sha256 store call).bare := by
  have same := operations_step_bare chained collisionFree call
  exact congrArg (fun rows => (⟨rows, []⟩ : Store)) same.symm

theorem run_bare (chained : Chained sha256 store.history)
    (collisionFree : Function.Injective sha256) (calls : List Call) :
    (Run.run (step sha256) store calls).bare =
      Run.run (bareStep sha256) store.bare calls := by
  induction calls generalizing store with
  | nil => rfl
  | cons call rest inductionHypothesis =>
    rw [Run.run_cons, Run.run_cons, bareStep_bare chained collisionFree,
      inductionHypothesis (chained.step call)]

theorem along_bare {condition : Store → Call → Prop}
    (onRows : ∀ store call, condition store.bare call → condition store call)
    (chained : Chained sha256 store.history)
    (collisionFree : Function.Injective sha256) {calls : List Call}
    (along : Run.Along (bareStep sha256) condition store.bare calls) :
    Run.Along (step sha256) condition store calls := by
  induction calls generalizing store with
  | nil => trivial
  | cons call rest inductionHypothesis =>
    rcases along with ⟨first, others⟩
    rw [bareStep_bare chained collisionFree] at others
    exact ⟨onRows store call first,
      inductionHypothesis (chained.step call) others⟩

end Chains

end Mendpoint.Outage
