import Mendpoint.Outage.History

/-!
# Fencing

A worker changes a row only under the newest generation of its claims and
before its lease ends, where leases end in the order of their texts.
-/

namespace Mendpoint.Outage

open Mendpoint.Library
open Mendpoint.Library.IsoTime

/-- A claimed row whose lease ends after a time. -/
def OutageRow.LeasedAt (row : OutageRow) (now : Instant) : Prop :=
  row.status = .claimed ∧
    ∃ claimExpiresAt ∈ row.claimExpiresAt, now.ms < claimExpiresAt.ms

instance (row : OutageRow) (now : Instant) : Decidable (row.LeasedAt now) :=
  inferInstanceAs (Decidable (_ ∧ ∃ lease ∈ row.claimExpiresAt, _))

/-- A lease which has ended in the order of texts has ended in time. -/
def EndedByText (store : Store) (scope : Scope) (time : String) : Prop :=
  ∀ row ∈ store.row scope, ∀ now ∈ Instant.parse? time,
    ∀ claimExpiresAt ∈ row.claimExpiresAt,
      claimExpiresAt.textLe now = true → claimExpiresAt.ms ≤ now.ms

/-- A lease which has ended in time has ended in the order of texts. -/
def EndedInText (store : Store) (scope : Scope) (time : String) : Prop :=
  ∀ row ∈ store.row scope, ∀ now ∈ Instant.parse? time,
    ∀ claimExpiresAt ∈ row.claimExpiresAt,
      claimExpiresAt.ms ≤ now.ms → claimExpiresAt.textLe now = true

instance (store : Store) (scope : Scope) (time : String) :
    Decidable (EndedByText store scope time) :=
  inferInstanceAs (Decidable (∀ row ∈ store.row scope, _))

instance (store : Store) (scope : Scope) (time : String) :
    Decidable (EndedInText store scope time) :=
  inferInstanceAs (Decidable (∀ row ∈ store.row scope, _))

/-- The texts which a call compares with a lease are ordered like times. -/
def LeaseTextsAgree (store : Store) : Call → Prop
  | .claim input => EndedByText store input.scope input.now
  | .complete held _ observedAt => EndedInText store held.scope observedAt
  | .fail held _ observedAt => EndedInText store held.scope observedAt
  | _ => True

/-! ## Rows -/

/-- Attempts within the budget. -/
def OutageRow.Budgeted (row : OutageRow) : Prop :=
  0 ≤ row.attemptsConsumed ∧ row.attemptsConsumed ≤ row.retryBudget

def Store.Budgeted (store : Store) : Prop :=
  ∀ key row, store.operations.get? key = some row → row.Budgeted

theorem recovering_claimed {row : OutageRow} {now : Instant}
    (recovering : row.recovering now = true) :
    row.status = .claimed ∧ ∃ claimExpiresAt,
      row.claimExpiresAt = some claimExpiresAt ∧
      claimExpiresAt.textLe now = true := by
  rw [OutageRow.recovering, Bool.and_eq_true, decide_eq_true_iff,
    Option.any_eq_true] at recovering
  exact recovering

section Operations

variable {sha256 : String → String}

namespace Leased

variable {input : ClaimInput} {current record : OutageRow} {now : Instant}

theorem generation (leased : Leased input current record now) :
    record.claimGeneration = current.claimGeneration + 1 := by
  rcases leased.leased with ⟨claimExpiresAt, _, rfl⟩
  rfl

theorem status (leased : Leased input current record now) :
    current.status = .queued ∨ current.status = .blocked ∨
      current.recovering now = true := by
  rcases leased.eligible with eligible | reconciling | expired
  · rw [OutageRow.retryEligible, Bool.and_eq_true, Bool.and_eq_true,
      Bool.and_eq_true, Bool.or_eq_true, decide_eq_true_iff] at eligible
    rcases eligible.1.1.1 with queued | recovering
    · exact Or.inl queued
    · exact Or.inr (Or.inr recovering)
  · rw [OutageRow.reconciling, decide_eq_true_iff] at reconciling
    exact Or.inr (Or.inl reconciling.1)
  · rw [OutageRow.expiredRecovery, Bool.and_eq_true] at expired
    exact Or.inr (Or.inr expired.1)

theorem notCompleted (leased : Leased input current record now) :
    current.status ≠ .completed := by
  intro completed
  rcases leased.status with queued | blocked | recovering
  · rw [completed] at queued
    cases queued
  · rw [completed] at blocked
    cases blocked
  · rw [(recovering_claimed recovering).1] at completed
    cases completed

theorem budgeted (leased : Leased input current record now)
    (budgeted : current.Budgeted) : record.Budgeted := by
  rcases leased.leased with ⟨claimExpiresAt, _, rfl⟩
  rcases budgeted with ⟨nonneg, within⟩
  rw [OutageRow.Budgeted, OutageRow.lease]
  simp only
  split
  · next consumes =>
      rw [Bool.and_eq_true, Bool.not_eq_true', Bool.not_eq_true'] at consumes
      rcases leased.eligible with eligible | reconciling | expired
      · rw [OutageRow.retryEligible, Bool.and_eq_true,
          decide_eq_true_iff] at eligible
        omega
      · rw [consumes.1] at reconciling
        cases reconciling
      · rw [consumes.2] at expired
        cases expired
  · omega

theorem notLeased (leased : Leased input current record now)
    {store : Store} (found : store.row input.scope = some current)
    (agree : EndedByText store input.scope input.now) :
    ¬ current.LeasedAt now := by
  rintro ⟨claimed, claimExpiresAt, lease, later⟩
  rcases leased.status with queued | blocked | recovering
  · rw [claimed] at queued
    cases queued
  · rw [claimed] at blocked
    cases blocked
  · rcases (recovering_claimed recovering).2 with ⟨same, lease', past⟩
    rw [lease] at lease'
    cases lease'
    have ended := agree current found now leased.parsed _ lease past
    omega

end Leased

variable {store : Store} {current : OutageRow}

theorem Held.leasedAt {held : Claim} {observedAt : String}
    {observed : Instant}
    (holds : Held store held observedAt current observed)
    (agree : EndedInText store held.scope observedAt) :
    current.claimOwner = some held.claimOwner ∧
      current.claimGeneration = held.claimGeneration ∧
      current.LeasedAt observed := by
  have active := holds.active
  rw [OutageRow.activeFor, Bool.and_eq_true, decide_eq_true_iff,
    Option.any_eq_true] at active
  rcases active with ⟨⟨claimed, owner, generation⟩, claimExpiresAt, lease,
    later⟩
  refine ⟨owner, generation, claimed, claimExpiresAt, lease, ?_⟩
  by_contra past
  rw [agree current holds.found observed holds.parsed _ lease
    (Int.not_lt.mp past)] at later
  cases later

theorem Held.claimed {held : Claim} {observedAt : String}
    {observed : Instant}
    (holds : Held store held observedAt current observed) :
    current.status = .claimed := by
  have active := holds.active
  rw [OutageRow.activeFor, Bool.and_eq_true, decide_eq_true_iff] at active
  exact active.1.1

theorem Change.advances {call : Call} {scope : Scope} {row : OutageRow}
    (change : Change store call scope row)
    (found : store.row scope = some current) :
    current.claimGeneration ≤ row.claimGeneration ∧
      current.status ≠ .completed := by
  cases change with
  | enqueued absent new =>
    rw [absent] at found
    cases found
  | expired found' queued =>
    rw [found'] at found
    cases found
    rw [queued]
    exact ⟨Nat.le_refl _, fun other => nomatch other⟩
  | leased found' leased =>
    rw [found'] at found
    cases found
    rw [leased.generation]
    exact ⟨Nat.le_succ _, leased.notCompleted⟩
  | completed holds =>
    rw [holds.found] at found
    cases found
    rw [holds.claimed]
    exact ⟨Nat.le_refl _, fun other => nomatch other⟩
  | failed holds failure =>
    rw [holds.found] at found
    cases found
    rcases failure.checked with ⟨openedAt, nextAttemptAt, _, rfl⟩
    rw [holds.claimed]
    exact ⟨Nat.le_refl _, fun other => nomatch other⟩
  | reactivated found' reactivated =>
    rw [found'] at found
    cases found
    refine ⟨Nat.le_refl _, ?_⟩
    rcases reactivated.waiting with blocked | queued
    · rw [blocked]
      exact fun other => nomatch other
    · rw [queued]
      exact fun other => nomatch other
  | reopened found' failed _ _ =>
    rw [found'] at found
    cases found
    rw [failed]
    exact ⟨Nat.le_refl _, fun other => nomatch other⟩

theorem Change.budgeted {store : Store} {call : Call} {scope : Scope}
    {row : OutageRow} (change : Change store call scope row)
    (budgeted : store.Budgeted) : row.Budgeted := by
  cases change with
  | enqueued absent new =>
    rw [OutageRow.Budgeted, new.attempts]
    have positive := new.budget
    omega
  | expired found queued =>
    rcases budgeted _ _ found with ⟨nonneg, within⟩
    exact ⟨nonneg, within⟩
  | leased found leased => exact leased.budgeted (budgeted _ _ found)
  | completed holds =>
    rcases budgeted _ _ holds.found with ⟨nonneg, within⟩
    exact ⟨nonneg, within⟩
  | failed holds failure =>
    rcases failure.checked with ⟨openedAt, nextAttemptAt, _, rfl⟩
    rcases budgeted _ _ holds.found with ⟨nonneg, within⟩
    exact ⟨nonneg, within⟩
  | reactivated found _ =>
    rcases budgeted _ _ found with ⟨nonneg, within⟩
    exact ⟨nonneg, within⟩
  | reopened found _ _ _ =>
    rcases budgeted _ _ found with ⟨nonneg, within⟩
    exact ⟨Int.le_refl 0, Int.le_trans nonneg within⟩

theorem step_get? (store : Store) (call : Call) (key : Key) :
    (step sha256 store call).operations.get? key =
        store.operations.get? key ∨
      ∃ scope row, scope.key = key ∧ Change store call scope row ∧
        (step sha256 store call).operations.get? key = some row := by
  rcases @step_cases sha256 store call with
    same | ⟨scope, row, change, writes⟩
  · rw [same]
    exact Or.inl rfl
  · rw [writes.operations]
    by_cases atKey : scope.key = key
    · right
      refine ⟨scope, row, atKey, change, ?_⟩
      rw [← atKey]
      exact OrderedMap.get?_set_self _ _ _
    · left
      exact OrderedMap.get?_set_of_ne _ _ atKey

theorem Store.Budgeted.step {store : Store} (budgeted : store.Budgeted)
    (call : Call) : (step sha256 store call).Budgeted := by
  intro key row found
  rcases @step_get? sha256 store call key with
    same | ⟨scope, written, _, change, wrote⟩
  · rw [same] at found
    exact budgeted key row found
  · rw [wrote] at found
    cases found
    exact change.budgeted budgeted

/-! ## Steps -/

/-- What one call of a worker or an operator may do. -/
structure Fenced (sha256 : String → String) (store : Store) (call : Call) :
    Prop where
  /-- Rows stay, their generations grow, completed rows do not change. -/
  rows : ∀ key row, store.operations.get? key = some row → ∃ after,
    (step sha256 store call).operations.get? key = some after ∧
    row.claimGeneration ≤ after.claimGeneration ∧
    (row.status = .completed → after = row)
  budget : ∀ key row,
    (step sha256 store call).operations.get? key = some row →
    row.attemptsConsumed ≤ row.retryBudget
  /-- A claim raises the generation of a row which is not leased. -/
  claims : ∀ input after record, call = .claim input →
    claim sha256 input store = .ok (after, some record) →
    ∃ current now, store.row input.scope = some current ∧
      Instant.parse? input.now = some now ∧
      current.claimGeneration < record.claimGeneration ∧
      after.row input.scope = some record ∧ ¬ current.LeasedAt now
  /-- A worker settles a row which it has leased, and no other. -/
  settles : ∀ held observedAt,
    (∃ digest, call = .complete held digest observedAt) ∨
      (∃ decision, call = .fail held decision observedAt) →
    (∃ key, (step sha256 store call).operations.get? key ≠
      store.operations.get? key) →
    ∃ current observed, store.row held.scope = some current ∧
      Instant.parse? observedAt = some observed ∧
      current.claimOwner = some held.claimOwner ∧
      current.claimGeneration = held.claimGeneration ∧
      current.LeasedAt observed

theorem fenced_rows (store : Store) (call : Call) (key : Key)
    (row : OutageRow) (found : store.operations.get? key = some row) :
    ∃ after, (step sha256 store call).operations.get? key = some after ∧
      row.claimGeneration ≤ after.claimGeneration ∧
      (row.status = .completed → after = row) := by
  rcases @step_get? sha256 store call key with
    same | ⟨scope, written, atKey, change, wrote⟩
  · exact ⟨row, same.trans found, Nat.le_refl _, fun _ => rfl⟩
  · rw [← atKey] at found
    rcases change.advances found with ⟨grows, open'⟩
    exact ⟨written, wrote, grows, fun completed => absurd completed open'⟩

theorem fenced_claims {input : ClaimInput}
    (agree : EndedByText store input.scope input.now) {after : Store}
    {record : OutageRow}
    (claimed : claim sha256 input store = .ok (after, some record)) :
    ∃ current now, store.row input.scope = some current ∧
      Instant.parse? input.now = some now ∧
      current.claimGeneration < record.claimGeneration ∧
      after.row input.scope = some record ∧ ¬ current.LeasedAt now := by
  rcases claim_cases claimed with ⟨_, impossible⟩ |
    ⟨current, now, found, ⟨impossible, _⟩ |
      ⟨granted, answer, leased, writes⟩⟩
  · cases impossible
  · cases impossible
  · cases answer
    refine ⟨current, now, found, leased.parsed, ?_, ?_,
      leased.notLeased found agree⟩
    · rw [leased.generation]
      exact Nat.lt_succ_self _
    · rw [Store.row, writes.operations]
      exact OrderedMap.get?_set_self _ _ _

theorem fenced_of_agree (budgeted : store.Budgeted) {call : Call}
    (agree : LeaseTextsAgree store call) :
    Fenced sha256 store call where
  rows := fenced_rows store call
  budget key row found := (budgeted.step call key row found).2
  claims := by
    rintro input after record rfl claimed
    exact fenced_claims agree claimed
  settles := by
    rintro held observedAt (⟨completionDigest, rfl⟩ | ⟨decision, rfl⟩)
      ⟨key, changed⟩
    · rcases @step_get? sha256 store _ key with
        same | ⟨scope, written, atKey, change, wrote⟩
      · exact absurd same changed
      · cases change with
        | completed holds =>
          rcases holds.leasedAt agree with ⟨owner, generation, leased⟩
          exact ⟨_, _, holds.found, holds.parsed, owner, generation,
            leased⟩
    · rcases @step_get? sha256 store _ key with
        same | ⟨scope, written, atKey, change, wrote⟩
      · exact absurd same changed
      · cases change with
        | failed holds failure =>
          rcases holds.leasedAt agree with ⟨owner, generation, leased⟩
          exact ⟨_, _, holds.found, holds.parsed, owner, generation,
            leased⟩

/-! ## Runs -/

variable (sha256)

/-- The key and the generation which a successful claim returns. -/
def grant (store : Store) : Call → Option (Key × Nat)
  | .claim input =>
    match claim sha256 input store with
    | .ok (_, some record) =>
      some (input.scope.key, record.claimGeneration)
    | _ => none
  | _ => none

/-- The generations which the claims of a run return, in order. -/
def grants : Store → List Call → List (Key × Nat)
  | _, [] => []
  | store, call :: rest =>
    (grant sha256 store call).toList ++
      grants (step sha256 store call) rest

variable {sha256}

/-- The newest generation of a key. -/
def generation (store : Store) (key : Key) : Nat :=
  ((store.operations.get? key).map OutageRow.claimGeneration).getD 0

theorem generation_step (store : Store) (call : Call) (key : Key) :
    generation store key ≤ generation (step sha256 store call) key := by
  rw [generation, generation]
  cases found : store.operations.get? key with
  | none => exact Nat.zero_le _
  | some row =>
    rcases @fenced_rows sha256 store call key row found with
      ⟨after, wrote, grows, _⟩
    rw [wrote]
    exact grows

theorem grant_generation {call : Call} {key : Key} {number : Nat}
    (granted : grant sha256 store call = some (key, number)) :
    generation store key < number ∧
      generation (step sha256 store call) key = number := by
  cases call with
  | claim input =>
    rw [grant] at granted
    split at granted
    · next after record claimed =>
        cases granted
        rcases claim_cases claimed with ⟨_, impossible⟩ |
          ⟨current, now, found, ⟨impossible, _⟩ |
            ⟨record', answer, leased, writes⟩⟩
        · cases impossible
        · cases impossible
        · cases answer
          have before : store.operations.get? input.scope.key =
              some current := found
          have stepped : step sha256 store (.claim input) = after := by
            rw [step, claimed]
            rfl
          rw [stepped, generation, generation, before, writes.operations,
            OrderedMap.get?_set_self, leased.generation]
          exact ⟨Nat.lt_succ_self _, leased.generation⟩
    · cases granted
  | enqueue => cases granted
  | complete => cases granted
  | fail => cases granted
  | reactivateAuthority => cases granted
  | reopen => cases granted

theorem generation_lt_of_mem_grants {calls : List Call} {key : Key}
    {number : Nat} (granted : (key, number) ∈ grants sha256 store calls) :
    generation store key < number := by
  induction calls generalizing store with
  | nil => cases granted
  | cons call rest inductionHypothesis =>
    rw [grants] at granted
    rcases List.mem_append.mp granted with now | later
    · exact (grant_generation (Option.mem_toList.mp now)).1
    · exact Nat.lt_of_le_of_lt (generation_step store call key)
        (inductionHypothesis later)

theorem grants_increase (store : Store) (calls : List Call) :
    (grants sha256 store calls).Pairwise fun earlier later =>
      earlier.1 = later.1 → earlier.2 < later.2 := by
  induction calls generalizing store with
  | nil => exact .nil
  | cons call rest inductionHypothesis =>
    rw [grants, List.pairwise_append]
    refine ⟨?_, inductionHypothesis _, ?_⟩
    · cases grant sha256 store call with
      | none => exact .nil
      | some only => exact List.pairwise_singleton _ _
    · rintro ⟨key, number⟩ now ⟨key', number'⟩ later same
      have here := (grant_generation (Option.mem_toList.mp now)).2
      have there := generation_lt_of_mem_grants later
      simp only at same
      rw [← same, here] at there
      exact there

theorem budgeted_empty : Store.empty.Budgeted := fun _ _ found => nomatch found

/--
In every run in which the texts of leases and of call times are ordered like
the times, every call is fenced, and the generations which the claims of a row
return increase.
-/
theorem queue_fenced (sha256 : String → String) (calls : List Call)
    (agree : Run.Along (step sha256) LeaseTextsAgree Store.empty calls) :
    Run.Along (step sha256) (Fenced sha256) Store.empty calls ∧
      (grants sha256 Store.empty calls).Pairwise fun earlier later =>
        earlier.1 = later.1 → earlier.2 < later.2 := by
  refine ⟨?_, grants_increase Store.empty calls⟩
  apply Run.along_of_invariant _ _ budgeted_empty agree
  · exact fun store call budgeted _ => budgeted.step call
  · exact fun store call budgeted agree => fenced_of_agree budgeted agree

end Operations

/-! ### Two workers on one delivery -/

/-- A delivery to a source host. -/
def delivery : Scope where
  tenantId := "acme"
  dependencyKind := .scm
  providerId := "github"
  operationId := "delivery/1"
  operationDigest :=
    "0123456789abcdef0123456789abcdef0123456789abcdef0123456789abcdef"

def enqueueDelivery (retryBudget : Int) : Call :=
  .enqueue {
    scope := delivery
    retryBudget := retryBudget
    expiresAt := "2026-02-01T00:00:00.000Z"
    nextAttemptAt := "2026-01-01T00:00:00.000Z"
    standing := .degradedRetrying
    status := none
    authorityVersion := some "v1"
    circuitState := none
    circuitOpenedAt := none
    circuitCooldownMs := none
    consecutiveFailures := none } "2026-01-01T00:00:00.000Z"

def claimDelivery (workerId now : String) (leaseMs : Int) : Call :=
  .claim {
    scope := delivery
    workerId := workerId
    now := now
    leaseMs := leaseMs
    authorityVersion := "v1" }

/-- The first worker comes back after the second has claimed the row. -/
def staleCompletion : List Call :=
  [enqueueDelivery 3, claimDelivery "first" "2026-01-01T00:01:00.000Z" 60000,
    claimDelivery "second" "2026-01-01T00:03:00.000Z" 60000,
    .complete {
      scope := delivery
      claimOwner := "first"
      claimGeneration := 1 } delivery.operationDigest
      "2026-01-01T00:03:30.000Z"]

theorem leaseTextsAgree_of_bare (store : Store) (call : Call)
    (agree : LeaseTextsAgree store.bare call) : LeaseTextsAgree store call := by
  cases call <;> exact agree

theorem queue_fenced_staleCompletion :
    Run.Along (step id) (Fenced id) Store.empty staleCompletion ∧
      (grants id Store.empty staleCompletion).Pairwise fun earlier later =>
        earlier.1 = later.1 → earlier.2 < later.2 := by
  apply queue_fenced
  apply along_bare leaseTextsAgree_of_bare .nil Function.injective_id
  refine ⟨trivial, ?_, ?_, ?_, trivial⟩
  · show EndedByText _ _ _
    decide
  · show EndedByText _ _ _
    decide
  · show EndedInText _ _ _
    decide

theorem grant_bare {sha256 : String → String} {store : Store}
    (chained : Chained sha256 store.history)
    (collisionFree : Function.Injective sha256) (input : ClaimInput) :
    grant sha256 store (.claim input) =
      grant sha256 store.bare (.claim input) := by
  have alike := claim_bare chained collisionFree input
  rw [grant, grant]
  cases first : claim sha256 input store with
  | error code =>
    rw [first] at alike
    cases second : claim sha256 input store.bare with
    | error code' => rfl
    | ok answer =>
      rw [second] at alike
      cases alike
  | ok answer =>
    rw [first] at alike
    cases second : claim sha256 input store.bare with
    | error code =>
      rw [second] at alike
      cases alike
    | ok answer' =>
      rw [second] at alike
      rcases answer with ⟨after, record⟩
      rcases answer' with ⟨after', record'⟩
      have same : record = record' :=
        congrArg Prod.snd (Except.ok.inj alike)
      rw [same]
      cases record' with
      | none => rfl
      | some leased => rfl

theorem not_fenced_of_leased {sha256 : String → String} {store : Store}
    {input : ClaimInput}
    (granted : (grant sha256 store (.claim input)).isSome = true)
    (leased : ∀ row ∈ store.row input.scope,
      ∀ now ∈ Instant.parse? input.now, row.LeasedAt now) :
    ¬ Fenced sha256 store (.claim input) := by
  intro fenced
  rw [grant] at granted
  split at granted
  · next after record claimed =>
      rcases fenced.claims _ _ _ rfl claimed with
        ⟨current, now, found, parsed, _, _, notLeased⟩
      exact notLeased (leased current found now parsed)
  · cases granted

/-- The first worker's lease ends after the year 9999. -/
def longLease : List Call :=
  [enqueueDelivery 3,
    claimDelivery "first" "2026-01-01T00:01:00.000Z" 252000000000000]

/-- Another worker is given a row which the first one has leased. -/
theorem longLease_not_fenced :
    ¬ Run.Along (step id) (Fenced id) Store.empty
      (longLease ++
        [claimDelivery "second" "2026-01-01T00:02:00.000Z" 60000]) := by
  intro along
  rcases (Run.along_append.mp along).2 with ⟨fenced, _⟩
  have initially : Chained id Store.empty.history := .nil
  have chained := chained_run initially longLease
  have rows := run_bare initially Function.injective_id longLease
  apply not_fenced_of_leased _ _ fenced
  · rw [grant_bare chained Function.injective_id, rows]
    decide
  · rw [← Store.row_bare, rows]
    decide

end Mendpoint.Outage
