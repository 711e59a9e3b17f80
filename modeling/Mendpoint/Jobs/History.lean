import Mendpoint.Jobs.Queue
import Mendpoint.Library.Lease
import Mendpoint.Library.Run

/-!
# Histories of the job queue

The queue beside the claims which were made of each job and the time of the
last call.  A worker acts as the holder of a claim at any later time, whether
or not another claim has followed.
-/

namespace Mendpoint.Jobs

open Mendpoint.Library
open Mendpoint.Library.Fallible
open Mendpoint.Library.IsoTime (Instant PlainYear)
open Mendpoint.Library.Lease

variable {ρ : Type}

/-! ## States and acts -/

/-- A claim of a job: the worker, and in milliseconds when its lease ends. -/
abbrev Claim : Type :=
  Grant String Int

structure QueueState (ρ : Type) where
  db : JobDb ρ
  claims : String → List Claim
  clock : Int

/-- A call, a change of other tables, or what the holder of a claim does. -/
inductive Act (ρ : Type) where
  | enqueue (input : EnqueueInput)
  | enqueueOrReset (input : EnqueueInput)
  | claim (options : ClaimOptions)
  | recover (now : Instant) (tenantId : Option String)
  | renew (id : String) (generation : Nat) (now : Instant)
      (leaseMs : Option ℚ)
  | complete (id : String) (generation : Nat) (now : Instant)
      (resultJson : String)
  | fail (id : String) (generation : Nat) (now : Instant) (error : String)
      (options : JobFailureOptions)
  | reschedule (id : String) (generation : Nat) (runAt : String)
  | retry (id : String) (options : RetryOptions)
  | cancel (id cancelledAt : String) (options : CancelOptions)
  | elsewhere (surroundings : Surroundings ρ)

/-- The time of a call which compares leases with it. -/
def Act.time : Act ρ → Option Instant
  | claim options => some options.now
  | recover now _ | renew _ _ now _ | complete _ _ now _ | fail _ _ now _ _ =>
    some now
  | _ => none

/-- The claim whose holder acts, by its job and its generation. -/
def Act.holder : Act ρ → Option (String × Nat)
  | renew id generation _ _ | complete id generation _ _
  | fail id generation _ _ _ | reschedule id generation _ =>
    some (id, generation)
  | _ => none

/-- The fence of the holder of a claim. -/
def fenceOf (claim : Claim) : JobLeaseFence where
  workerId := claim.owner
  leaseGeneration := claim.generation

/-- The options of a failure under a fence. -/
def JobFailureOptions.under (options : JobFailureOptions)
    (fence : JobLeaseFence) : JobFailureOptions :=
  { options with
    workerId := some fence.workerId
    leaseGeneration := some fence.leaseGeneration }

namespace QueueState

/-- The claims of a job are others. -/
def setClaims (state : QueueState ρ) (id : String) (claims : List Claim) :
    QueueState ρ :=
  { state with claims := Function.update state.claims id claims }

/-- A claim was made of a job. -/
def claimed (state : QueueState ρ) (job : JobRow) (workerId : String)
    (expiry : Instant) : QueueState ρ :=
  state.setClaims job.id (state.claims job.id ++
    [{ generation := job.leaseGeneration
       owner := workerId
       ends := expiry.ms
       released := false }])

/-- A call of a holder has changed the row of its job, or not. -/
def changed (state : QueueState ρ) (id : String) (claim : Claim)
    (change : Claim → Claim) (answer : Changed ρ) : QueueState ρ :=
  let after := { state with db := answer.db }
  if answer.applied then
    after.setClaims id (amend claim.generation change (state.claims id))
  else after

end QueueState

/-- A holder gives a job back. -/
def released (claim : Claim) : Claim :=
  { claim with released := true }

/-- A holder keeps a job until another time. -/
def extended (expiry : Instant) (claim : Claim) : Claim :=
  { claim with ends := expiry.ms }

section Steps

variable (settle : List JobRow → ρ → String → Option String → Except String ρ)

/-- What the holder of a claim does. -/
def holderStep (state : QueueState ρ) (claim : Claim) :
    Act ρ → QueueState ρ
  | .renew id _ now leaseMs =>
    match renewedExpiry now leaseMs,
        renewJobLease id (fenceOf claim) now leaseMs state.db with
    | .ok expiry, .ok answer =>
      state.changed id claim (extended expiry) answer
    | _, _ => state
  | .complete id _ now resultJson =>
    state.changed id claim released
      (completeJob id resultJson now (some (fenceOf claim)) state.db)
  | .fail id _ now error options =>
    match failJob id error now (options.under (fenceOf claim))
        state.db with
    | .ok (result, db) =>
      state.changed id claim released
        { applied := result.applied, db := db }
    | .error _ => state
  | .reschedule id _ runAt =>
    state.changed id claim released
      (rescheduleJob id runAt claim.owner state.db)
  | _ => state

/-- The state behind a claim. -/
def claimStep (state : QueueState ρ) (options : ClaimOptions) :
    QueueState ρ :=
  match options.expiry, claimNextJob settle options state.db with
  | .ok expiry, .ok (some job, db) =>
    { state with db := db }.claimed job options.workerId expiry
  | _, .ok (none, db) => { state with db := db }
  | _, _ => state

/-- The database behind a call which no claim is involved in. -/
def callDb (db : JobDb ρ) : Act ρ → Except String (JobDb ρ)
  | .enqueue input => enqueueJob input db
  | .enqueueOrReset input => do
      let answer ← enqueueOrResetJob input db
      return answer.2
  | .recover now tenantId => do
      let answer ← recoverExpiredJobs settle now tenantId db
      return answer.2
  | .retry id options => do
      let answer ← retryJob id options db
      return answer.db
  | .cancel id cancelledAt options => do
      let answer ← cancelJob id cancelledAt options db
      return answer.db
  | .elsewhere surroundings => .ok { db with toSurroundings := surroundings }
  | _ => .ok db

/-- The state behind an act at the time of the clock. -/
def Act.act (state : QueueState ρ) (act : Act ρ) : QueueState ρ :=
  match act.holder, act with
  | some (id, generation), _ =>
    match grantOf (state.claims id) generation with
    | some made => holderStep state made act
    | none => state
  | none, .claim options => claimStep settle state options
  | none, _ =>
    match callDb settle state.db act with
    | .ok db => { state with db := db }
    | .error _ => state

/-- The clock shows the time of an act. -/
def Act.tick (state : QueueState ρ) (act : Act ρ) : QueueState ρ :=
  match act.time with
  | some now => { state with clock := now.ms }
  | none => state

/-- The state behind an act. -/
def Act.step (state : QueueState ρ) (act : Act ρ) : QueueState ρ :=
  act.act settle (act.tick state)

end Steps

/-- An empty queue. -/
def QueueState.empty (surroundings : Surroundings ρ) (clock : Int) :
    QueueState ρ where
  db := { surroundings with jobs := [], jobKeys := List.nodup_nil }
  claims _ := []
  clock := clock

/-! ## Rows and tenures -/

/-- What the row of a job tells of its tenure. -/
structure Tells (row : JobRow) (tenure : Tenure String Int) : Prop where
  generation : row.leaseGeneration = tenure.generation
  free : tenure.held = none → row.status ≠ .running
  held : ∀ owner ends, tenure.held = some (owner, ends) →
    row.status = .running ∧ row.leaseOwner = some owner ∧
      ∃ expiry : Instant, expiry.ms = ends ∧ PlainYear ends ∧
        row.leaseExpiresAt = some expiry.text

/-- Every job is fenced by the claims of it. -/
structure Guarded (state : QueueState ρ) : Prop where
  rows : ∀ row ∈ state.db.jobs, ∃ tenure, Tells row tenure ∧
    Fenced tenure (state.claims row.id) state.clock
  others : ∀ id, (∀ row ∈ state.db.jobs, row.id ≠ id) →
    state.claims id = []

theorem guarded_empty (surroundings : Surroundings ρ) (clock : Int) :
    Guarded (QueueState.empty surroundings clock) where
  rows := by
    intro row member
    cases member
  others _ _ := rfl

theorem textLe_eq (left right : String) :
    textLe left right =
      Text.unitsLe (Text.codePoints left) (Text.codePoints right) := rfl

theorem textLe_iff {left right : Instant} (plain : PlainYear left.ms)
    (plainRight : PlainYear right.ms) :
    textLe left.text right.text = true ↔ left.ms ≤ right.ms := by
  have units : ∀ instant : Instant,
      Text.codePoints instant.text = Text.codeUnits instant.text := by
    intro instant
    rw [Instant.codeUnits_text, Text.codePoints, Instant.text,
      String.toList_ofList]
  have same : textLe left.text right.text = left.textLe right := by
    rw [Instant.textLe, Text.codeUnitLe, ← units left, ← units right,
      textLe_eq]
  rw [same, Instant.textLe_iff plain plainRight]

end Mendpoint.Jobs
