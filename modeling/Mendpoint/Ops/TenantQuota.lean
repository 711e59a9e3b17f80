import Mathlib.Algebra.Order.Field.Rat
import Mendpoint.Library.OrderedMap
import Mendpoint.Library.Text

/-!
# Per-tenant request quota

The budget which each tenant has for a window of time, kept in one shared map
of buckets.  The map is swept every hundred calls, and whenever it is full:
buckets which have run out are dropped, and then the oldest ones until there is
room again.
-/

namespace Mendpoint.Ops

open Mendpoint.Library

/-- A number of ECMAScript, or none where it is not finite. -/
abbrev Number := Option ℚ

structure TenantQuotaResult where
  enabled : Bool
  allowed : Bool
  /-- None is positive infinity. -/
  remaining : Number
  resetMs : ℚ
  limit : ℚ

structure TenantQuotaOpts where
  limit : Option Number
  windowMs : Option Number

/-- The settings of the process, each unset or read as a number. -/
structure QuotaEnv where
  tenantQuotaMax : Option Number
  tenantQuotaWindowMs : Option Number
  tenantQuotaMaxBuckets : Option Number

structure Bucket where
  count : Nat
  resetAt : ℚ

/-- The module state: the shared buckets and the calls since a sweep. -/
structure QuotaState where
  buckets : OrderedMap String Bucket
  callsSinceSweep : Nat

/-- The state when the module is loaded. -/
def QuotaState.initial : QuotaState where
  buckets := OrderedMap.empty
  callsSinceSweep := 0

def positiveNumber (value : Number) (fallback : ℚ) : ℚ :=
  match value with
  | some number => if 0 < number then number else fallback
  | none => fallback

def configuredLimit (opts : TenantQuotaOpts) (env : QuotaEnv) : Number :=
  match opts.limit with
  | some limit => limit
  | none => some ((env.tenantQuotaMax.getD (some 0)).getD 0)

def windowMs (opts : TenantQuotaOpts) (env : QuotaEnv) : ℚ :=
  positiveNumber
    (opts.windowMs.getD (env.tenantQuotaWindowMs.getD (some 60000))) 60000

def maxBuckets (env : QuotaEnv) : ℚ :=
  positiveNumber (env.tenantQuotaMaxBuckets.getD (some 50000)) 50000

/-- Drop the bucket inserted first while the map is full. -/
def evictOldest (maxBuckets : ℚ) :
    List (String × Bucket) → List (String × Bucket)
  | [] => []
  | (oldest, bucket) :: rest =>
    if maxBuckets ≤ (rest.length + 1 : Nat) then
      if oldest = "" then (oldest, bucket) :: rest
      else evictOldest maxBuckets rest
    else (oldest, bucket) :: rest

theorem evictOldest_sublist (maxBuckets : ℚ)
    (entries : List (String × Bucket)) :
    (evictOldest maxBuckets entries).Sublist entries := by
  induction entries with
  | nil => exact .slnil
  | cons entry rest inductionHypothesis =>
    obtain ⟨oldest, bucket⟩ := entry
    rw [evictOldest]
    split
    · split
      · exact .refl _
      · exact inductionHypothesis.cons _
    · exact .refl _

/-- The buckets which have not run out. -/
def liveEntries (now : ℚ) (buckets : OrderedMap String Bucket) :
    List (String × Bucket) :=
  buckets.entries.filter fun entry => decide (now < entry.2.resetAt)

def sweepBuckets (now maxBuckets : ℚ) (buckets : OrderedMap String Bucket) :
    OrderedMap String Bucket where
  entries := evictOldest maxBuckets (liveEntries now buckets)
  nodupKeys :=
    (((evictOldest_sublist maxBuckets _).trans
      List.filter_sublist).map Prod.fst).nodup buckets.nodupKeys

/-- Whether a call sweeps the buckets before it looks up its own. -/
def sweeps (maxBuckets : ℚ) (state : QuotaState) : Bool :=
  decide (100 ≤ state.callsSinceSweep + 1) ||
    decide (maxBuckets ≤ (state.buckets.size : ℚ))

/-- The state after the sweep of a call, if it is due. -/
def afterSweep (now maxBuckets : ℚ) (state : QuotaState) : QuotaState :=
  if sweeps maxBuckets state then
    { buckets := sweepBuckets now maxBuckets state.buckets
      callsSinceSweep := 0 }
  else
    { buckets := state.buckets
      callsSinceSweep := state.callsSinceSweep + 1 }

/-- The key of a tenant's bucket. -/
def bucketKey (tenantId : String) : String :=
  "tenant:" ++ tenantId

/-- The bucket which a call counts in: the present one or a new one. -/
def currentBucket (now windowMs : ℚ) (found : Option Bucket) : Bucket :=
  match found with
  | some bucket =>
    if bucket.resetAt ≤ now then
      { count := 0, resetAt := now + windowMs }
    else bucket
  | none => { count := 0, resetAt := now + windowMs }

/-- The outcome of a call which is counted in a bucket. -/
def quotaResult (limit now : ℚ) (bucket : Bucket) : TenantQuotaResult where
  enabled := true
  allowed := decide ((bucket.count : ℚ) ≤ limit)
  remaining := some (max 0 (limit - bucket.count))
  resetMs := max 0 (bucket.resetAt - now)
  limit := limit

/-- Record one operation against the budget of a tenant. -/
def tenantQuota (opts : TenantQuotaOpts) (env : QuotaEnv) (now : ℚ)
    (tenantId : String) (state : QuotaState) :
    Except String TenantQuotaResult × QuotaState :=
  let disabled : TenantQuotaResult :=
    { enabled := false, allowed := true, remaining := none, resetMs := 0,
      limit := 0 }
  match configuredLimit opts env with
  | none => (.ok disabled, state)
  | some limit =>
    if limit ≤ 0 then (.ok disabled, state)
    else if Text.trim tenantId = "" then
      (.error "tenant_quota_tenant_required", state)
    else
      let swept := afterSweep now (maxBuckets env) state
      let found := currentBucket now (windowMs opts env)
        (swept.buckets.get? (bucketKey tenantId))
      let counted := { found with count := found.count + 1 }
      (.ok (quotaResult limit now counted),
        { swept with
          buckets := swept.buckets.set (bucketKey tenantId) counted })

/-! ## Runs -/

/-- A call, at the time of the clock. -/
structure QuotaCall where
  now : ℚ
  tenantId : String

/-- A call with what it returned. -/
abbrev QuotaOutcome := QuotaCall × Except String TenantQuotaResult

section Runs

variable (opts : TenantQuotaOpts) (env : QuotaEnv)

/-- The state after a sequence of calls. -/
def stateAfter (state : QuotaState) (calls : List QuotaCall) : QuotaState :=
  calls.foldl
    (fun current call =>
      (tenantQuota opts env call.now call.tenantId current).2)
    state

/-- The outcomes of a sequence of calls. -/
def outcomes : QuotaState → List QuotaCall → List QuotaOutcome
  | _, [] => []
  | state, call :: rest =>
    let made := tenantQuota opts env call.now call.tenantId state
    (call, made.1) :: outcomes made.2 rest

end Runs

end Mendpoint.Ops
