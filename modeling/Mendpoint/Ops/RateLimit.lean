import Mathlib.Tactic.NormNum
import Mendpoint.Library.Run
import Mendpoint.Ops.TenantQuota

/-!
# Rate limits of clients

The requests which a client has left in a window of time.  The buckets of all
clients are kept in one map, swept as those of the tenants are.
-/

namespace Mendpoint.Ops

open Mendpoint.Library

/-! ## The limiter -/

structure RateLimitResult where
  allowed : Bool
  remaining : ℚ
  resetMs : ℚ
  limit : ℚ

structure RateLimitOpts where
  limit : Option Number
  windowMs : Option Number

/-- The settings of the process, each unset or read as a number. -/
structure RateLimitEnv where
  rateLimitMax : Option Number
  rateLimitWindowMs : Option Number
  rateLimitMaxBuckets : Option Number

def RateLimitOpts.maximum (opts : RateLimitOpts) (env : RateLimitEnv) : ℚ :=
  positiveNumber (opts.limit.getD (env.rateLimitMax.getD (some 120))) 120

def RateLimitOpts.window (opts : RateLimitOpts) (env : RateLimitEnv) : ℚ :=
  positiveNumber
    (opts.windowMs.getD (env.rateLimitWindowMs.getD (some 60000))) 60000

def RateLimitEnv.maxBuckets (env : RateLimitEnv) : ℚ :=
  positiveNumber (env.rateLimitMaxBuckets.getD (some 10000)) 10000

/-- The bucket in which a call counts, once it is counted. -/
def countedIn (opts : RateLimitOpts) (env : RateLimitEnv) (now : ℚ)
    (key : String) (state : QuotaState) : Bucket :=
  let found := currentBucket now (opts.window env)
    ((afterSweep now env.maxBuckets state).buckets.get? key)
  { found with count := found.count + 1 }

/-- Record one request of a client. -/
def rateLimit (opts : RateLimitOpts) (env : RateLimitEnv) (now : ℚ)
    (key : String) (state : QuotaState) : RateLimitResult × QuotaState :=
  let swept := afterSweep now env.maxBuckets state
  let bucket := countedIn opts env now key state
  ({ allowed := decide ((bucket.count : ℚ) ≤ opts.maximum env)
     remaining := max 0 (opts.maximum env - bucket.count)
     resetMs := max 0 (bucket.resetAt - now)
     limit := opts.maximum env },
    { swept with buckets := swept.buckets.set key bucket })

/-- The key under which a request is counted. -/
def rateLimitKeyFromRequest (apiKeyId ip : Option String) : String :=
  match apiKeyId with
  | some id => if id = "" then "ip:" ++ ip.getD "unknown" else "key:" ++ id
  | none => "ip:" ++ ip.getD "unknown"

/-- A request, at the time of the clock. -/
structure ClientRequest where
  now : ℚ
  apiKeyId : Option String
  ip : Option String
  opts : RateLimitOpts

def ClientRequest.key (request : ClientRequest) : String :=
  rateLimitKeyFromRequest request.apiKeyId request.ip

def ClientRequest.answer (env : RateLimitEnv) (state : QuotaState)
    (request : ClientRequest) : RateLimitResult × QuotaState :=
  rateLimit request.opts env request.now request.key state

/-- The buckets after some requests. -/
def limiterAfter (env : RateLimitEnv) (requests : List ClientRequest) :
    QuotaState :=
  Run.run (fun state request => (request.answer env state).2)
    QuotaState.initial requests

/-! ## Sweeps -/

variable {env : RateLimitEnv} {requests : List ClientRequest}

theorem afterSweep_sublist (now most : ℚ) (state : QuotaState) :
    (afterSweep now most state).buckets.entries.Sublist
      state.buckets.entries := by
  rw [afterSweep]
  split
  · exact (evictOldest_sublist most _).trans List.filter_sublist
  · exact List.Sublist.refl _

theorem get?_afterSweep {now most : ℚ} {state : QuotaState} {key : String}
    {bucket : Bucket}
    (found : (afterSweep now most state).buckets.get? key = some bucket) :
    state.buckets.get? key = some bucket := by
  rw [← OrderedMap.mem_entries_iff] at found ⊢
  exact (afterSweep_sublist now most state).subset found

theorem length_evictOldest_lt {most : ℚ} (positive : 0 < most)
    {entries : List (String × Bucket)}
    (named : ∀ entry ∈ entries, entry.1 ≠ "") :
    ((evictOldest most entries).length : ℚ) < most := by
  induction entries with
  | nil => simpa [evictOldest] using positive
  | cons entry rest inductionHypothesis =>
    rcases entry with ⟨oldest, bucket⟩
    have later := inductionHypothesis fun other member =>
      named other (List.mem_cons_of_mem _ member)
    have own : oldest ≠ "" := named _ List.mem_cons_self
    rw [evictOldest, if_neg own]
    split
    · exact later
    · case isFalse room => exact not_le.mp room

theorem size_set_le (buckets : OrderedMap String Bucket) (key : String)
    (bucket : Bucket) : (buckets.set key bucket).size ≤ buckets.size + 1 := by
  have keys := congrArg List.length (buckets.keys_set key bucket)
  by_cases present : key ∈ buckets.keys
  · rw [if_pos present] at keys
    simp only [OrderedMap.keys, List.length_map] at keys
    simp [OrderedMap.size, keys]
  · rw [if_neg present] at keys
    simp only [OrderedMap.keys, List.length_map, List.length_append,
      List.length_singleton] at keys
    simp [OrderedMap.size, keys]

theorem key_ne_empty (request : ClientRequest) : request.key ≠ "" := by
  intro empty
  have chars := congrArg String.toList empty
  simp only [ClientRequest.key, rateLimitKeyFromRequest] at chars
  split at chars
  · split at chars
    · simp at chars
    · simp at chars
  · simp at chars

/-! ## What holds after any requests -/

/-- A bucket with the requests of its client which it has counted. -/
def Opened (env : RateLimitEnv) (requests : List ClientRequest) (key : String)
    (bucket : Bucket) : Prop :=
  ∃ before opener later, requests = before ++ opener :: later ∧
    opener.key = key ∧
    bucket.resetAt = opener.now + opener.opts.window env ∧
    bucket.count =
      (opener :: later).countP fun request => decide (request.key = key)

theorem Opened.append {key : String} {bucket : Bucket}
    (opened : Opened env requests key bucket) (request : ClientRequest) :
    Opened env (requests ++ [request]) key
      { bucket with
        count := bucket.count + if request.key = key then 1 else 0 } := by
  rcases opened with ⟨before, opener, later, rfl, own, ends, count⟩
  refine ⟨before, opener, later ++ [request], by simp, own, ends, ?_⟩
  rw [← List.cons_append, List.countP_append, count, List.countP_singleton]
  simp

/-- What holds of the buckets after some requests. -/
structure QuotaState.Fits (env : RateLimitEnv) (requests : List ClientRequest)
    (state : QuotaState) : Prop where
  few : (state.buckets.size : ℚ) < env.maxBuckets + 1
  named : ∀ entry ∈ state.buckets.entries, entry.1 ≠ ""
  opened : ∀ key bucket, state.buckets.get? key = some bucket →
    Opened env requests key bucket

theorem positiveNumber_pos {fallback : ℚ} (positive : 0 < fallback)
    (value : Number) : 0 < positiveNumber value fallback := by
  cases value with
  | none => exact positive
  | some number =>
    simp only [positiveNumber]
    split
    · assumption
    · exact positive

theorem maxBuckets_pos (env : RateLimitEnv) : 0 < env.maxBuckets :=
  positiveNumber_pos (by norm_num) _

theorem QuotaState.Fits.room {state : QuotaState}
    (fits : state.Fits env requests) (now : ℚ) :
    ((afterSweep now env.maxBuckets state).buckets.size : ℚ) <
      env.maxBuckets := by
  rw [afterSweep]
  split
  · exact length_evictOldest_lt (maxBuckets_pos env) fun entry member =>
      fits.named entry (List.mem_of_mem_filter member)
  · case isFalse unswept =>
    simp only [sweeps, Bool.or_eq_true, decide_eq_true_eq, not_or] at unswept
    exact not_le.mp unswept.2

/-- The bucket in which a request counts was opened by the request itself, or
by an earlier one whose window has not ended. -/
theorem QuotaState.Fits.counted {state : QuotaState}
    (fits : state.Fits env requests) (request : ClientRequest) :
    ∃ before opener later,
      requests ++ [request] = before ++ opener :: later ∧
        opener.key = request.key ∧
        (countedIn request.opts env request.now request.key state).resetAt =
          opener.now + opener.opts.window env ∧
        (countedIn request.opts env request.now request.key state).count =
          (opener :: later).countP
            (fun other => decide (other.key = request.key)) ∧
        (later = [] ∨ request.now < opener.now + opener.opts.window env) := by
  simp only [countedIn, currentBucket]
  split
  · case h_1 bucket found =>
    split
    · exact ⟨requests, request, [], rfl, rfl, rfl, by simp, Or.inl rfl⟩
    · case isFalse open_ =>
      rcases (fits.opened _ _ (get?_afterSweep found)).append request with
        ⟨before, opener, later, same, own, ends, count⟩
      rw [if_pos rfl] at count
      exact ⟨before, opener, later, same, own, ends, count,
        Or.inr (ends ▸ not_le.mp open_)⟩
  · exact ⟨requests, request, [], rfl, rfl, rfl, by simp, Or.inl rfl⟩

theorem QuotaState.Fits.step {state : QuotaState}
    (fits : state.Fits env requests) (request : ClientRequest) :
    (request.answer env state).2.Fits env (requests ++ [request]) := by
  refine ⟨?_, ?_, ?_⟩
  · refine lt_of_le_of_lt (Nat.cast_le.mpr (size_set_le _ _ _)) ?_
    rw [Nat.cast_add_one]
    exact (add_lt_add_iff_right 1).mpr (fits.room request.now)
  · intro entry member
    have key : entry.1 ∈ (OrderedMap.set _ _ _).keys :=
      List.mem_map_of_mem member
    rcases (OrderedMap.mem_keys_set ..).mp key with same | old
    · rw [same]
      exact key_ne_empty request
    · rcases List.mem_map.mp old with ⟨other, inside, same⟩
      rw [← same]
      exact fits.named other ((afterSweep_sublist _ _ _).subset inside)
  · intro key bucket found
    simp only [ClientRequest.answer, rateLimit, OrderedMap.get?_set] at found
    split at found
    · case isTrue same =>
      cases found
      subst same
      rcases fits.counted request with
        ⟨before, opener, later, joined, own, ends, count, _⟩
      exact ⟨before, opener, later, joined, own, ends, count⟩
    · case isFalse different =>
      have kept := (fits.opened _ _ (get?_afterSweep found)).append request
      rw [if_neg different] at kept
      exact kept

theorem fits_limiterAfter (env : RateLimitEnv)
    (requests : List ClientRequest) :
    (limiterAfter env requests).Fits env requests := by
  induction requests using List.reverseRecOn with
  | nil =>
    refine ⟨?_, ?_, ?_⟩
    · exact (maxBuckets_pos env).trans (lt_add_one _)
    · intro entry member
      cases member
    · intro key bucket found
      cases found
  | append_singleton requests request inductionHypothesis =>
    rw [limiterAfter, Run.run_append]
    exact inductionHypothesis.step request

/-! ## What the limiter promises -/

/-- What a request is answered: it is counted together with the requests of its
client since one whose window has not ended. -/
def CountedSince (env : RateLimitEnv) (requests : List ClientRequest)
    (request : ClientRequest) (answer : RateLimitResult) : Prop :=
  ∃ before opener later,
    requests ++ [request] = before ++ opener :: later ∧
      opener.key = request.key ∧
      (later = [] ∨ request.now < opener.now + opener.opts.window env) ∧
      (answer.allowed = true ↔
        (((opener :: later).countP
          (fun other => decide (other.key = request.key)) : ℕ) : ℚ) ≤
          request.opts.maximum env)

end Mendpoint.Ops
