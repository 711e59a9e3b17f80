import Mathlib.Data.Rat.Cast.Order
import Mathlib.Tactic.Linarith
import Mendpoint.Ops.TenantQuota

/-!
# Tenants do not share a budget while the buckets have room

What one tenant is told depends on its own calls alone, as long as no sweep
finds as many live buckets as the map may hold.  A sweep which does drops a
bucket that has not run out, and the tenant starts over with a full budget.
-/

namespace Mendpoint.Ops

open Mendpoint.Library

/-! ## Live buckets -/

/-- The bucket under a key, if it has not run out. -/
def liveBucket (buckets : OrderedMap String Bucket) (key : String)
    (now : ℚ) : Option Bucket :=
  (buckets.get? key).filter fun bucket => decide (now < bucket.resetAt)

theorem liveBucket_eq_some_iff {buckets : OrderedMap String Bucket}
    {key : String} {now : ℚ} {bucket : Bucket} :
    liveBucket buckets key now = some bucket ↔
      buckets.get? key = some bucket ∧ now < bucket.resetAt := by
  rw [liveBucket, Option.filter_eq_some_iff, decide_eq_true_iff]

theorem liveBucket_mono {buckets : OrderedMap String Bucket} {key : String}
    {now later : ℚ} (ordered : now ≤ later) {bucket : Bucket}
    (live : liveBucket buckets key later = some bucket) :
    liveBucket buckets key now = some bucket := by
  rw [liveBucket_eq_some_iff] at live ⊢
  exact ⟨live.1, ordered.trans_lt live.2⟩

theorem liveBucket_later_of_none {buckets : OrderedMap String Bucket}
    {key : String} {now later : ℚ} (ordered : now ≤ later)
    (none' : liveBucket buckets key now = none) :
    liveBucket buckets key later = none := by
  cases found : liveBucket buckets key later with
  | none => rfl
  | some bucket =>
    rw [liveBucket_mono ordered found] at none'
    cases none'

theorem currentBucket_eq (now windowMs : ℚ)
    (buckets : OrderedMap String Bucket) (key : String) :
    currentBucket now windowMs (buckets.get? key) =
      (liveBucket buckets key now).getD
        { count := 0, resetAt := now + windowMs } := by
  rw [liveBucket]
  cases buckets.get? key with
  | none => rfl
  | some bucket =>
    rw [currentBucket, Option.filter_some]
    by_cases gone : bucket.resetAt ≤ now
    · simp [gone, not_lt.mpr gone]
    · simp [gone, not_le.mp gone]

theorem liveBucket_set_self (buckets : OrderedMap String Bucket)
    (key : String) (bucket : Bucket) (now : ℚ) :
    liveBucket (buckets.set key bucket) key now =
      if now < bucket.resetAt then some bucket else none := by
  rw [liveBucket, OrderedMap.get?_set_self, Option.filter_some]
  simp only [decide_eq_true_eq]

theorem liveBucket_set_of_ne (buckets : OrderedMap String Bucket)
    {key other : String} (different : key ≠ other) (bucket : Bucket)
    (now : ℚ) :
    liveBucket (buckets.set key bucket) other now =
      liveBucket buckets other now := by
  rw [liveBucket, liveBucket, OrderedMap.get?_set_of_ne _ _ different]

/-! ## Sweeps -/

/-- A sweep finds fewer live buckets than the map may hold. -/
def Roomy (maxBuckets now : ℚ) (state : QuotaState) : Prop :=
  sweeps maxBuckets state = true →
    ((liveEntries now state.buckets).length : ℚ) < maxBuckets

theorem evictOldest_of_room {maxBuckets : ℚ}
    {entries : List (String × Bucket)}
    (room : (entries.length : ℚ) < maxBuckets) :
    evictOldest maxBuckets entries = entries := by
  cases entries with
  | nil => rfl
  | cons entry rest =>
    rw [evictOldest, if_neg]
    rw [not_le]
    exact room

theorem get?_sweepBuckets {now maxBuckets : ℚ}
    {buckets : OrderedMap String Bucket}
    {key : String} {bucket : Bucket}
    (found : (sweepBuckets now maxBuckets buckets).get? key = some bucket) :
    buckets.get? key = some bucket ∧ now < bucket.resetAt := by
  rw [← OrderedMap.mem_entries_iff] at found ⊢
  have live := (evictOldest_sublist maxBuckets _).subset found
  rw [liveEntries, List.mem_filter, decide_eq_true_iff] at live
  exact live

theorem liveBucket_sweep_of_none {now maxBuckets : ℚ}
    {buckets : OrderedMap String Bucket} {key : String}
    (none' : liveBucket buckets key now = none) :
    (sweepBuckets now maxBuckets buckets).get? key = none := by
  cases found : (sweepBuckets now maxBuckets buckets).get? key with
  | none => rfl
  | some bucket =>
    have live := liveBucket_eq_some_iff.mpr (get?_sweepBuckets found)
    rw [none'] at live
    cases live

theorem liveBucket_sweep_of_room {now maxBuckets later : ℚ}
    {buckets : OrderedMap String Bucket}
    (room : ((liveEntries now buckets).length : ℚ) < maxBuckets)
    (ordered : now ≤ later) (key : String) :
    liveBucket (sweepBuckets now maxBuckets buckets) key later =
      liveBucket buckets key later := by
  have kept : (sweepBuckets now maxBuckets buckets).entries =
      liveEntries now buckets := evictOldest_of_room room
  apply Option.ext
  intro bucket
  rw [liveBucket_eq_some_iff, liveBucket_eq_some_iff,
    ← OrderedMap.mem_entries_iff, ← OrderedMap.mem_entries_iff, kept,
    liveEntries, List.mem_filter, decide_eq_true_iff]
  constructor
  · rintro ⟨⟨listed, _⟩, live⟩
    exact ⟨listed, live⟩
  · rintro ⟨listed, live⟩
    exact ⟨⟨listed, ordered.trans_lt live⟩, live⟩

theorem liveBucket_afterSweep {now maxBuckets later : ℚ}
    {state : QuotaState} (roomy : Roomy maxBuckets now state)
    (ordered : now ≤ later) (key : String) :
    liveBucket (afterSweep now maxBuckets state).buckets key later =
      liveBucket state.buckets key later := by
  rw [afterSweep]
  split
  · next due => exact liveBucket_sweep_of_room (roomy due) ordered key
  · rfl

theorem liveBucket_afterSweep_of_none {now maxBuckets : ℚ}
    {state : QuotaState} {key : String}
    (none' : liveBucket state.buckets key now = none) :
    liveBucket (afterSweep now maxBuckets state).buckets key now = none := by
  rw [afterSweep]
  split
  · change liveBucket (sweepBuckets _ _ _) key now = none
    rw [liveBucket, liveBucket_sweep_of_none none']
    rfl
  · exact none'

theorem length_liveEntries_le (now : ℚ)
    (buckets : OrderedMap String Bucket) :
    (liveEntries now buckets).length ≤ buckets.size :=
  List.length_filter_le _ _

theorem live_mem {buckets : OrderedMap String Bucket} {key : String}
    {now : ℚ} {bucket : Bucket}
    (live : liveBucket buckets key now = some bucket) :
    (key, bucket) ∈ liveEntries now buckets := by
  rw [liveBucket_eq_some_iff, ← OrderedMap.mem_entries_iff] at live
  rw [liveEntries, List.mem_filter, decide_eq_true_iff]
  exact live

theorem Roomy.one_lt {maxBuckets now : ℚ} {state : QuotaState}
    (roomy : Roomy maxBuckets now state) {key : String} {bucket : Bucket}
    (live : liveBucket state.buckets key now = some bucket) :
    1 < maxBuckets := by
  have here : 1 ≤ (liveEntries now state.buckets).length :=
    List.length_pos_of_mem (live_mem live)
  have listed : (1 : ℚ) ≤ (liveEntries now state.buckets).length := by
    exact_mod_cast here
  cases due : sweeps maxBuckets state with
  | true => exact listed.trans_lt (roomy due)
  | false =>
    rw [sweeps, Bool.or_eq_false_iff, decide_eq_false_iff_not,
      decide_eq_false_iff_not] at due
    have small : ((liveEntries now state.buckets).length : ℚ) ≤
        state.buckets.size := by
      exact_mod_cast length_liveEntries_le now state.buckets
    exact (listed.trans small).trans_lt (not_le.mp due.2)

/-! ## One call -/

section Calls

variable {opts : TenantQuotaOpts} {env : QuotaEnv} {limit : ℚ}

/-- The bucket of a tenant after a call of its own. -/
def countedBucket (opts : TenantQuotaOpts) (env : QuotaEnv) (now : ℚ)
    (tenantId : String) (state : QuotaState) : Bucket :=
  let found := (liveBucket (afterSweep now (maxBuckets env) state).buckets
    (bucketKey tenantId) now).getD
      { count := 0, resetAt := now + windowMs opts env }
  { found with count := found.count + 1 }

theorem tenantQuota_blank (configured : configuredLimit opts env = some limit)
    (positive : 0 < limit) (now : ℚ) {tenantId : String}
    (blank : Text.trim tenantId = "") (state : QuotaState) :
    tenantQuota opts env now tenantId state =
      (.error "tenant_quota_tenant_required", state) := by
  rw [tenantQuota, configured]
  simp only [not_le.mpr positive, if_false, blank, if_true]

theorem tenantQuota_counted
    (configured : configuredLimit opts env = some limit)
    (positive : 0 < limit) (now : ℚ) {tenantId : String}
    (named : Text.trim tenantId ≠ "") (state : QuotaState) :
    tenantQuota opts env now tenantId state =
      (.ok (quotaResult limit now
          (countedBucket opts env now tenantId state)),
        { afterSweep now (maxBuckets env) state with
          buckets := (afterSweep now (maxBuckets env) state).buckets.set
            (bucketKey tenantId)
            (countedBucket opts env now tenantId state) }) := by
  rw [tenantQuota, configured]
  simp only [not_le.mpr positive, if_false, named, currentBucket_eq]
  rfl

theorem bucketKey_injective {left right : String}
    (same : bucketKey left = bucketKey right) : left = right := by
  have chars := congrArg String.toList same
  rw [bucketKey, bucketKey, String.toList_append, String.toList_append]
    at chars
  exact String.toList_inj.mp (List.append_cancel_left chars)

theorem liveBucket_other_call
    (configured : configuredLimit opts env = some limit)
    (positive : 0 < limit) {now later : ℚ} {tenantId other : String}
    (different : other ≠ tenantId) {state : QuotaState}
    (roomy : Text.trim other ≠ "" → Roomy (maxBuckets env) now state)
    (ordered : now ≤ later) :
    liveBucket (tenantQuota opts env now other state).2.buckets
        (bucketKey tenantId) later =
      liveBucket state.buckets (bucketKey tenantId) later := by
  by_cases blank : Text.trim other = ""
  · rw [tenantQuota_blank configured positive now blank]
  · rw [tenantQuota_counted configured positive now blank]
    change liveBucket (OrderedMap.set _ _ _) _ _ = _
    rw [liveBucket_set_of_ne _
      (fun same => different (bucketKey_injective same)),
      liveBucket_afterSweep (roomy blank) ordered]

/-! ## Two runs -/

/-- The two states agree on one tenant, who is alone in the second. -/
structure Agree (key : String) (now : ℚ) (shared alone : QuotaState) :
    Prop where
  live : ∀ later, now ≤ later → liveBucket shared.buckets key later =
    liveBucket alone.buckets key later
  only : ∀ other ∈ alone.buckets.keys, other = key

theorem Agree.later {key : String} {now later : ℚ}
    {shared alone : QuotaState} (agree : Agree key now shared alone)
    (ordered : now ≤ later) : Agree key later shared alone where
  live time after := agree.live time (ordered.trans after)
  only := agree.only

theorem size_le_one {key : String} {buckets : OrderedMap String Bucket}
    (only : ∀ other ∈ buckets.keys, other = key) : buckets.size ≤ 1 := by
  have keys : buckets.keys.length ≤ 1 := by
    cases shape : buckets.keys with
    | nil => exact Nat.zero_le 1
    | cons first rest =>
      cases rest with
      | nil => exact le_rfl
      | cons second others =>
        have distinct := OrderedMap.nodup_keys buckets
        rw [shape] at distinct only
        have same : first = second :=
          (only first List.mem_cons_self).trans
            (only second (List.mem_cons_of_mem _
              List.mem_cons_self)).symm
        rw [same] at distinct
        simp at distinct
  rwa [OrderedMap.keys, List.length_map] at keys

theorem Agree.liveBucket_afterSweep_alone {key : String} {now later : ℚ}
    {maxBuckets : ℚ} {shared alone : QuotaState}
    (agree : Agree key now shared alone)
    (roomy : Roomy maxBuckets now shared) (ordered : now ≤ later) :
    liveBucket (afterSweep now maxBuckets alone).buckets key later =
      liveBucket alone.buckets key later := by
  cases live : liveBucket alone.buckets key now with
  | none =>
    rw [liveBucket_later_of_none ordered live]
    exact liveBucket_later_of_none ordered
      (liveBucket_afterSweep_of_none live)
  | some bucket =>
    apply liveBucket_afterSweep _ ordered
    intro _
    have several : 1 < maxBuckets :=
      roomy.one_lt ((agree.live now le_rfl).trans live)
    have few : ((liveEntries now alone.buckets).length : ℚ) ≤ 1 := by
      exact_mod_cast (length_liveEntries_le now alone.buckets).trans
        (size_le_one agree.only)
    exact few.trans_lt several

theorem keys_afterSweep_subset {now maxBuckets : ℚ} {state : QuotaState}
    {key : String}
    (member : key ∈ (afterSweep now maxBuckets state).buckets.keys) :
    key ∈ state.buckets.keys := by
  rw [afterSweep] at member
  split at member
  · have sub := (evictOldest_sublist maxBuckets
      (liveEntries now state.buckets)).trans List.filter_sublist
    exact (sub.map Prod.fst).subset member
  · exact member

theorem Agree.own_call
    (configured : configuredLimit opts env = some limit)
    (positive : 0 < limit) {now : ℚ} {tenantId : String}
    {shared alone : QuotaState}
    (agree : Agree (bucketKey tenantId) now shared alone)
    (roomy : Text.trim tenantId ≠ "" → Roomy (maxBuckets env) now shared) :
    (tenantQuota opts env now tenantId shared).1 =
        (tenantQuota opts env now tenantId alone).1 ∧
      Agree (bucketKey tenantId) now
        (tenantQuota opts env now tenantId shared).2
        (tenantQuota opts env now tenantId alone).2 := by
  by_cases blank : Text.trim tenantId = ""
  · rw [tenantQuota_blank configured positive now blank,
      tenantQuota_blank configured positive now blank]
    exact ⟨rfl, agree⟩
  · have counted : countedBucket opts env now tenantId shared =
        countedBucket opts env now tenantId alone := by
      rw [countedBucket, countedBucket,
        liveBucket_afterSweep (roomy blank) le_rfl,
        agree.liveBucket_afterSweep_alone (roomy blank) le_rfl,
        agree.live now le_rfl]
    rw [tenantQuota_counted configured positive now blank,
      tenantQuota_counted configured positive now blank, counted]
    refine ⟨rfl, ⟨fun later ordered => ?_, fun other member => ?_⟩⟩
    · rw [liveBucket_set_self, liveBucket_set_self]
    · rcases (OrderedMap.mem_keys_set _ _ _ _).mp member with same | old
      · exact same
      · exact agree.only other (keys_afterSweep_subset old)

end Calls

/-! ## Runs -/

section Runs

variable (opts : TenantQuotaOpts) (env : QuotaEnv)

/-- No sweep finds as many live buckets as the map may hold. -/
def RoomyFrom : QuotaState → List QuotaCall → Prop
  | _, [] => True
  | state, call :: rest =>
    (Text.trim call.tenantId ≠ "" →
      Roomy (maxBuckets env) call.now state) ∧
    RoomyFrom (tenantQuota opts env call.now call.tenantId state).2 rest

/-- The calls come in the order of the clock. -/
def InTime (calls : List QuotaCall) : Prop :=
  calls.Pairwise fun call later => call.now ≤ later.now

/-- Every tenant is told what it is told when it calls alone. -/
def Isolated (calls : List QuotaCall) : Prop :=
  ∀ tenantId,
    (outcomes opts env .initial calls).filter
        (fun outcome => decide (outcome.1.tenantId = tenantId)) =
      outcomes opts env .initial
        (calls.filter fun call => decide (call.tenantId = tenantId))

/-- Whether a tenant was allowed a call before a time. -/
def allowedBefore (tenantId : String) (time : ℚ) (outcome : QuotaOutcome) :
    Bool :=
  decide (outcome.1.tenantId = tenantId) && decide (outcome.1.now < time) &&
    (outcome.2.toOption.map TenantQuotaResult.allowed).getD false

/-- A call opens a bucket for its tenant. -/
def Opens (state : QuotaState) (call : QuotaCall) : Prop :=
  Text.trim call.tenantId ≠ "" ∧
    liveBucket (afterSweep call.now (maxBuckets env) state).buckets
      (bucketKey call.tenantId) call.now = none

/-- From the call which opens a bucket to its end, the limit is kept. -/
def WithinBudget (limit : ℚ) (calls : List QuotaCall) : Prop :=
  ∀ front call back, calls = front ++ call :: back →
    Opens env (stateAfter opts env .initial front) call →
    (((outcomes opts env (stateAfter opts env .initial front)
      (call :: back)).countP (allowedBefore call.tenantId
        (call.now + windowMs opts env)) : Nat) : ℚ) ≤ limit

variable {opts env} {limit : ℚ}

theorem Agree.outcomes (configured : configuredLimit opts env = some limit)
    (positive : 0 < limit) {tenantId : String} {calls : List QuotaCall}
    (inTime : InTime calls) {now : ℚ} {shared alone : QuotaState}
    (started : ∀ call ∈ calls, now ≤ call.now)
    (agree : Agree (bucketKey tenantId) now shared alone)
    (roomy : RoomyFrom opts env shared calls) :
    (Ops.outcomes opts env shared calls).filter
        (fun outcome => decide (outcome.1.tenantId = tenantId)) =
      Ops.outcomes opts env alone
        (calls.filter fun call => decide (call.tenantId = tenantId)) := by
  induction calls generalizing now shared alone with
  | nil => rfl
  | cons call rest inductionHypothesis =>
    obtain ⟨later, inOrder⟩ := List.pairwise_cons.mp inTime
    have here := agree.later (started call List.mem_cons_self)
    by_cases own : call.tenantId = tenantId
    · obtain rfl := own
      have made := here.own_call configured positive roomy.1
      rw [Ops.outcomes, List.filter_cons_of_pos (by simp),
        List.filter_cons_of_pos (by simp), Ops.outcomes, made.1]
      exact congrArg _ (inductionHypothesis inOrder later made.2 roomy.2)
    · rw [Ops.outcomes, List.filter_cons_of_neg (by simpa using own),
        List.filter_cons_of_neg (by simpa using own)]
      refine inductionHypothesis inOrder later ⟨fun time after => ?_,
        here.only⟩ roomy.2
      rw [liveBucket_other_call configured positive own roomy.1 after]
      exact here.live time after

theorem map_fst_outcomes (state : QuotaState) (calls : List QuotaCall) :
    (Ops.outcomes opts env state calls).map Prod.fst = calls := by
  induction calls generalizing state with
  | nil => rfl
  | cons call rest inductionHypothesis =>
    rw [Ops.outcomes, List.map_cons, inductionHypothesis]

theorem count_eq_zero_of_late {tenantId : String} {time : ℚ}
    {calls : List QuotaCall} (late : ∀ call ∈ calls, time ≤ call.now)
    (state : QuotaState) :
    (Ops.outcomes opts env state calls).countP
      (allowedBefore tenantId time) = 0 := by
  rw [List.countP_eq_zero]
  intro outcome member allowed
  have listed : outcome.1 ∈ calls := by
    rw [← @map_fst_outcomes opts env state calls]
    exact List.mem_map_of_mem member
  simp only [allowedBefore, Bool.and_eq_true, decide_eq_true_iff] at allowed
  exact absurd allowed.1.2 (not_lt.mpr (late _ listed))

theorem countedBucket_of_live {now : ℚ} {tenantId : String}
    {state : QuotaState} {bucket : Bucket}
    (live : liveBucket (afterSweep now (maxBuckets env) state).buckets
      (bucketKey tenantId) now = some bucket) :
    countedBucket opts env now tenantId state =
      { bucket with count := bucket.count + 1 } := by
  rw [countedBucket, live]
  rfl

theorem get?_counted (configured : configuredLimit opts env = some limit)
    (positive : 0 < limit) {now : ℚ} {tenantId : String}
    (named : Text.trim tenantId ≠ "") (state : QuotaState) :
    (tenantQuota opts env now tenantId state).2.buckets.get?
        (bucketKey tenantId) =
      some (countedBucket opts env now tenantId state) := by
  rw [tenantQuota_counted configured positive now named]
  exact OrderedMap.get?_set_self _ _ _

theorem count_le_of_counted (configured : configuredLimit opts env = some limit)
    (positive : 0 < limit) {call : QuotaCall} {rest : List QuotaCall}
    (named : Text.trim call.tenantId ≠ "") {state : QuotaState}
    {bucket : Bucket} {time : ℚ}
    (counted : countedBucket opts env call.now call.tenantId state =
      { bucket with count := bucket.count + 1 })
    (bounded : (((Ops.outcomes opts env
      (tenantQuota opts env call.now call.tenantId state).2 rest).countP
        (allowedBefore call.tenantId time) : Nat) : ℚ) ≤
          max 0 (limit - (bucket.count + 1 : Nat))) :
    (((Ops.outcomes opts env state (call :: rest)).countP
      (allowedBefore call.tenantId time) : Nat) : ℚ) ≤
        max 0 (limit - bucket.count) := by
  have told : (tenantQuota opts env call.now call.tenantId state).1 =
      .ok (quotaResult limit call.now
        { bucket with count := bucket.count + 1 }) := by
    rw [tenantQuota_counted configured positive call.now named, counted]
  rw [Ops.outcomes, List.countP_cons, told]
  push_cast at bounded ⊢
  rcases max_cases 0 (limit - ((bucket.count : ℚ) + 1)) with here | here
  · split
    · next allowed =>
        simp only [allowedBefore, quotaResult, Except.toOption,
          Option.map_some, Option.getD_some, Bool.and_eq_true,
          decide_eq_true_iff, Nat.cast_add, Nat.cast_one] at allowed
        exact le_max_of_le_right (by linarith [allowed.2])
    · exact le_max_of_le_left (by linarith)
  · apply le_max_of_le_right
    split <;> linarith

theorem count_le_of_open (configured : configuredLimit opts env = some limit)
    (positive : 0 < limit) {tenantId : String}
    (named : Text.trim tenantId ≠ "") {calls : List QuotaCall}
    (inTime : InTime calls) {state : QuotaState} {bucket : Bucket}
    (found : state.buckets.get? (bucketKey tenantId) = some bucket)
    (roomy : RoomyFrom opts env state calls) :
    (((Ops.outcomes opts env state calls).countP
      (allowedBefore tenantId bucket.resetAt) : Nat) : ℚ) ≤
        max 0 (limit - bucket.count) := by
  induction calls generalizing state bucket with
  | nil => exact le_max_left _ _
  | cons call rest inductionHypothesis =>
    obtain ⟨later, inOrder⟩ := List.pairwise_cons.mp inTime
    by_cases ended : bucket.resetAt ≤ call.now
    · rw [count_eq_zero_of_late]
      · exact le_max_left _ _
      · intro other member
        rcases List.mem_cons.mp member with rfl | after
        · exact ended
        · exact ended.trans (later other after)
    · have live := liveBucket_eq_some_iff.mpr ⟨found, not_le.mp ended⟩
      by_cases own : call.tenantId = tenantId
      · subst own
        rw [← liveBucket_afterSweep (roomy.1 named) le_rfl] at live
        have counted := @countedBucket_of_live opts env _ _ _ _ live
        have kept := @get?_counted opts env limit configured positive
          call.now _ named state
        rw [counted] at kept
        have bounded := inductionHypothesis inOrder kept roomy.2
        exact @count_le_of_counted opts env limit configured positive call
          rest named state bucket bucket.resetAt counted bounded
      · rw [Ops.outcomes, List.countP_cons_of_neg (by
          simp [allowedBefore, own])]
        have kept := liveBucket_other_call configured positive own roomy.1
          (le_refl call.now)
        rw [live] at kept
        exact inductionHypothesis inOrder
          (liveBucket_eq_some_iff.mp kept).1 roomy.2

theorem RoomyFrom.append {front back : List QuotaCall} {state : QuotaState}
    (roomy : RoomyFrom opts env state (front ++ back)) :
    RoomyFrom opts env (stateAfter opts env state front) back := by
  induction front generalizing state with
  | nil => exact roomy
  | cons call rest inductionHypothesis => exact inductionHypothesis roomy.2

theorem RoomyFrom.withinBudget
    (configured : configuredLimit opts env = some limit)
    (positive : 0 < limit) {calls : List QuotaCall} (inTime : InTime calls)
    (roomy : RoomyFrom opts env .initial calls) :
    WithinBudget opts env limit calls := by
  rintro front call back rfl ⟨named, fresh⟩
  have counted : countedBucket opts env call.now call.tenantId
      (stateAfter opts env .initial front) =
        { count := 0 + 1, resetAt := call.now + windowMs opts env } := by
    rw [countedBucket, fresh]
    rfl
  have bounded := @count_le_of_counted opts env limit configured positive
    call back named _ { count := 0, resetAt := call.now + windowMs opts env }
    (call.now + windowMs opts env) counted
  rw [Nat.cast_zero, sub_zero, max_eq_right positive.le] at bounded
  have kept := @get?_counted opts env limit configured positive call.now _
    named (stateAfter opts env .initial front)
  rw [counted] at kept
  have inOrder :=
    (List.pairwise_cons.mp (List.pairwise_append.mp inTime).2.1).2
  have later := count_le_of_open configured positive named inOrder kept
    roomy.append.2
  exact bounded later

/--
In a run whose sweeps find room, a tenant is told what it is told when it
calls alone, and is kept to the limit from the opening of a bucket to its end.
-/
theorem isolated_of_roomy (opts : TenantQuotaOpts) (env : QuotaEnv)
    (limit : ℚ) (configured : configuredLimit opts env = some limit)
    (positive : 0 < limit) (calls : List QuotaCall) (inTime : InTime calls)
    (roomy : RoomyFrom opts env .initial calls) :
    Isolated opts env calls ∧ WithinBudget opts env limit calls := by
  refine ⟨fun tenantId => ?_, roomy.withinBudget configured positive inTime⟩
  cases calls with
  | nil => rfl
  | cons call rest =>
    refine Agree.outcomes configured positive inTime
      (List.forall_mem_cons.mpr ⟨le_rfl, (List.pairwise_cons.mp inTime).1⟩)
      ⟨fun _ _ => rfl, fun _ listed => ?_⟩ roomy
    cases listed

end Runs

/-! ## Three tenants, and room for two -/

def sampleOpts : TenantQuotaOpts where
  limit := some (some 1)
  windowMs := some (some 10)

def sampleEnv : QuotaEnv where
  tenantQuotaMax := none
  tenantQuotaWindowMs := none
  tenantQuotaMaxBuckets := some (some 2)

/-- The first tenant calls again after two others. -/
def sampleCalls : List QuotaCall :=
  [⟨0, "a"⟩, ⟨0, "b"⟩, ⟨0, "c"⟩, ⟨1, "a"⟩]

theorem isolated_of_roomy_sample :
    Isolated sampleOpts sampleEnv [⟨0, "a"⟩, ⟨1, "a"⟩] ∧
      WithinBudget sampleOpts sampleEnv 1 [⟨0, "a"⟩, ⟨1, "a"⟩] := by
  refine isolated_of_roomy sampleOpts sampleEnv 1 rfl (by decide) _ ?_
    ⟨fun _ due => ?_, fun _ due => ?_, trivial⟩
  · simp [InTime]
  · exact absurd due (by decide)
  · exact absurd due (by decide)

/-- What the answers allow. -/
def allowances (outcomes : List QuotaOutcome) : List Bool :=
  outcomes.map fun outcome =>
    (outcome.2.toOption.map TenantQuotaResult.allowed).getD false

/-- The first tenant is allowed a second call, which it is refused alone. -/
theorem not_isolated : ¬ Isolated sampleOpts sampleEnv sampleCalls := by
  intro isolated
  have same := congrArg allowances (isolated "a")
  have shared : allowances ((outcomes sampleOpts sampleEnv .initial
      sampleCalls).filter fun outcome =>
        decide (outcome.1.tenantId = "a")) = [true, true] := by
    with_unfolding_all decide
  have alone : allowances (outcomes sampleOpts sampleEnv .initial
      (sampleCalls.filter fun call => decide (call.tenantId = "a"))) =
        [true, false] := by
    with_unfolding_all decide
  rw [shared, alone] at same
  cases same

end Mendpoint.Ops
