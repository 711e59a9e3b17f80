import Mendpoint.Outage.Reopening

/-!
# Two runs of a delivery

When one of two runs of an adoptive operation invokes its effect, without an
error about the end of the window or about the authority of the row.
-/

namespace Mendpoint.Outage

open Mendpoint.Library
open Mendpoint.Library.Attempt
open Mendpoint.Library.IsoTime
open Mendpoint.Library.Run

/-! ## Errors after the effect -/

/-- An error about the window or the authority of a row. -/
def Terminal (failure : String) : Prop :=
  failure = "dependency_outage_expired" ∨
    failure = "dependency_outage_authority_mismatch"

instance (failure : String) : Decidable (Terminal failure) :=
  inferInstanceAs (Decidable (_ ∨ _))

/-- An answer is no such error. -/
def Spares {α : Type} (answer : Except String α) : Prop :=
  ∀ failure, answer = .error failure → ¬ Terminal failure

section Spared

variable {α β : Type}

theorem spares_ok (value : α) : Spares (.ok value) := nofun

theorem spares_error {failure : String} (spared : ¬ Terminal failure) :
    Spares (.error failure : Except String α) := by
  intro other same
  cases same
  exact spared

theorem spares_bind {first : Except String α} {next : α → Except String β}
    (spared : Spares first) (later : ∀ value, Spares (next value)) :
    Spares (first >>= next) := by
  cases first with
  | ok value => exact later value
  | error failure => exact spares_error (spared failure rfl)

theorem spares_check {holds : Prop} [Decidable holds] {code : String}
    (spared : ¬ Terminal code) : Spares (check holds code) := by
  rw [check]
  split
  · exact spares_ok _
  · exact spares_error spared

theorem spares_iso {value code : String} (spared : ¬ Terminal code) :
    Spares (iso value code) := by
  rw [iso]
  split
  · exact spares_ok _
  · exact spares_error spared

theorem spares_isoOption {value : Option String} {code : String}
    (spared : ¬ Terminal code) : Spares (isoOption value code) := by
  cases value with
  | none => exact spares_ok _
  | some text =>
    exact spares_bind (spares_iso spared) fun _ => spares_ok _

theorem spares_validateScope (scope : Scope) :
    Spares (validateScope scope) := by
  rw [validateScope]
  apply spares_bind (spares_check (by decide)) fun _ => ?_
  apply spares_bind (spares_check (by decide)) fun _ => ?_
  apply spares_bind (spares_check (by decide)) fun _ => ?_
  exact spares_check (by decide)

theorem spares_append {sha256 : String → String} {scope : Scope}
    {kind : EventKind} {observedAt : Instant} {details : Written}
    {store : Store} :
    Spares (append sha256 scope kind observedAt details store) := by
  rw [append]
  split
  · exact spares_error (by decide)
  · exact spares_ok _

theorem spares_validateFailureDecision (decision : FailureDecision) :
    Spares (validateFailureDecision decision) := by
  rw [validateFailureDecision]
  apply spares_bind (spares_check (by decide)) fun _ => ?_
  apply spares_bind _ fun _ => ?_
  · rw [validateCircuit]
    exact spares_bind (spares_check (by decide))
      fun _ => spares_isoOption (by decide)
  apply spares_bind (spares_check (by decide)) fun _ => ?_
  apply spares_bind (spares_isoOption (by decide)) fun _ => ?_
  apply spares_bind (spares_check (by decide)) fun _ => ?_
  apply spares_bind (spares_check (by decide)) fun _ => ?_
  exact spares_bind (spares_check (by decide)) fun _ => spares_ok _

theorem spares_readOperation (scope : Scope) (store : Store) :
    Spares (readOperation scope store) := by
  rw [readOperation]
  apply spares_bind (spares_validateScope scope) fun _ => ?_
  split
  · exact spares_ok _
  · exact spares_bind (spares_check (by decide)) fun _ => spares_ok _

variable {sha256 : String → String}

theorem spares_fail (held : Claim) (decision : FailureDecision)
    (observedAt : String) (store : Store) :
    Spares (fail sha256 held decision observedAt store) := by
  rw [fail]
  apply spares_bind (spares_validateScope _) fun _ => ?_
  apply spares_bind (spares_iso (by decide)) fun _ => ?_
  apply spares_bind (spares_validateFailureDecision decision)
    fun decided => ?_
  rcases decided with ⟨openedAt, nextAttemptAt⟩
  simp only
  split
  · exact spares_error (by decide)
  apply spares_bind (spares_check (by decide)) fun _ => ?_
  apply spares_bind (spares_check (by decide)) fun _ => ?_
  apply spares_bind (spares_check (by decide)) fun _ => ?_
  apply spares_bind (spares_check (by decide)) fun _ => ?_
  apply spares_bind (spares_check (by decide)) fun _ => ?_
  exact spares_bind spares_append fun _ => spares_ok _

theorem spares_complete (held : Claim) (completionDigest observedAt : String)
    (store : Store) :
    Spares (complete sha256 held completionDigest observedAt store) := by
  rw [complete]
  apply spares_bind (spares_validateScope _) fun _ => ?_
  apply spares_bind (spares_check (by decide)) fun _ => ?_
  apply spares_bind (spares_iso (by decide)) fun _ => ?_
  split
  · exact spares_error (by decide)
  apply spares_bind (spares_check (by decide)) fun _ => ?_
  split
  · exact spares_bind (spares_check (by decide)) fun _ => spares_ok _
  · split
    · exact spares_ok _
    · exact spares_bind spares_append fun _ => spares_ok _

theorem spares_settleFencedCompletion (scope : Scope)
    (completionDigest : String) (observedAt : Instant) (store : Store) :
    Spares (settleFencedCompletion sha256 scope completionDigest observedAt
      store) := by
  rw [settleFencedCompletion]
  apply spares_bind (spares_check (by decide)) fun _ => ?_
  apply spares_bind (spares_validateScope _) fun _ => ?_
  split
  · exact spares_error (by decide)
  apply spares_bind (spares_check (by decide)) fun _ => ?_
  split
  · exact spares_bind (spares_check (by decide)) fun _ => spares_ok _
  · exact spares_bind spares_append fun _ => spares_ok _

/-! ## What runs do after the effect -/

/-- A computation which invokes no effect, and ends in no such error. -/
def Quiet (computation : SessionM α) : Prop :=
  ∀ session, (outcome computation session).2.executions =
      session.executions ∧
    Spares (outcome computation session).1

theorem quiet_pure (value : α) : Quiet (pure value) :=
  fun _ => ⟨rfl, spares_ok value⟩

theorem quiet_throw {failure : String} (spared : ¬ Terminal failure) :
    Quiet (throw failure : SessionM α) :=
  fun _ => ⟨rfl, spares_error spared⟩

theorem quiet_bind {first : SessionM α} {next : α → SessionM β}
    (quiet : Quiet first) (later : ∀ value, Quiet (next value)) :
    Quiet (first >>= next) := by
  intro session
  rcases quiet session with ⟨kept, spared⟩
  rw [outcome_bind]
  cases answered : outcome first session with
  | mk answer middle =>
    rw [answered] at kept spared
    cases answer with
    | ok value =>
      rcases later value middle with ⟨keptLater, sparedLater⟩
      exact ⟨keptLater.trans kept, sparedLater⟩
    | error failure => exact ⟨kept, spares_error (spared failure rfl)⟩

theorem quiet_get : Quiet (get : SessionM Session) :=
  fun session => ⟨rfl, spares_ok session⟩

theorem quiet_lift {answer : Except String α} (spared : Spares answer) :
    Quiet (liftM answer : SessionM α) := by
  intro session
  cases answer with
  | ok value => exact ⟨rfl, spares_ok value⟩
  | error failure => exact ⟨rfl, spared⟩

theorem quiet_transact {call : Store → Except String (Store × α)}
    (spared : ∀ store, Spares (call store)) : Quiet (transact call) := by
  rw [transact]
  apply quiet_bind quiet_get fun session => ?_
  apply quiet_bind (quiet_lift (spared session.store)) fun answer => ?_
  exact quiet_bind (fun _ => ⟨rfl, spares_ok _⟩) fun _ => quiet_pure _

theorem quiet_tryCatch {computation : SessionM α}
    {handle : String → SessionM α} (quiet : Quiet computation)
    (handled : ∀ failure, ¬ Terminal failure → Quiet (handle failure)) :
    Quiet (tryCatch computation handle) := by
  intro session
  rcases quiet session with ⟨kept, spared⟩
  rw [outcome_tryCatch]
  cases answered : outcome computation session with
  | mk answer middle =>
    rw [answered] at kept spared
    cases answer with
    | ok value => exact ⟨kept, spares_ok value⟩
    | error failure =>
      rcases handled failure (spared failure rfl) middle with
        ⟨keptLater, sparedLater⟩
      exact ⟨keptLater.trans kept, sparedLater⟩

end Spared

section Operations

variable {sha256 : String → String}

theorem quiet_recordOrClaim (operation : AdoptiveOperation)
    (claim : OutageRow) : Quiet (recordOrClaim operation claim) := by
  rw [recordOrClaim]
  apply quiet_bind quiet_get fun session => ?_
  exact quiet_bind (quiet_lift (spares_readOperation _ _))
    fun found => quiet_pure _

theorem quiet_afterThrow (operation : AdoptiveOperation) (world : World)
    (claim : OutageRow) (failure : String) :
    Quiet (afterThrow sha256 operation world claim failure) := by
  rw [afterThrow]
  apply quiet_bind quiet_get fun session => ?_
  apply quiet_bind (quiet_lift (spares_validateScope _)) fun _ => ?_
  split
  · rw [failThroughPolicy]
    exact quiet_bind (quiet_transact fun store => spares_fail _ _ _ store)
      fun record => quiet_pure _
  · exact quiet_bind (quiet_recordOrClaim operation claim)
      fun record => quiet_pure _

theorem quiet_completeOrSettle (operation : AdoptiveOperation)
    (world : World) (claim : OutageRow) (completionDigest : String) :
    Quiet (completeOrSettle sha256 operation world claim
      completionDigest) := by
  rw [completeOrSettle]
  apply quiet_bind (quiet_transact fun store =>
    spares_complete _ _ _ store) fun answer => ?_
  rcases answer with ⟨applied, record⟩
  simp only
  split
  · exact quiet_pure _
  · split
    · exact quiet_pure _
    · exact quiet_bind (quiet_transact fun store =>
        spares_settleFencedCompletion _ _ _ store) fun record =>
          quiet_pure _

theorem quiet_afterReturn (operation : AdoptiveOperation) (world : World)
    (claim : OutageRow) (completionDigest : String) :
    Quiet (afterReturn sha256 operation world claim completionDigest) := by
  apply quiet_tryCatch (quiet_completeOrSettle _ _ _ _)
  intro failure spared
  split
  · exact quiet_bind (quiet_recordOrClaim operation claim)
      fun record => quiet_pure _
  · exact quiet_throw spared

/-! ## One run -/

/-- A run has invoked its effect, and ends without such an error. -/
def Invokes (answered : Except String RunResult × Session)
    (executions : Nat) : Prop :=
  answered.2.executions = executions + 1 ∧ Spares answered.1

section Runs

variable {operation : AdoptiveOperation} {world : World} {store : Store}
  {row : OutageRow} {expires : Instant} {executions : Nat}

theorem Holds.invokes (collisionFree : Function.Injective sha256)
    (callAt : CallAt operation world.now expires) (sound : row.Sound)
    (holds : Holds sha256 store operation.scope row)
    (outset : row.outset operation.authorityVersion world.now expires =
      .ok none) :
    Invokes (outcome (runAdoptive sha256 operation world)
      ⟨store, executions⟩) executions := by
  rcases holds.start collisionFree callAt sound outset with
    ⟨claim, after, started, granted, _⟩
  have isStart : outcome (startAdoptive sha256 operation world.now)
    ⟨store, executions⟩ = (.ok claim, ⟨after, executions⟩) := started
  rw [runAdoptive, outcome_bind, isStart]
  cases claim with
  | none => exact absurd rfl (granted rfl)
  | some claim =>
    have invoked : outcome (invoke world) ⟨after, executions⟩ =
      (.ok (), ⟨world.meanwhile after, executions + 1⟩) := rfl
    simp only [outcome_bind, invoked]
    cases world.executed with
    | threw failure => exact quiet_afterThrow _ _ _ _ _
    | returned completionDigest => exact quiet_afterReturn _ _ _ _ _

theorem Holds.rests (collisionFree : Function.Injective sha256)
    (callAt : CallAt operation world.now expires) (sound : row.Sound)
    (holds : Holds sha256 store operation.scope row) {left : OutageRow}
    (outset : row.outset operation.authorityVersion world.now expires =
      .ok (some left)) (notCompleted : left.status ≠ .completed) :
    ∃ result after, outcome (runAdoptive sha256 operation world)
        ⟨store, executions⟩ = (.ok result, ⟨after, executions⟩) ∧
      Holds sha256 after operation.scope left := by
  rcases holds.start collisionFree callAt sound outset with
    ⟨claim, after, started, _, rested⟩
  rcases rested left rfl with ⟨rfl, kept⟩
  have read := kept.readOperation callAt.scope
  have returned : ∃ result, Yields (withoutClaim operation world)
      ⟨after, executions⟩ result ⟨after, executions⟩ := by
    refine ⟨{
      status :=
        if left.status = .blocked then .blocked
        else if left.status = .failed then .failed
        else .deferred
      record := left
      decision := none
      fenced := false }, ?_⟩
    rw [withoutClaim, yields_get_bind]
    refine yields_lift_bind.mpr ⟨some left, read, ?_⟩
    refine yields_lift_bind.mpr ⟨left, demand_eq_ok.mpr rfl, ?_⟩
    rw [if_neg notCompleted]
    exact yields_pure.mpr ⟨rfl, rfl⟩
  rcases returned with ⟨result, returns⟩
  refine ⟨result, after, ?_, kept⟩
  exact yields_bind.mpr ⟨none, _, started, returns⟩

theorem Holds.throws (collisionFree : Function.Injective sha256)
    (callAt : CallAt operation world.now expires) (sound : row.Sound)
    (holds : Holds sha256 store operation.scope row) {failure : String}
    (outset : row.outset operation.authorityVersion world.now expires =
      .error failure) :
    ∃ after, outcome (runAdoptive sha256 operation world)
      ⟨store, executions⟩ = (.error failure, ⟨after, executions⟩) := by
  rcases @Holds.start_fails sha256 operation store row world.now expires
    executions collisionFree callAt sound holds failure outset with
    ⟨after, failed⟩
  exact ⟨after, fails_bind.mpr (.inl failed)⟩

end Runs

/-! ## Two runs -/

/--
Of two runs, the second one after a first which has returned without its
effect, one invokes the effect, and none ends in such an error.
-/
def Served (sha256 : String → String) (operation : AdoptiveOperation)
    (expiresLater : String) (world worldLater : World) (store : Store) :
    Prop :=
  let first := outcome (runAdoptive sha256 operation world) ⟨store, 0⟩
  let second := outcome (runAdoptive sha256
    { operation with expiresAt := expiresLater } worldLater) first.2
  Spares first.1 ∧ (0 < first.2.executions ∨
    (∃ result, first.1 = .ok result) ∧ Spares second.1 ∧
      0 < second.2.executions)

/-- One of two outsets leaves no row behind. -/
def OutageRow.Comes (row : OutageRow) (authorityVersion : String)
    (now later expires expiresLater : Instant) : Prop :=
  row.outset authorityVersion now expires = .ok none ∨
    ∃ left, row.outset authorityVersion now expires = .ok (some left) ∧
      left.outset authorityVersion later expiresLater = .ok none

theorem Holds.served_iff (collisionFree : Function.Injective sha256)
    {operation : AdoptiveOperation} {textLater : String}
    {world worldLater : World} {store : Store} {row : OutageRow}
    {expires expiresLater : Instant}
    (callAt : CallAt operation world.now expires)
    (callLater : CallAt { operation with expiresAt := textLater }
      worldLater.now expiresLater)
    (sound : row.Sound) (holds : Holds sha256 store operation.scope row)
    (kept : ∀ left, row.outset operation.authorityVersion world.now expires =
      .ok (some left) → left.Sound ∧ left.status ≠ .completed ∧
        ∀ other, left.outset operation.authorityVersion worldLater.now
          expiresLater = .ok (some other) → other.status ≠ .completed) :
    Served sha256 operation textLater world worldLater store ↔
      row.Comes operation.authorityVersion world.now worldLater.now expires
        expiresLater := by
  rw [Served, OutageRow.Comes]
  cases outset : row.outset operation.authorityVersion world.now expires with
  | error failure =>
    rcases @Holds.throws sha256 operation world store row expires 0
      collisionFree callAt sound holds failure outset with
      ⟨after, failed⟩
    rw [failed]
    constructor
    · rintro ⟨_, ran | ⟨⟨_, impossible⟩, _⟩⟩
      · cases ran
      · cases impossible
    · rintro (impossible | ⟨_, impossible, _⟩)
      · cases impossible
      · cases impossible
  | ok left =>
    cases left with
    | none =>
      have invoked := @Holds.invokes sha256 operation world store row
        expires 0 collisionFree callAt sound holds outset
      refine iff_of_true ⟨invoked.2, .inl ?_⟩ (.inl rfl)
      rw [invoked.1]
      exact Nat.one_pos
    | some left =>
      rcases kept left outset with ⟨soundLeft, notCompleted, others⟩
      rcases @Holds.rests sha256 operation world store row expires 0
        collisionFree callAt sound holds left outset notCompleted with
        ⟨result, after, returned, holdsLeft⟩
      rw [returned]
      have firstRests : Spares (.ok result : Except String RunResult) :=
        spares_ok result
      have notInvoked : ¬ 0 < 0 := Nat.lt_irrefl 0
      cases second : left.outset operation.authorityVersion
          worldLater.now expiresLater with
      | error failure =>
        rcases @Holds.throws sha256
          { operation with expiresAt := textLater } worldLater after
          left expiresLater 0 collisionFree callLater soundLeft
          holdsLeft failure second with ⟨last, failed⟩
        rw [failed]
        constructor
        · rintro ⟨_, ran | ⟨_, _, ran⟩⟩
          · exact absurd ran notInvoked
          · exact absurd ran notInvoked
        · rintro (impossible | ⟨_, same, comes⟩)
          · cases impossible
          · cases same
            rw [second] at comes
            cases comes
      | ok answer =>
        cases answer with
        | none =>
          have invoked := @Holds.invokes sha256
            { operation with expiresAt := textLater } worldLater
            after left expiresLater 0 collisionFree callLater
            soundLeft holdsLeft second
          refine iff_of_true ⟨firstRests, .inr
            ⟨⟨result, rfl⟩, invoked.2, ?_⟩⟩
            (.inr ⟨left, rfl, second⟩)
          rw [invoked.1]
          exact Nat.one_pos
        | some other =>
          rcases @Holds.rests sha256
            { operation with expiresAt := textLater } worldLater
            after left expiresLater 0 collisionFree callLater
            soundLeft holdsLeft other second (others other second)
            with ⟨resultLater, last, returnedLater, _⟩
          rw [returnedLater]
          constructor
          · rintro ⟨_, ran | ⟨_, _, ran⟩⟩
            · exact absurd ran notInvoked
            · exact absurd ran notInvoked
          · rintro (impossible | ⟨_, same, comes⟩)
            · cases impossible
            · cases same
              rw [second] at comes
              cases comes

/-! ## Outsets of rows -/

namespace OutageRow

variable {row : OutageRow} {authorityVersion : String}
  {now later expires expiresLater : Instant}

theorem outset_of_adopted {next : OutageRow}
    (adopted : (row.admitted now expires).adopted authorityVersion now =
      .ok next) :
    row.outset authorityVersion now expires = .ok (next.refused now) := by
  rw [outset, adopted]
  rfl

theorem outset_of_fails {failure : String}
    (fails : (row.admitted now expires).adopted authorityVersion now =
      .error failure) :
    row.outset authorityVersion now expires = .error failure := by
  rw [outset, fails]
  rfl

theorem admitted_of_not_failed (notFailed : row.status ≠ .failed) :
    row.admitted now expires = row := by
  rw [admitted, autoReopens, if_neg notFailed]

theorem adopted_same (same : row.authorityVersion = some authorityVersion) :
    row.adopted authorityVersion now = .ok row := by
  rw [adopted, same]
  simp only [if_true]
  split
  · rfl
  · rfl

theorem adopted_missing (unsettled : row.unsettled)
    (missing : row.authorityVersion = none) :
    row.adopted authorityVersion now =
      .error "dependency_outage_authority_missing" := by
  rw [adopted, if_pos unsettled, missing]

theorem adopted_other {previous : String} (unsettled : row.unsettled)
    (other : row.authorityVersion = some previous)
    (differs : previous ≠ authorityVersion) :
    row.adopted authorityVersion now =
      match row.notReactivated now with
      | some failure => .error failure
      | none => .ok (row.reactivate authorityVersion now) := by
  rw [adopted, if_pos unsettled, other]
  exact if_neg differs

theorem notReactivated_queued (queued : row.status = .queued) :
    row.notReactivated now =
      if row.expiresAt.textLe now = true then
        some "dependency_outage_expired"
      else none := by
  rw [notReactivated, if_neg (by rw [queued]; decide)]
  split
  · rfl
  · rw [if_neg]
    rw [queued]
    exact fun both => Status.noConfusion both.1

theorem refused_queued (queued : row.status = .queued)
    (due : row.nextAttemptAt.textLe now = true) :
    row.refused now =
      if row.expiresAt.textLe now = true then some (row.expire now)
      else if row.attemptsConsumed < row.retryBudget then none
      else some row := by
  rw [refused]
  by_cases expired : row.expiresAt.textLe now = true
  · rw [if_pos ⟨queued, expired⟩, if_pos expired]
  · rw [if_neg fun both => expired both.2, if_neg expired]
    have notExpired := Bool.eq_false_iff.mpr expired
    by_cases left : row.attemptsConsumed < row.retryBudget
    · rw [if_pos left, if_neg]
      simp [retryEligible, queued, due, notExpired, left]
    · rw [if_neg left, if_pos]
      simp [retryEligible, reconciling, expiredRecovery, recovering, queued,
        left]

theorem not_comes_spent (queued : row.status = .queued)
    (same : row.authorityVersion = some authorityVersion)
    (spent : ¬ row.attemptsConsumed < row.retryBudget) :
    row.outset authorityVersion now expires ≠ .ok none := by
  have admitted : row.admitted now expires = row :=
    admitted_of_not_failed (by rw [queued]; decide)
  have adopted : (row.admitted now expires).adopted authorityVersion now =
      .ok row := by
    rw [admitted]
    exact adopted_same same
  rw [outset_of_adopted adopted, refused]
  by_cases expired : row.expiresAt.textLe now = true
  · rw [if_pos ⟨queued, expired⟩]
    intro impossible
    cases impossible
  · rw [if_neg fun both => expired both.2, if_pos]
    · intro impossible
      cases impossible
    · simp [retryEligible, reconciling, expiredRecovery, recovering, queued,
        spent]

theorem refused_reactivate (inWindow : ¬ row.expiresAt.textLe now = true) :
    (row.reactivate authorityVersion now).refused now =
      if row.attemptsConsumed < row.retryBudget then none
      else some (row.reactivate authorityVersion now) := by
  have expiresAt : (row.reactivate authorityVersion now).expiresAt =
    row.expiresAt := rfl
  have attempts : (row.reactivate authorityVersion now).attemptsConsumed =
    row.attemptsConsumed := rfl
  have budget : (row.reactivate authorityVersion now).retryBudget =
    row.retryBudget := rfl
  have next : (row.reactivate authorityVersion now).nextAttemptAt = now :=
    rfl
  have due : (row.reactivate authorityVersion now).nextAttemptAt.textLe
      now = true := by
    rw [next]
    exact now.textLe_refl
  rw [refused_queued rfl due, expiresAt, attempts, budget, if_neg inWindow]

theorem outset_queued {next : OutageRow}
    (admitted : row.admitted now expires = next)
    (queued : next.status = .queued) :
    row.outset authorityVersion now expires =
      match next.authorityVersion with
      | none => .error "dependency_outage_authority_missing"
      | some previous =>
        if previous = authorityVersion then .ok (next.refused now)
        else if next.expiresAt.textLe now = true then
          .error "dependency_outage_expired"
        else .ok
          (if next.attemptsConsumed < next.retryBudget then none
          else some (next.reactivate authorityVersion now)) := by
  cases version : next.authorityVersion with
  | none =>
    apply outset_of_fails
    rw [admitted]
    exact adopted_missing (.inl queued) version
  | some previous =>
    simp only
    by_cases same : previous = authorityVersion
    · rw [if_pos same]
      apply outset_of_adopted
      rw [admitted]
      exact adopted_same (version.trans (congrArg some same))
    · rw [if_neg same]
      have other := @adopted_other next authorityVersion now previous
        (.inl queued) version same
      rw [notReactivated_queued queued, ← admitted] at other
      by_cases expired : next.expiresAt.textLe now = true
      · rw [if_pos expired]
        rw [admitted, if_pos expired, ← admitted] at other
        exact outset_of_fails other
      · rw [if_neg expired, ← refused_reactivate expired]
        rw [admitted, if_neg expired, ← admitted] at other
        rw [outset_of_adopted other, admitted]

theorem outset_reopened {reason : ReopenReason}
    (reopens : row.autoReopens = some reason) (budget : 1 ≤ row.retryBudget) :
    row.outset authorityVersion now expires =
      match row.authorityVersion with
      | none => .error "dependency_outage_authority_missing"
      | some previous =>
        if expires.textLe now = true then
          if previous = authorityVersion then
            .ok (some ((row.reopen now now expires).expire now))
          else .error "dependency_outage_expired"
        else .ok none := by
  have admitted : row.admitted now expires = row.reopen now now expires := by
    rw [OutageRow.admitted, reopens]
  have left : (row.reopen now now expires).attemptsConsumed <
    (row.reopen now now expires).retryBudget := budget
  have expiresAt : (row.reopen now now expires).expiresAt = expires := rfl
  have version : (row.reopen now now expires).authorityVersion =
    row.authorityVersion := rfl
  have next : (row.reopen now now expires).nextAttemptAt = now := rfl
  have due : (row.reopen now now expires).nextAttemptAt.textLe now =
      true := by
    rw [next]
    exact now.textLe_refl
  rw [outset_queued admitted rfl, version, expiresAt, if_pos left,
    refused_queued rfl due, expiresAt, if_pos left]
  cases row.authorityVersion with
  | none => rfl
  | some previous =>
    simp only
    by_cases same : previous = authorityVersion
    · rw [if_pos same, if_pos same]
      split
      · rfl
      · rfl
    · rw [if_neg same, if_neg same]

/--
A row which is due, and neither done, nor given up for good, nor leased, nor
waiting for another authority than that of the run.
-/
structure Adrift (row : OutageRow) (authorityVersion : String)
    (now : Instant) : Prop where
  notCompleted : row.status ≠ .completed
  notPermanent : row.status = .failed →
    row.lastFailureReason ≠ some "permanent_failure"
  notLeased : row.status = .claimed → row.recovering now = true
  due : row.nextAttemptAt.textLe now = true
  changed : row.status = .blocked →
    row.lastFailureReason = some "authority_change_required" →
    row.authorityVersion ≠ some authorityVersion

/-- A row has an attempt left, and its window is open at a time. -/
def InWindow (row : OutageRow) (now : Instant) : Prop :=
  row.expiresAt.textLe now = false ∧
    row.attemptsConsumed < row.retryBudget

/-- When one of two runs comes to the effect, by the status of the row. -/
def Recovers (row : OutageRow) (authorityVersion : String)
    (now later expires expiresLater : Instant) : Prop :=
  match row.status with
  | .queued =>
    (row.authorityVersion ≠ none ∧ row.InWindow now) ∨
      (row.authorityVersion = some authorityVersion ∧
        row.expiresAt.textLe now = true ∧
        expiresLater.textLe later = false)
  | .claimed =>
    row.authorityVersion = some authorityVersion ∧
      (row.attemptsConsumed < row.retryBudget ∨
        row.expiredRecovery now = true ∨ row.expiredRecovery later = true)
  | .blocked =>
    (row.lastFailureReason =
        some "completed_effect_requires_reconciliation" ∧
      row.authorityVersion = some authorityVersion) ∨
      (row.lastFailureReason = some "authority_change_required" ∧
        row.authorityVersion ≠ none ∧ row.InWindow now)
  | .failed =>
    row.autoReopens ≠ none ∧ row.authorityVersion ≠ none ∧
      (expires.textLe now = false ∨
        (row.authorityVersion = some authorityVersion ∧
          expiresLater.textLe later = false))
  | .completed => True

theorem not_comes_of_error {failure : String}
    (fails : row.outset authorityVersion now expires = .error failure) :
    ¬ row.Comes authorityVersion now later expires expiresLater := by
  rw [Comes, fails]
  rintro (impossible | ⟨_, impossible, _⟩)
  · cases impossible
  · cases impossible

theorem comes_of_none
    (granted : row.outset authorityVersion now expires = .ok none) :
    row.Comes authorityVersion now later expires expiresLater :=
  .inl granted

theorem comes_of_some {left : OutageRow}
    (rests : row.outset authorityVersion now expires = .ok (some left)) :
    row.Comes authorityVersion now later expires expiresLater ↔
      left.outset authorityVersion later expiresLater = .ok none := by
  rw [Comes, rests]
  constructor
  · rintro (impossible | ⟨_, same, comes⟩)
    · cases impossible
    · cases same
      exact comes
  · exact fun comes => .inr ⟨left, rfl, comes⟩

theorem comes_reactivate
    (reactivates : row.outset authorityVersion now expires = .ok
      (if row.attemptsConsumed < row.retryBudget then none
      else some (row.reactivate authorityVersion now))) :
    row.Comes authorityVersion now later expires expiresLater ↔
      row.attemptsConsumed < row.retryBudget := by
  by_cases left : row.attemptsConsumed < row.retryBudget
  · rw [if_pos left] at reactivates
    exact iff_of_true (comes_of_none reactivates) left
  · rw [if_neg left] at reactivates
    rw [comes_of_some reactivates]
    exact iff_of_false (@not_comes_spent
      (row.reactivate authorityVersion now) authorityVersion later
      expiresLater rfl rfl left) left

theorem comes_queued (sound : row.Sound) (queued : row.status = .queued)
    (due : row.nextAttemptAt.textLe now = true) :
    row.Comes authorityVersion now later expires expiresLater ↔
      row.Recovers authorityVersion now later expires expiresLater := by
  have outset := @outset_queued row authorityVersion now expires row
    (admitted_of_not_failed (by rw [queued]; decide)) queued
  rw [Recovers, queued]
  simp only [InWindow]
  cases authority : row.authorityVersion with
  | none =>
    rw [authority] at outset
    simp [not_comes_of_error outset]
  | some previous =>
    rw [authority] at outset
    simp only at outset
    by_cases same : previous = authorityVersion
    · rw [if_pos same, refused_queued queued due] at outset
      by_cases expired : row.expiresAt.textLe now = true
      · rw [if_pos expired] at outset
        have version : (row.expire now).authorityVersion =
          row.authorityVersion := rfl
        have second := @outset_reopened (row.expire now) authorityVersion
          later expiresLater .operationExpired rfl sound.budget
        rw [version, authority] at second
        simp only [if_pos same] at second
        rw [comes_of_some outset, second]
        cases expiresLater.textLe later with
        | true => simp [expired]
        | false => simp [expired, same]
      · rw [if_neg expired] at outset
        by_cases left : row.attemptsConsumed < row.retryBudget
        · rw [if_pos left] at outset
          simp [comes_of_none outset, expired, left]
        · rw [if_neg left] at outset
          have spent := @not_comes_spent row authorityVersion later
            expiresLater queued (authority.trans (congrArg some same)) left
          rw [comes_of_some outset]
          simp [spent, expired, left]
    · rw [if_neg same] at outset
      by_cases expired : row.expiresAt.textLe now = true
      · rw [if_pos expired] at outset
        simp [not_comes_of_error outset, expired, same]
      · rw [if_neg expired] at outset
        rw [comes_reactivate outset]
        simp [expired]

theorem outset_unsettled {previous : String} (notFailed : row.status ≠ .failed)
    (unsettled : row.unsettled)
    (authority : row.authorityVersion = some previous) :
    row.outset authorityVersion now expires =
      if previous = authorityVersion then .ok (row.refused now)
      else
        match row.notReactivated now with
        | some failure => .error failure
        | none => .ok ((row.reactivate authorityVersion now).refused now) := by
  have admitted := @admitted_of_not_failed row now expires notFailed
  by_cases same : previous = authorityVersion
  · rw [if_pos same]
    apply outset_of_adopted
    rw [admitted]
    exact adopted_same (authority.trans (congrArg some same))
  · rw [if_neg same]
    have adopted := @adopted_other row authorityVersion now previous unsettled
      authority same
    cases reactivated : row.notReactivated now with
    | some failure =>
      rw [reactivated, ← admitted] at adopted
      rw [admitted] at adopted
      apply outset_of_fails
      rw [admitted]
      exact adopted
    | none =>
      rw [reactivated] at adopted
      apply outset_of_adopted
      rw [admitted]
      exact adopted

theorem outset_missing (notFailed : row.status ≠ .failed)
    (unsettled : row.unsettled) (missing : row.authorityVersion = none) :
    row.outset authorityVersion now expires =
      .error "dependency_outage_authority_missing" := by
  apply outset_of_fails
  rw [admitted_of_not_failed notFailed]
  exact adopted_missing unsettled missing

theorem refused_claimed (claimed : row.status = .claimed) :
    row.refused now =
      if row.retryEligible now = true ∨ row.expiredRecovery now = true then
        none
      else some row := by
  have notQueued : ¬ (row.status = .queued ∧
      row.expiresAt.textLe now = true) := by
    rw [claimed]
    exact fun both => Status.noConfusion both.1
  rw [refused, if_neg notQueued]
  simp only [reconciling, claimed]
  cases row.retryEligible now with
  | true => simp
  | false =>
    cases row.expiredRecovery now with
    | true => simp
    | false => simp

theorem retryEligible_spent
    (spent : ¬ row.attemptsConsumed < row.retryBudget) :
    row.retryEligible now = false := by
  rw [retryEligible, decide_eq_false spent, Bool.and_false]

theorem retryEligible_or_expired (recovering : row.recovering now = true)
    (due : row.nextAttemptAt.textLe now = true)
    (left : row.attemptsConsumed < row.retryBudget) :
    row.retryEligible now = true ∨ row.expiredRecovery now = true := by
  rw [retryEligible, expiredRecovery, recovering, due, decide_eq_true left]
  cases row.expiresAt.textLe now with
  | true => exact .inr rfl
  | false => exact .inl (by simp)

theorem comes_claimed (claimed : row.status = .claimed)
    (recovering : row.recovering now = true)
    (due : row.nextAttemptAt.textLe now = true) :
    row.Comes authorityVersion now later expires expiresLater ↔
      row.Recovers authorityVersion now later expires expiresLater := by
  have notFailed : row.status ≠ .failed := by
    rw [claimed]
    decide
  rw [Recovers, claimed]
  simp only
  cases authority : row.authorityVersion with
  | none =>
    have outset := @outset_missing row authorityVersion now expires
      notFailed (.inr (.inl claimed)) authority
    simp [not_comes_of_error outset]
  | some previous =>
    have outset := fun instant window =>
      @outset_unsettled row authorityVersion instant window previous
        notFailed (.inr (.inl claimed)) authority
    by_cases same : previous = authorityVersion
    · have first := outset now expires
      have second := outset later expiresLater
      rw [if_pos same, refused_claimed claimed] at first second
      by_cases left : row.attemptsConsumed < row.retryBudget
      · rw [if_pos (retryEligible_or_expired recovering due left)] at first
        exact iff_of_true (comes_of_none first)
          ⟨congrArg some same, .inl left⟩
      · rw [retryEligible_spent left] at first second
        by_cases expired : row.expiredRecovery now = true
        · rw [if_pos (.inr expired)] at first
          exact iff_of_true (comes_of_none first)
            ⟨congrArg some same, .inr (.inl expired)⟩
        · rw [if_neg (by simp [expired])] at first
          rw [comes_of_some first, second]
          by_cases expiredLater : row.expiredRecovery later = true
          · simp [expiredLater, same]
          · simp [expiredLater, expired, left]
    · have first := outset now expires
      have mismatch : row.notReactivated now =
          some "dependency_outage_authority_mismatch" := by
        rw [notReactivated, if_pos claimed]
      rw [if_neg same, mismatch] at first
      simp [not_comes_of_error first, same]

theorem comes_failed (failed : row.status = .failed)
    (sound : row.Sound) :
    row.Comes authorityVersion now later expires expiresLater ↔
      row.Recovers authorityVersion now later expires expiresLater := by
  rw [Recovers, failed]
  cases reopens : row.autoReopens with
  | none =>
    have stays : ∀ instant window : Instant,
        row.outset authorityVersion instant window =
          .ok (some row) := by
      intro instant window
      have admitted : row.admitted instant window = row := by
        rw [OutageRow.admitted, reopens]
      have adopted : (row.admitted instant window).adopted
          authorityVersion instant = .ok row := by
        rw [admitted, OutageRow.adopted, if_neg]
        simp [unsettled, failed]
      rw [outset_of_adopted adopted, OutageRow.refused, if_neg, if_pos]
      · simp [retryEligible, reconciling, expiredRecovery, recovering,
          failed]
      · simp [failed]
    rw [Comes, stays]
    constructor
    · rintro (impossible | ⟨left, same, comes⟩)
      · cases impossible
      · cases same
        rw [stays] at comes
        cases comes
    · rintro ⟨impossible, _⟩
      exact absurd rfl impossible
  | some reason =>
    have expired : ((row.reopen now now expires).expire now).autoReopens =
      some .operationExpired := rfl
    have version : ((row.reopen now now
      expires).expire now).authorityVersion = row.authorityVersion := rfl
    rw [Comes, outset_reopened reopens sound.budget]
    cases authority : row.authorityVersion with
    | none => simp
    | some previous =>
      simp only
      by_cases closed : expires.textLe now = true
      · rw [if_pos closed]
        by_cases same : previous = authorityVersion
        · rw [if_pos same]
          have second := @outset_reopened
            ((row.reopen now now expires).expire now) authorityVersion
            later expiresLater .operationExpired expired sound.budget
          rw [version, authority] at second
          simp only [if_pos same] at second
          simp only [Except.ok.injEq, Option.some.injEq, reduceCtorEq,
            false_or, exists_eq_left', second, closed, same,
            Bool.true_eq_false, ne_eq, not_false_eq_true, true_and]
          cases expiresLater.textLe later with
          | true => simp
          | false => simp
        · simp [same, closed]
      · simp [closed]

theorem Sound.of_outset (sound : row.Sound)
    (identity : isIdentity authorityVersion = true)
    (notCompleted : row.status ≠ .completed) {left : OutageRow}
    (outset : row.outset authorityVersion now expires = .ok (some left)) :
    left.Sound ∧ left.status ≠ .completed := by
  have soundAdmitted := sound.admitted now expires
  have statusAdmitted : (row.admitted now expires).status ≠ .completed := by
    rw [OutageRow.admitted]
    split
    · exact Status.noConfusion
    · exact notCompleted
  rw [OutageRow.outset, Fallible.bind_eq_ok] at outset
  rcases outset with ⟨next, adopted, refused⟩
  have isLeft := Fallible.pure_eq_ok.mp refused
  have kept : next.Sound ∧ next.status ≠ .completed := by
    rw [OutageRow.adopted] at adopted
    split at adopted
    · split at adopted
      · cases adopted
      · split at adopted
        · cases adopted
          exact ⟨soundAdmitted, statusAdmitted⟩
        · split at adopted
          · cases adopted
          · cases adopted
            refine ⟨⟨soundAdmitted.budget, ?_⟩, Status.noConfusion⟩
            intro version same
            cases same
            exact identity
    · cases adopted
      exact ⟨soundAdmitted, statusAdmitted⟩
  rw [OutageRow.refused] at isLeft
  split at isLeft
  · cases isLeft
    exact ⟨⟨kept.1.budget, kept.1.identity⟩, Status.noConfusion⟩
  · split at isLeft
    · cases isLeft
      exact kept
    · cases isLeft

theorem refused_blocked (blocked : row.status = .blocked) :
    row.refused now =
      if row.lastFailureReason =
          some "completed_effect_requires_reconciliation" then none
      else some row := by
  have notQueued : ¬ (row.status = .queued ∧
      row.expiresAt.textLe now = true) := by
    rw [blocked]
    exact fun both => Status.noConfusion both.1
  rw [refused, if_neg notQueued]
  by_cases reconciles : row.lastFailureReason =
    some "completed_effect_requires_reconciliation"
  · simp [retryEligible, reconciling, expiredRecovery, recovering, blocked,
      reconciles]
  · simp [retryEligible, reconciling, expiredRecovery, recovering, blocked,
      reconciles]

theorem notReactivated_blocked (blocked : row.status = .blocked) :
    row.notReactivated now =
      if row.expiresAt.textLe now = true then
        some "dependency_outage_expired"
      else if row.lastFailureReason = some "authority_change_required" then
        none
      else some "dependency_outage_reconciliation_required" := by
  rw [notReactivated, if_neg (by rw [blocked]; decide)]
  split
  · rfl
  · simp only [blocked, true_and, ne_eq, ite_not]

theorem comes_blocked (blocked : row.status = .blocked)
    (changed : row.lastFailureReason = some "authority_change_required" →
      row.authorityVersion ≠ some authorityVersion) :
    row.Comes authorityVersion now later expires expiresLater ↔
      row.Recovers authorityVersion now later expires expiresLater := by
  have notFailed : row.status ≠ .failed := by
    rw [blocked]
    decide
  have unsettled : row.unsettled := .inr (.inr blocked)
  have reasons : (some "completed_effect_requires_reconciliation" :
      Option String) ≠ some "authority_change_required" := by
    decide
  rw [Recovers, blocked]
  simp only [InWindow]
  cases authority : row.authorityVersion with
  | none =>
    have outset := @outset_missing row authorityVersion now expires
      notFailed unsettled authority
    simp [not_comes_of_error outset]
  | some previous =>
    have outset := fun instant window =>
      @outset_unsettled row authorityVersion instant window previous
        notFailed unsettled authority
    have first := outset now expires
    by_cases same : previous = authorityVersion
    · have second := outset later expiresLater
      rw [if_pos same, refused_blocked blocked] at first second
      by_cases reconciles : row.lastFailureReason =
        some "completed_effect_requires_reconciliation"
      · rw [if_pos reconciles] at first
        exact iff_of_true (comes_of_none first)
          (.inl ⟨reconciles, congrArg some same⟩)
      · rw [if_neg reconciles] at first second
        rw [comes_of_some first, second]
        refine iff_of_false (fun same => by cases same) ?_
        rintro (⟨impossible, _⟩ | ⟨waits, _⟩)
        · exact reconciles impossible
        · exact changed waits (authority.trans (congrArg some same))
    · rw [if_neg same, notReactivated_blocked blocked] at first
      by_cases expired : row.expiresAt.textLe now = true
      · rw [if_pos expired] at first
        simp [not_comes_of_error first, expired, same]
      · rw [if_neg expired] at first
        by_cases waits : row.lastFailureReason =
          some "authority_change_required"
        · rw [if_pos waits] at first
          simp only [refused_reactivate expired] at first
          rw [comes_reactivate first, waits]
          simp [expired]
        · rw [if_neg waits] at first
          simp [not_comes_of_error first, waits, same]

theorem comes_iff_recovers (sound : row.Sound)
    (adrift : row.Adrift authorityVersion now) :
    row.Comes authorityVersion now later expires expiresLater ↔
      row.Recovers authorityVersion now later expires expiresLater := by
  cases status : row.status with
  | queued => exact comes_queued sound status adrift.due
  | claimed =>
    exact comes_claimed status (adrift.notLeased status) adrift.due
  | blocked => exact comes_blocked status (adrift.changed status)
  | failed => exact comes_failed status sound
  | completed => exact absurd status adrift.notCompleted

end OutageRow

/-- The delivery is enqueued under an authority which has changed since. -/
def redelivery : AdoptiveOperation where
  scope := delivery
  workerId := "second"
  retryBudget := 3
  expiresAt := "2026-04-01T00:00:00.000Z"
  leaseMs := 60000
  authorityVersion := "v2"

/-- A run whose effect returns at once. -/
def World.quick (now : Instant) : World where
  now := now
  meanwhile := id
  executed := .returned delivery.operationDigest
  afterwards := now
  later := now
  classify := fun _ _ => none

/-- 2026-01-02, in the window of the delivery. -/
def inTime : Instant := ⟨1767312000000, by decide⟩

/-- 2026-03-01, after the window of the delivery. -/
def tooLate : Instant := ⟨1772323200000, by decide⟩

/-- 2026-04-01, the end of a new window. -/
def newWindow : Instant := ⟨1775001600000, by decide⟩

theorem callAt_redelivery {now : Instant} (early : now.ms < newWindow.ms)
    (ends : (Instant.ofMs? (now.ms + 60000)).isSome = true) :
    CallAt redelivery now newWindow where
  scope := by decide
  worker := by decide
  budget := by decide
  lease := by decide
  ends := ends
  authority := by decide
  parsed := by decide
  later := early

/-- The row of the enqueued delivery. -/
def Enqueued (row : OutageRow) (now : Instant) (expired : Bool) : Prop :=
  row.scope.operationDigest = delivery.operationDigest ∧
    row.status = .queued ∧ row.authorityVersion = some "v1" ∧
    row.nextAttemptAt.textLe now = true ∧
    row.expiresAt.textLe now = expired ∧
    row.attemptsConsumed < row.retryBudget

instance (row : OutageRow) (now : Instant) (expired : Bool) :
    Decidable (Enqueued row now expired) :=
  inferInstanceAs (Decidable (_ ∧ _))

theorem Enqueued.adrift {row : OutageRow} {now : Instant} {expired : Bool}
    (enqueued : Enqueued row now expired) : row.Adrift "v2" now := by
  rcases enqueued with ⟨_, queued, _, due, _⟩
  refine ⟨?_, ?_, ?_, due, ?_⟩
  · rw [queued]
    decide
  · rw [queued]
    exact Status.noConfusion
  · rw [queued]
    exact Status.noConfusion
  · rw [queued]
    exact Status.noConfusion

end Operations

end Mendpoint.Outage
