import Mendpoint.Jobs.Guard

/-!
# What the job queue promises

Rows go forward, a claim takes a job which nobody holds, the calls of a holder
reach only the job of the latest claim, and claims respect the capacity of a
tenant.
-/

namespace Mendpoint.Jobs

open Mendpoint.Library
open Mendpoint.Library.Fallible
open Mendpoint.Library.IsoTime (Instant PlainYear)
open Mendpoint.Library.Lease
open Mendpoint.Library.Run

variable {ρ : Type}

/-! ## Rows which follow rows -/

/-- A row follows another, whose job is done only if an act may revive it. -/
structure Follows (revived : Prop) (row next : JobRow) : Prop where
  id : next.id = row.id
  generation : row.leaseGeneration ≤ next.leaseGeneration
  done : row.status = .done → next = row ∨ revived

/-- Every row is followed by a row. -/
def Moves (revived : JobRow → Prop) (before after : List JobRow) : Prop :=
  ∀ row ∈ before, ∃ next ∈ after, Follows (revived row) row next

/-- Every row is followed by a row, and no tenant has more running jobs. -/
structure Quiet (revived : JobRow → Prop) (before after : List JobRow) :
    Prop where
  moves : Moves revived before after
  running : ∀ tenantId, runningOf after tenantId ≤ runningOf before tenantId

/-- What a change keeps of every row. -/
structure Forward (change : JobRow → JobRow) : Prop where
  id : ∀ row, (change row).id = row.id
  tenantId : ∀ row, (change row).tenantId = row.tenantId
  generation : ∀ row, row.leaseGeneration ≤ (change row).leaseGeneration

theorem moves_update {revived : JobRow → Prop} {rows : List JobRow}
    {selected : JobRow → Bool} {change : JobRow → JobRow}
    (forward : Forward change)
    (done : ∀ row ∈ rows, selected row = true → row.status = .done →
      revived row) :
    Moves revived rows (Table.update selected change rows) := by
  intro row member
  by_cases chosen : selected row = true
  · exact ⟨change row, Table.mem_update.mpr (.inl ⟨row, member, chosen, rfl⟩),
      forward.id row, forward.generation row,
      fun spent => .inr (done row member chosen spent)⟩
  · exact ⟨row, Table.mem_update.mpr
        (.inr ⟨member, eq_false_of_ne_true chosen⟩),
      rfl, Nat.le_refl _, fun _ => .inl rfl⟩

theorem quiet_refl (revived : JobRow → Prop) (rows : List JobRow) :
    Quiet revived rows rows where
  moves row member := ⟨row, member, rfl, Nat.le_refl _, fun _ => .inl rfl⟩
  running _ := Nat.le_refl _

theorem quiet_update {revived : JobRow → Prop} {rows : List JobRow}
    {selected : JobRow → Bool} {change : JobRow → JobRow}
    (forward : Forward change)
    (done : ∀ row ∈ rows, selected row = true → row.status = .done →
      revived row)
    (idle : ∀ row, selected row = true → (change row).status = .running →
      row.status = .running) :
    Quiet revived rows (Table.update selected change rows) where
  moves := moves_update forward done
  running tenantId := by
    rw [runningOf, runningOf, Table.update, List.countP_map]
    refine List.countP_mono_left fun row _ counted => ?_
    have facts := of_decide_eq_true (show decide _ = true from counted)
    refine decide_eq_true ?_
    dsimp only at facts
    split at facts
    · next chosen =>
        rw [forward.tenantId] at facts
        exact ⟨facts.1, idle row chosen facts.2⟩
    · exact facts

theorem quiet_append {revived : JobRow → Prop} {rows : List JobRow}
    {row : JobRow} (idle : row.status ≠ .running) :
    Quiet revived rows (rows ++ [row]) where
  moves old member := ⟨old, List.mem_append_left _ member, rfl,
    Nat.le_refl _, fun _ => .inl rfl⟩
  running tenantId := by
    rw [runningOf, runningOf, List.countP_append, List.countP_singleton,
      if_neg fun counted => idle (of_decide_eq_true counted).2]
    exact Nat.le_refl _

theorem Moves.trans {revived : JobRow → Prop}
    {first second third : List JobRow} (before : Moves revived first second)
    (after : Moves (fun _ => False) second third) :
    Moves revived first third := by
  intro row member
  rcases before row member with ⟨next, within, follows⟩
  rcases after next within with ⟨last, inside, followsNext⟩
  refine ⟨last, inside, followsNext.id.trans follows.id,
    follows.generation.trans followsNext.generation, fun done => ?_⟩
  rcases follows.done done with rfl | revives
  · exact .inl ((followsNext.done done).resolve_right id)
  · exact .inr revives

/-! ## Calls of a holder -/

/-- What the change of a holder selects, and what it keeps. -/
structure HolderChange (act : Act ρ) (id : String) (claim : Claim)
    (selected : JobRow → Bool) (change : JobRow → JobRow) : Prop where
  named : ∀ row, selected row = true → row.id = id
  running : ∀ row, selected row = true → row.status = .running
  owner : ∀ row, selected row = true → row.leaseOwner = some claim.owner
  generation : ∀ row, selected row = true →
    row.leaseGeneration = claim.generation ∨
      ∃ number runAt, act = .reschedule id number runAt
  forward : Forward change

theorem holderChange_fenced {act : Act ρ} {id now : String} {claim : Claim}
    {change : JobRow → JobRow} (forward : Forward change) :
    HolderChange act id claim (fenced (fenceOf claim) now id) change where
  named _ chosen := (fenced_eq_true chosen).1
  running _ chosen := (fenced_eq_true chosen).2.1
  owner _ chosen := (fenced_eq_true chosen).2.2.1
  generation _ chosen := .inl (fenced_eq_true chosen).2.2.2
  forward := forward

theorem changed_db (state : QueueState ρ) (id : String) (claim : Claim)
    (revise : Claim → Claim) (answer : Changed ρ) :
    (state.changed id claim revise answer).db = answer.db := by
  rw [QueueState.changed]
  split
  · rfl
  · rfl

theorem update_none (rows : List JobRow) :
    Table.update (fun _ => false) (fun row => row) rows = rows := by
  rw [Table.update]
  exact List.map_id rows

theorem holderStep_jobs {act : Act ρ} {id : String} {generation : Nat}
    (holds : act.holder = some (id, generation)) (state : QueueState ρ)
    (claim : Claim) :
    ∃ selected change,
      (holderStep state claim act).db.jobs =
          Table.update selected change state.db.jobs ∧
        HolderChange act id claim selected change := by
  have nothing : ∀ next : QueueState ρ, next.db.jobs = state.db.jobs →
      ∃ selected change,
        next.db.jobs = Table.update selected change state.db.jobs ∧
          HolderChange act id claim selected change := by
    intro next same
    refine ⟨fun _ => false, fun row => row,
      same.trans (update_none _).symm, ?_⟩
    exact {
      named := fun _ never => Bool.noConfusion never
      running := fun _ never => Bool.noConfusion never
      owner := fun _ never => Bool.noConfusion never
      generation := fun _ never => Bool.noConfusion never
      forward := ⟨fun _ => rfl, fun _ => rfl, fun _ => Nat.le_refl _⟩ }
  have plain : ∀ change : JobRow → JobRow,
      (∀ row, (change row).id = row.id) →
      (∀ row, (change row).tenantId = row.tenantId) →
      (∀ row, (change row).leaseGeneration = row.leaseGeneration) →
      Forward change :=
    fun change kept tenant same =>
      ⟨kept, tenant, fun row => Nat.le_of_eq (same row).symm⟩
  cases act with
  | renew job number now leaseMs =>
    cases holds
    rw [holderStep]
    split
    · next expiry answer timed answered =>
        rw [renewJobLease, timed] at answered
        cases answered
        rw [changed_db]
        exact ⟨_, _, rfl, holderChange_fenced
          (plain _ (fun _ => rfl) (fun _ => rfl) fun _ => rfl)⟩
    · exact nothing _ rfl
  | complete job number now resultJson =>
    cases holds
    rw [holderStep, changed_db]
    exact ⟨_, _, rfl, holderChange_fenced
      (plain _ (fun _ => rfl) (fun _ => rfl) fun _ => rfl)⟩
  | fail job number now error options =>
    cases holds
    rw [holderStep]
    split
    · next result after answered =>
        rcases failJob_eq_ok answered with
          ⟨_, rfl⟩ | ⟨retry, availableAt, same⟩
        · exact nothing _ (congrArg JobDb.jobs (changed_db _ _ _ _ _))
        · rw [same, changed_db]
          exact ⟨_, _, rfl, holderChange_fenced
            (plain _ (fun _ => rfl) (fun _ => rfl) fun _ => rfl)⟩
    · exact nothing _ rfl
  | reschedule job number runAt =>
    cases holds
    rw [holderStep, changed_db]
    refine ⟨_, _, rfl, ?_⟩
    exact {
      named := fun _ chosen => (of_decide_eq_true chosen).1
      running := fun _ chosen => (of_decide_eq_true chosen).2.1
      owner := fun _ chosen => (of_decide_eq_true chosen).2.2
      generation := fun _ _ => .inr ⟨generation, runAt, rfl⟩
      forward := plain _ (fun _ => rfl) (fun _ => rfl) fun _ => rfl }
  | enqueue | enqueueOrReset | claim | recover | retry | cancel
  | elsewhere => cases holds

theorem quiet_holderStep {revived : JobRow → Prop} {act : Act ρ}
    {id : String} {generation : Nat}
    (holds : act.holder = some (id, generation)) (state : QueueState ρ)
    (claim : Claim) :
    Quiet revived state.db.jobs (holderStep state claim act).db.jobs := by
  rcases holderStep_jobs holds state claim with
    ⟨selected, change, same, facts⟩
  rw [same]
  refine quiet_update facts.forward ?_ fun row chosen _ =>
    facts.running row chosen
  intro row _ chosen done
  rw [facts.running row chosen] at done
  cases done

/-! ## Other calls -/

/-- An act gives a job another input. -/
def Act.Revives (act : Act ρ) (row : JobRow) : Prop :=
  ∃ input, act = .enqueueOrReset input ∧ input.id = row.id

theorem quiet_enqueueJob {revived : JobRow → Prop} {input : EnqueueInput}
    {before after : JobDb ρ} (enqueued : enqueueJob input before = .ok after) :
    Quiet revived before.jobs after.jobs := by
  rw [enqueueJob, bind_eq_ok] at enqueued
  rcases enqueued with ⟨_, _, enqueued⟩
  split at enqueued
  · cases enqueued
    exact quiet_append fun running => by cases running
  · cases enqueued

theorem quiet_enqueueOrResetJob {input : EnqueueInput}
    {before after : JobDb ρ} {outcome : EnqueueOutcome}
    (answered : enqueueOrResetJob input before = .ok (outcome, after)) :
    Quiet (Act.Revives (.enqueueOrReset input : Act ρ)) before.jobs
      after.jobs := by
  rw [enqueueOrResetJob, bind_eq_ok] at answered
  rcases answered with ⟨_, _, answered⟩
  split at answered
  · rw [bind_eq_ok] at answered
    rcases answered with ⟨enqueued, inserted, answered⟩
    cases answered
    exact quiet_enqueueJob inserted
  · rw [bind_eq_ok] at answered
    rcases answered with ⟨_, _, answered⟩
    split at answered
    · cases answered
      exact quiet_refl _ _
    · cases answered
      refine quiet_update
        ⟨fun _ => rfl, fun _ => rfl, fun _ => Nat.le_succ _⟩ ?_
        fun _ _ running => by cases running
      intro row _ chosen _
      exact ⟨input, rfl, (of_decide_eq_true chosen).1.symm⟩

theorem quiet_update_idle {revived : JobRow → Prop} {rows : List JobRow}
    {selected : JobRow → Bool} {change : JobRow → JobRow}
    (kept : ∀ row, (change row).id = row.id)
    (tenant : ∀ row, (change row).tenantId = row.tenantId)
    (same : ∀ row, (change row).leaseGeneration = row.leaseGeneration)
    (undone : ∀ row, selected row = true → row.status ≠ .done)
    (idle : ∀ row, (change row).status ≠ .running) :
    Quiet revived rows (Table.update selected change rows) :=
  quiet_update ⟨kept, tenant, fun row => Nat.le_of_eq (same row).symm⟩
    (fun row _ chosen done => absurd done (undone row chosen))
    fun row _ running => absurd running (idle row)

section Settled

variable {settle : List JobRow → ρ → String → Option String →
  Except String ρ}

theorem quiet_recoverExpiredJobs {revived : JobRow → Prop} {now : Instant}
    {tenantId : Option String} {db : JobDb ρ} {answer : Nat × JobDb ρ}
    (recovered : recoverExpiredJobs settle now tenantId db = .ok answer) :
    Quiet revived db.jobs answer.2.jobs := by
  rcases recoverExpiredJobs_jobs recovered with ⟨tables, updated⟩
  rw [updated]
  refine quiet_update_idle (fun _ => rfl) (fun _ => rfl) (fun _ => rfl) ?_ ?_
  · intro row chosen done
    have ended := (Bool.and_eq_true_iff.mp chosen).1
    rw [leaseEnded, Bool.and_eq_true_iff, decide_eq_true_iff, done] at ended
    cases ended.1
  · intro row running
    rcases recoverRow_status tables now.text row with status | status
    · rw [status] at running
      cases running
    · rw [status] at running
      cases running

theorem quiet_callDb {act : Act ρ} {before after : JobDb ρ}
    (called : callDb settle before act = .ok after) :
    Quiet act.Revives before.jobs after.jobs := by
  cases act with
  | enqueue input => exact quiet_enqueueJob called
  | enqueueOrReset input =>
    rw [callDb, bind_eq_ok] at called
    rcases called with ⟨answer, answered, same⟩
    cases same
    exact quiet_enqueueOrResetJob answered
  | recover now tenantId =>
    rw [callDb, bind_eq_ok] at called
    rcases called with ⟨answer, answered, same⟩
    cases same
    exact quiet_recoverExpiredJobs answered
  | retry id options =>
    rw [callDb, bind_eq_ok] at called
    rcases called with ⟨answer, answered, same⟩
    rw [retryJob, bind_eq_ok] at answered
    rcases answered with ⟨_, _, same'⟩
    cases same'
    cases same
    refine quiet_update_idle (fun _ => rfl) (fun _ => rfl) (fun _ => rfl)
      ?_ fun _ running => by cases running
    intro row chosen done
    have spent := (of_decide_eq_true
      (Bool.and_eq_true_iff.mp chosen).1).2
    rw [done] at spent
    exact absurd spent (by decide)
  | cancel id cancelledAt options =>
    rw [callDb, bind_eq_ok] at called
    rcases called with ⟨answer, answered, same⟩
    rw [cancelJob, bind_eq_ok] at answered
    rcases answered with ⟨_, _, same'⟩
    cases same'
    cases same
    refine quiet_update_idle (fun _ => rfl) (fun _ => rfl) (fun _ => rfl)
      ?_ fun _ running => by cases running
    intro row chosen done
    have spent := (of_decide_eq_true
      (Bool.and_eq_true_iff.mp chosen).1).2
    rw [done] at spent
    exact absurd spent (by decide)
  | elsewhere | claim | renew | complete | fail | reschedule =>
    cases called
    exact quiet_refl _ _

/-! ## Claims -/

theorem forward_claimRow (options : ClaimOptions) (expiry : Instant) :
    Forward (claimRow options expiry) :=
  ⟨fun _ => rfl, fun _ => rfl, fun _ => Nat.le_succ _⟩

theorem moves_claimNextJob {revived : JobRow → Prop}
    {options : ClaimOptions} {before after : JobDb ρ} {job : Option JobRow}
    (answered : claimNextJob settle options before = .ok (job, after)) :
    Moves revived before.jobs after.jobs := by
  cases job with
  | none =>
    rcases claimNextJob_eq_none answered with rfl | ⟨_, recovering, rfl⟩
    · exact (quiet_refl _ _).moves
    · exact (quiet_recoverExpiredJobs recovering).moves
  | some job =>
    rcases claimNextJob_eq_some answered with
      ⟨expiry, recovered, row, _, recovering, member, able, rfl, rfl⟩
    refine (quiet_recoverExpiredJobs recovering).moves.trans
      (moves_update (forward_claimRow options expiry) ?_)
    intro other _ chosen done
    rw [(of_decide_eq_true chosen).2] at done
    cases done

theorem runningOf_claimNextJob {options : ClaimOptions} {bound : Nat}
    (positive : 0 < bound)
    (bounded : options.maxRunningPerTenant = some (bound : ℚ))
    {before after : JobDb ρ} {job : Option JobRow}
    (answered : claimNextJob settle options before = .ok (job, after))
    {tenantId : String} (below : runningOf before.jobs tenantId ≤ bound) :
    runningOf after.jobs tenantId ≤ bound := by
  have recoveredBelow : ∀ recovered : Nat × JobDb ρ,
      recoverExpiredJobs settle options.now options.tenantId before =
        .ok recovered →
      runningOf recovered.2.jobs tenantId ≤ bound := by
    intro recovered recovering
    have quiet : Quiet (fun _ => False) before.jobs recovered.2.jobs :=
      quiet_recoverExpiredJobs recovering
    exact (quiet.running tenantId).trans below
  cases job with
  | none =>
    rcases claimNextJob_eq_none answered with
      rfl | ⟨recovered, recovering, rfl⟩
    · exact below
    · exact recoveredBelow recovered recovering
  | some job =>
    rcases claimNextJob_eq_some answered with
      ⟨expiry, recovered, row, _, recovering, member, able, rfl, rfl⟩
    have pending := claimable_pending able
    have before := recoveredBelow recovered recovering
    have capacity := able
    simp only [claimable, Bool.and_eq_true_iff] at capacity
    have room := capacity.2
    rw [bounded, withinCapacity] at room
    have fewer : runningOf recovered.2.jobs row.tenantId < bound := by
      rcases of_decide_eq_true room with zero | fewer
      · exact absurd (Nat.cast_eq_zero.mp zero) (Nat.ne_of_gt positive)
      · exact Nat.cast_lt.mp fewer
    have byId : ∀ other : JobRow,
        decide (other.id = row.id ∧ other.status = .pending) = true →
          other.id = row.id :=
      fun other chosen => (of_decide_eq_true chosen).1
    have counted := Table.countP_update recovered.2.jobKeys byId member
      (decide_eq_true ⟨rfl, pending⟩) (claimRow options expiry)
      fun other => decide (other.tenantId = tenantId ∧
        other.status = .running)
    show List.countP _ (Table.update _ _ _) ≤ bound
    by_cases here : row.tenantId = tenantId
    · have one : (decide ((claimRow options expiry row).tenantId = tenantId
          ∧ (claimRow options expiry row).status = .running)).toNat = 1 :=
        congrArg Bool.toNat (decide_eq_true ⟨here, rfl⟩)
      rw [one] at counted
      rw [here] at fewer
      rw [runningOf] at fewer
      omega
    · have zero : (decide ((claimRow options expiry row).tenantId =
          tenantId ∧ (claimRow options expiry row).status =
            .running)).toNat = 0 :=
        congrArg Bool.toNat (decide_eq_false fun both => here both.1)
      rw [zero] at counted
      rw [runningOf] at before
      omega

/-! ## Acts -/

/-- What the jobs of a state and the claims of them are at every act. -/
structure Safe (settle : List JobRow → ρ → String → Option String →
    Except String ρ) (state : QueueState ρ) (act : Act ρ) : Prop where
  /-- Every row stays, its generation does not decrease, and a done job
  changes by `enqueueOrResetJob` alone. -/
  moves : Moves act.Revives state.db.jobs (act.step settle state).db.jobs
  /-- A claim takes a larger generation than the row and every claim had,
  and no holder of another claim may still act. -/
  larger : ∀ options job db, act = .claim options →
    claimNextJob settle options state.db = .ok (some job, db) →
    (∀ row ∈ state.db.jobs, row.id = job.id →
      row.leaseGeneration < job.leaseGeneration) ∧
    ∀ claim ∈ state.claims job.id,
      claim.generation < job.leaseGeneration ∧
        ¬ claim.Alive options.now.ms
  /-- The holder of a claim changes the row of its job only while the claim
  is the latest one. -/
  latest : ∀ id generation, act.holder = some (id, generation) →
    ∀ row ∈ state.db.jobs, row.id = id →
      row ∉ (act.step settle state).db.jobs →
      row.leaseGeneration = generation ∧
        ∀ claim ∈ state.claims id, claim.generation ≤ generation

theorem moves_step (state : QueueState ρ) (act : Act ρ) :
    Moves act.Revives state.db.jobs (act.step settle state).db.jobs := by
  rw [← (act.tick_db state).1, Act.step]
  rcases Act.act_cases (act.tick state) act with
    same | ⟨id, generation, claim, holds, _, same⟩ |
    ⟨options, rfl, same⟩ | ⟨db, called, same⟩
  · rw [same]
    exact (quiet_refl _ _).moves
  · rw [same]
    exact (quiet_holderStep holds _ claim).moves
  · rw [same, claimStep]
    split
    · next answered => exact moves_claimNextJob answered
    · next answered => exact moves_claimNextJob answered
    · exact (quiet_refl _ _).moves
  · rw [same]
    exact (quiet_callDb called).moves

theorem Guarded.larger {state : QueueState ρ} (guarded : Guarded state)
    {options : ClaimOptions} (later : state.clock ≤ options.now.ms)
    (plain : PlainYear options.now.ms) {job : JobRow} {db : JobDb ρ}
    (answered : claimNextJob settle options state.db = .ok (some job, db)) :
    (∀ row ∈ state.db.jobs, row.id = job.id →
      row.leaseGeneration < job.leaseGeneration) ∧
    ∀ claim ∈ state.claims job.id,
      claim.generation < job.leaseGeneration ∧
        ¬ claim.Alive options.now.ms := by
  rcases claimNextJob_eq_some answered with
    ⟨expiry, recovered, row, _, recovering, member, able, rfl, _⟩
  have recoveredGuarded : Guarded { state with
      clock := options.now.ms
      db := recovered.2 } :=
    (guarded.wait later).recoverExpiredJobs recovering rfl plain
  constructor
  · intro old inside same
    have moved : Moves (fun _ => False) state.db.jobs recovered.2.jobs :=
      (quiet_recoverExpiredJobs recovering).moves
    rcases moved old inside with ⟨next, within, follows⟩
    cases Table.eq_of_key recovered.2.jobKeys within member
      (follows.id.trans same)
    exact Nat.lt_succ_of_le follows.generation
  · intro claim made
    rcases recoveredGuarded.rows row member with ⟨tenure, tells, fenced⟩
    have free := tells.held_eq_none fun running => by
      rw [claimable_pending able] at running
      cases running
    refine ⟨Nat.lt_succ_of_le ?_, fenced.not_alive free made⟩
    rw [tells.generation]
    exact fenced.bounded claim made

theorem Guarded.latest {state : QueueState ρ} (guarded : Guarded state)
    {act : Act ρ} (current : act.Current state) {id : String}
    {generation : Nat} (holds : act.holder = some (id, generation))
    {row : JobRow} (member : row ∈ state.db.jobs) (named : row.id = id)
    (gone : row ∉ (act.step settle state).db.jobs) :
    row.leaseGeneration = generation ∧
      ∀ claim ∈ state.claims id, claim.generation ≤ generation := by
  have ticked := act.tick_db state
  have here : row.leaseGeneration = generation := by
    rw [Act.step] at gone
    rcases Act.act_cases (act.tick state) act with
      same | ⟨_, _, claim, also, found, same⟩ | ⟨options, rfl, _⟩ |
      ⟨db, called, same⟩
    · rw [same, ticked.1] at gone
      exact absurd member gone
    · cases holds.symm.trans also
      rcases holderStep_jobs holds (act.tick state) claim with
        ⟨selected, change, jobs, facts⟩
      rw [same, jobs, ticked.1] at gone
      have chosen : selected row = true := by
        by_contra unchosen
        exact gone (Table.mem_update.mpr
          (.inr ⟨member, eq_false_of_ne_true unchosen⟩))
      rw [ticked.2] at found
      rcases facts.generation row chosen with same' | ⟨_, runAt, rfl⟩
      · exact same'.trans (grantOf_eq_some found).2
      · cases holds
        exact current claim found row member named
          (facts.running row chosen) (facts.owner row chosen)
    · cases holds
    · have unchanged : db = (act.tick state).db := by
        cases act with
        | renew | complete | fail | reschedule =>
          cases called
          rfl
        | enqueue | enqueueOrReset | claim | recover | retry | cancel
        | elsewhere => cases holds
      rw [same, unchanged, ticked.1] at gone
      exact absurd member gone
  refine ⟨here, fun claim made => ?_⟩
  rcases guarded.rows row member with ⟨tenure, tells, fenced⟩
  rw [named] at fenced
  rw [← here, tells.generation]
  exact fenced.bounded claim made

theorem Guarded.safe {state : QueueState ρ} (guarded : Guarded state)
    {act : Act ρ} (admissible : act.Admissible state) :
    Safe settle state act where
  moves := moves_step state act
  larger := by
    rintro options job db rfl answered
    exact guarded.larger (admissible.later options.now rfl)
      admissible.plain.1 answered
  latest _ _ holds _ member named gone :=
    guarded.latest admissible.current holds member named gone

theorem runningOf_step {bound : Nat} (positive : 0 < bound)
    {state : QueueState ρ} {act : Act ρ}
    (bounded : ∀ options, act = .claim options →
      options.maxRunningPerTenant = some (bound : ℚ))
    {tenantId : String}
    (below : runningOf state.db.jobs tenantId ≤ bound) :
    runningOf (act.step settle state).db.jobs tenantId ≤ bound := by
  rw [← (act.tick_db state).1] at below
  have quietly : ∀ after, Quiet act.Revives (act.tick state).db.jobs after →
      runningOf after tenantId ≤ bound :=
    fun after quiet => (quiet.running tenantId).trans below
  rw [Act.step]
  rcases Act.act_cases (act.tick state) act with
    same | ⟨id, generation, claim, holds, _, same⟩ |
    ⟨options, rfl, same⟩ | ⟨db, called, same⟩
  · rw [same]
    exact below
  · rw [same]
    exact quietly _ (quiet_holderStep holds _ claim)
  · rw [same, claimStep]
    split
    · next answered =>
        exact runningOf_claimNextJob positive (bounded options rfl) answered
          below
    · next answered =>
        exact runningOf_claimNextJob positive (bounded options rfl) answered
          below
    · exact below
  · rw [same]
    exact quietly _ (quiet_callDb called)

/-! ## Runs -/

/--
From an empty queue every act is safe, as long as no holder of an earlier
claim puts off a job which runs under a later claim of its worker, and claims
with one positive bound keep the running jobs of every tenant to it.
-/
theorem queue_keeps_fenced (settle : List JobRow → ρ → String →
      Option String → Except String ρ)
    (surroundings : Surroundings ρ) (clock : Int) (acts : List (Act ρ))
    (admissible : Along (fun state act => act.step settle state)
      (fun state act => act.Admissible state)
      (QueueState.empty surroundings clock) acts) :
    Along (fun state act => act.step settle state) (Safe settle)
        (QueueState.empty surroundings clock) acts ∧
      ∀ bound : Nat, 0 < bound →
        (∀ options, Act.claim options ∈ acts →
          options.maxRunningPerTenant = some (bound : ℚ)) →
        Along (fun state act => act.step settle state)
          (fun state act => ∀ tenantId,
            runningOf (act.step settle state).db.jobs tenantId ≤ bound)
          (QueueState.empty surroundings clock) acts := by
  constructor
  · exact along_of_invariant
      (fun state act (guarded : Guarded state) allowed =>
        guarded.step allowed)
      (fun state act guarded allowed => guarded.safe allowed)
      (guarded_empty surroundings clock) admissible
  · intro bound positive bounded
    have along : Along (fun state act => act.step settle state)
        (fun _ act => ∀ options, act = .claim options →
          options.maxRunningPerTenant = some (bound : ℚ))
        (QueueState.empty surroundings clock) acts :=
      along_of_forall_mem (by
        rintro _ member options rfl
        exact bounded options member) _
    have preserved : ∀ (state : QueueState ρ) (act : Act ρ),
        (∀ tenantId, runningOf state.db.jobs tenantId ≤ bound) →
        (∀ options, act = .claim options →
          options.maxRunningPerTenant = some (bound : ℚ)) →
        ∀ tenantId,
          runningOf (act.step settle state).db.jobs tenantId ≤ bound :=
      fun state act below allowed tenantId =>
        runningOf_step positive allowed (below tenantId)
    exact along_of_invariant preserved preserved
      (fun tenantId => Nat.zero_le _) along

end Settled

/-! ## Sample runs -/

/-- No model reservation has to be settled. -/
def settledNone (_ : List JobRow) (accounts : Unit) (_ : String)
    (_ : Option String) : Except String Unit :=
  .ok accounts

def sampleQueue : QueueState Unit :=
  QueueState.empty
    { adaptiveDeliveries := []
      candidateDeliveries := []
      modelReservations := () }
    0

def sampleInput : EnqueueInput where
  id := "job"
  tenantId := "tenant"
  type := "scan"
  payloadJson := "\x7b\x7d"
  maxAttempts := none
  createdAt := "1970-01-01T00:00:00.000Z"
  availableAt := none

/-- Some seconds after the first instant of 1970. -/
def sampleTime (seconds : Fin 1000) : Instant where
  ms := seconds.val * 1000
  inRange := by
    have below := seconds.isLt
    omega

def sampleClaim (workerId : String) (now : Instant) : ClaimOptions where
  types := []
  tenantId := none
  workerId := workerId
  leaseMs := none
  now := now
  maxRunningPerTenant := some 1

/-- A worker claims a job and completes it. -/
def sampleActs : List (Act Unit) :=
  [.enqueue sampleInput, .claim (sampleClaim "worker" (sampleTime 0)),
    .complete "job" 1 (sampleTime 30) "\x7b\x7d"]

theorem sampleClaim_expiry :
    (sampleClaim "worker" (sampleTime 0)).expiry = .ok (sampleTime 60) := by
  decide +kernel

theorem sample_keeps_fenced :
    Along (fun state act => act.step settledNone state) (Safe settledNone)
        sampleQueue sampleActs ∧
      ∀ bound : Nat, 0 < bound →
        (∀ options, Act.claim options ∈ sampleActs →
          options.maxRunningPerTenant = some (bound : ℚ)) →
        Along (fun state act => act.step settledNone state)
          (fun state act => ∀ tenantId,
            runningOf (act.step settledNone state).db.jobs tenantId ≤ bound)
          sampleQueue sampleActs := by
  refine queue_keeps_fenced settledNone _ 0 sampleActs
    ⟨⟨?_, trivial, trivial⟩, ⟨?_, ⟨by decide, ?_⟩, trivial⟩,
      ⟨?_, show PlainYear (sampleTime 30).ms by decide, trivial⟩, trivial⟩
  · intro now timed
    cases timed
  · intro now timed
    cases timed
    decide +kernel
  · intro expiry ends
    cases sampleClaim_expiry.symm.trans ends
    decide
  · intro now timed
    cases timed
    decide +kernel

/--
A worker whose lease has ended claims its job again, and what it began under
the first claim puts off the second one.
-/
def staleActs : List (Act Unit) :=
  [.enqueue sampleInput, .claim (sampleClaim "worker" (sampleTime 0)),
    .claim (sampleClaim "worker" (sampleTime 70)),
    .reschedule "job" 1 "1970-01-01T00:00:00.000Z"]

theorem earlier_claim_puts_off :
    ¬ ∀ acts : List (Act Unit),
      Along (fun state act => act.step settledNone state)
          (fun state act => ∀ now ∈ act.time, state.clock ≤ now.ms)
          sampleQueue acts →
        Along (fun state act => act.step settledNone state)
          (Safe settledNone) sampleQueue acts := by
  intro claimed
  have timely : Along (fun state act => act.step settledNone state)
      (fun state act => ∀ now ∈ act.time, state.clock ≤ now.ms)
      sampleQueue staleActs := by
    refine ⟨?_, ?_, ?_, ?_, trivial⟩
    · intro now timed
      cases timed
    · intro now timed
      cases timed
      decide +kernel
    · intro now timed
      cases timed
      decide +kernel
    · intro now timed
      cases timed
  have safe := (claimed staleActs timely).2.2.2.1
  have changed : ∃ row ∈ (run (fun state act => act.step settledNone state)
        sampleQueue (staleActs.take 3)).db.jobs,
      row.id = "job" ∧ row.leaseGeneration ≠ 1 ∧
        row ∉ (run (fun state act => act.step settledNone state)
          sampleQueue staleActs).db.jobs := by
    decide +kernel
  rcases changed with ⟨row, member, named, generation, gone⟩
  exact generation (safe.latest "job" 1 rfl row member named gone).1

end Mendpoint.Jobs
