import Mendpoint.Jobs.History

/-!
# Jobs are fenced

Every act keeps every job fenced by the claims of it, as long as no holder of
an earlier claim puts off a job which runs under a later claim of its worker.
-/

namespace Mendpoint.Jobs

open Mendpoint.Library
open Mendpoint.Library.Fallible
open Mendpoint.Library.IsoTime (Instant PlainYear)
open Mendpoint.Library.Lease

variable {ρ : Type}

/-! ## Rows -/

section Rows

variable {row : JobRow} {tenure : Tenure String Int}

theorem Tells.held_eq_none (tells : Tells row tenure)
    (idle : row.status ≠ .running) : tenure.held = none := by
  cases held : tenure.held with
  | none => rfl
  | some pair => exact absurd (tells.held pair.1 pair.2 held).1 idle

theorem Tells.exists_held (tells : Tells row tenure)
    (running : row.status = .running) :
    ∃ owner ends, tenure.held = some (owner, ends) := by
  cases held : tenure.held with
  | none => exact absurd running (tells.free held)
  | some pair => exact ⟨pair.1, pair.2, rfl⟩

theorem tells_free (idle : row.status ≠ .running) :
    Tells row { generation := row.leaseGeneration, held := none } where
  generation := rfl
  free _ := idle
  held := by
    intro owner ends held
    cases held

end Rows

/-! ## Changes of rows -/

theorem changeOne_cases {db : JobDb ρ} {selected : JobRow → Bool}
    {change : JobRow → JobRow} {kept : ∀ row, (change row).id = row.id}
    {id : String} (byId : ∀ row, selected row = true → row.id = id) :
    ((changeOne db selected change kept).applied = false ∧
        (changeOne db selected change kept).db.jobs = db.jobs) ∨
      ∃ row ∈ db.jobs, row.id = id ∧ selected row = true ∧
        (changeOne db selected change kept).applied = true ∧
        ∀ other, other ∈ (changeOne db selected change kept).db.jobs ↔
          other = change row ∨ (other ∈ db.jobs ∧ other.id ≠ id) := by
  by_cases found : ∃ row ∈ db.jobs, selected row = true
  · rcases found with ⟨row, member, chosen⟩
    have named := byId row chosen
    have only : ∀ other ∈ db.jobs, selected other = true ↔ other = row :=
      fun other within => Table.selected_iff db.jobKeys
        (fun one also => (byId one also).trans named.symm) member chosen
        within
    refine .inr ⟨row, member, named, chosen, ?_, fun other => ?_⟩
    · exact decide_eq_true (Table.changes_eq_one db.jobKeys
        (fun one also => (byId one also).trans named.symm) member chosen)
    · show other ∈ Table.update selected change db.jobs ↔ _
      rw [Table.mem_update]
      constructor
      · rintro (⟨old, inside, also, same⟩ | ⟨inside, unchosen⟩)
        · rw [(only old inside).mp also] at same
          exact .inl same.symm
        · refine .inr ⟨inside, fun same => ?_⟩
          rw [Table.eq_of_key db.jobKeys inside member
            (same.trans named.symm), chosen] at unchosen
          cases unchosen
      · rintro (rfl | ⟨inside, different⟩)
        · exact .inl ⟨row, member, chosen, rfl⟩
        · refine .inr ⟨inside, eq_false_of_ne_true fun also => ?_⟩
          exact different (byId other also)
  · have none : ∀ row ∈ db.jobs, ¬ selected row = true :=
      fun row member chosen => found ⟨row, member, chosen⟩
    refine .inl ⟨?_, ?_⟩
    · have zero : Table.changes selected db.jobs = 0 :=
        List.countP_eq_zero.mpr none
      exact decide_eq_false (by rw [zero]; exact Nat.zero_ne_one)
    · show Table.update selected change db.jobs = db.jobs
      rw [Table.update, List.map_congr_left fun row member =>
        if_neg (none row member), List.map_id']

theorem Guarded.replace {state next : QueueState ρ} (guarded : Guarded state)
    (later : state.clock ≤ next.clock)
    (rows : ∀ row ∈ next.db.jobs,
      (row ∈ state.db.jobs ∧ next.claims row.id = state.claims row.id) ∨
        ∃ tenure, Tells row tenure ∧
          Fenced tenure (next.claims row.id) next.clock)
    (others : ∀ id, (∀ row ∈ next.db.jobs, row.id ≠ id) →
      (∀ row ∈ state.db.jobs, row.id ≠ id) ∧
        next.claims id = state.claims id) : Guarded next where
  rows row member := by
    rcases rows row member with ⟨inside, same⟩ | fenced
    · rcases guarded.rows row inside with ⟨tenure, tells, fenced⟩
      exact ⟨tenure, tells, same ▸ fenced.wait later⟩
    · exact fenced
  others id absent := by
    rcases others id absent with ⟨before, same⟩
    rw [same]
    exact guarded.others id before

theorem Guarded.wait {state : QueueState ρ} (guarded : Guarded state)
    {now : Int} (later : state.clock ≤ now) :
    Guarded { state with clock := now } :=
  guarded.replace later (fun _ member => .inl ⟨member, rfl⟩)
    fun _ absent => ⟨absent, rfl⟩

theorem Guarded.changeOne {state : QueueState ρ} (guarded : Guarded state)
    {selected : JobRow → Bool} {change : JobRow → JobRow}
    {kept : ∀ row, (change row).id = row.id} {id : String}
    (byId : ∀ row, selected row = true → row.id = id) (claim : Claim)
    (revise : Claim → Claim)
    (fencedAnew : ∀ row ∈ state.db.jobs, row.id = id → selected row = true →
      ∀ tenure, Tells row tenure →
        Fenced tenure (state.claims id) state.clock →
        ∃ tenure, Tells (change row) tenure ∧
          Fenced tenure (amend claim.generation revise (state.claims id))
            state.clock) :
    Guarded (state.changed id claim revise
      (changeOne state.db selected change kept)) := by
  rcases @changeOne_cases _ state.db selected change kept id byId with
    ⟨unapplied, same⟩ | ⟨row, member, named, chosen, applied, rows⟩
  · rw [QueueState.changed, if_neg (by rw [unapplied]; decide)]
    refine guarded.replace (Int.le_refl _) ?_ ?_
    · intro row inside
      exact .inl ⟨same ▸ inside, rfl⟩
    · intro other absent
      exact ⟨fun row inside => absent row (same ▸ inside), rfl⟩
  · rw [QueueState.changed, if_pos applied]
    have claims : ∀ other, other ≠ id →
        Function.update state.claims id
          (amend claim.generation revise (state.claims id)) other =
          state.claims other := fun other different =>
      Function.update_of_ne different _ _
    refine guarded.replace (Int.le_refl _) ?_ ?_
    · intro other inside
      rcases (rows other).mp inside with rfl | ⟨old, different⟩
      · have here : (change row).id = id := (kept row).trans named
        rcases guarded.rows row member with ⟨tenure, tells, fenced⟩
        rw [named] at fenced
        rcases fencedAnew row member named chosen tenure tells fenced with
          ⟨next, tellsNext, fencedNext⟩
        refine .inr ⟨next, tellsNext, ?_⟩
        show Fenced next (Function.update state.claims id _ (change row).id) _
        rw [here, Function.update_self]
        exact fencedNext
      · exact .inl ⟨old, claims other.id different⟩
    · intro other absent
      have different : other ≠ id := by
        intro same
        refine absent (change row) ((rows _).mpr (.inl rfl)) ?_
        rw [kept, named, same]
      refine ⟨fun old inside same => ?_, claims other different⟩
      exact absent old ((rows old).mpr (.inr ⟨inside, same ▸ different⟩)) same

/-! ## Calls of a holder -/

theorem fenced_eq_true {fence : JobLeaseFence} {now id : String}
    {row : JobRow} (chosen : fenced fence now id row = true) :
    row.id = id ∧ row.status = .running ∧
      row.leaseOwner = some fence.workerId ∧
      row.leaseGeneration = fence.leaseGeneration :=
  of_decide_eq_true (Bool.and_eq_true_iff.mp chosen).1

section Holder

variable {row : JobRow} {tenure : Tenure String Int} {claims : List Claim}
  {clock : Int} {claim : Claim}

theorem fenced_released (tells : Tells row tenure)
    (fenced : Fenced tenure claims clock)
    (current : row.leaseGeneration = claim.generation) {next : JobRow}
    (idle : next.status ≠ .running)
    (same : next.leaseGeneration = row.leaseGeneration) :
    ∃ tenure, Tells next tenure ∧
      Fenced tenure (amend claim.generation released claims) clock := by
  refine ⟨_, tells_free idle, ?_⟩
  rw [same, ← current, tells.generation]
  exact fenced.release

theorem fenced_extended (tells : Tells row tenure)
    (fenced : Fenced tenure claims clock)
    (current : row.leaseGeneration = claim.generation)
    (running : row.status = .running) {expiry : Instant}
    (plain : PlainYear expiry.ms) :
    ∃ tenure,
      Tells { row with leaseExpiresAt := some expiry.text } tenure ∧
        Fenced tenure (amend claim.generation (extended expiry) claims)
          clock := by
  rcases tells.exists_held running with ⟨owner, ends, held⟩
  refine ⟨{ generation := tenure.generation
            held := some (owner, expiry.ms) }, ?_, ?_⟩
  · refine ⟨tells.generation, fun free => absurd free (Option.some_ne_none _), ?_⟩
    intro other otherEnds same
    cases same
    exact ⟨running, (tells.held owner ends held).2.1, expiry, rfl, plain,
      rfl⟩
  · rw [← current, tells.generation]
    exact fenced.renew held expiry.ms

end Holder

/-- No holder of an earlier claim puts off a job under a later one. -/
def Act.Current (state : QueueState ρ) : Act ρ → Prop
  | .reschedule id generation _ =>
    ∀ claim, grantOf (state.claims id) generation = some claim →
      ∀ row ∈ state.db.jobs, row.id = id → row.status = .running →
        row.leaseOwner = some claim.owner →
        row.leaseGeneration = generation
  | _ => True

/-- The times of an act are of years of four digits. -/
def Act.Plain : Act ρ → Prop
  | .claim options => PlainYear options.now.ms ∧
      ∀ expiry, options.expiry = .ok expiry → PlainYear expiry.ms
  | .recover now _ => PlainYear now.ms
  | .renew _ _ now leaseMs => PlainYear now.ms ∧
      ∀ expiry, renewedExpiry now leaseMs = .ok expiry → PlainYear expiry.ms
  | .complete _ _ now _ => PlainYear now.ms
  | .fail _ _ now _ _ => PlainYear now.ms
  | _ => True

variable {db : JobDb ρ} {state : QueueState ρ}

theorem failJob_eq_ok {id error : String} {now : Instant}
    {options : JobFailureOptions} {after : JobDb ρ}
    {result : JobFailureResult} {fence : JobLeaseFence}
    (answered : failJob id error now (options.under fence) db = .ok (result,
      after)) :
    (result.applied = false ∧ after = db) ∨
      ∃ retry availableAt,
        { applied := result.applied, db := after : Changed ρ } =
          changeOne db (fenced fence now.text id)
            (failRow retry error
              (normalizeJobErrorCode options.errorCode) now.text
              availableAt) fun _ => rfl := by
  rw [failJob, bind_eq_ok] at answered
  rcases answered with ⟨given, same, answered⟩
  cases same
  split at answered
  · cases answered
    exact .inl ⟨rfl, rfl⟩
  · dsimp only at answered
    rw [bind_eq_ok] at answered
    rcases answered with ⟨availableAt, _, answered⟩
    cases answered
    exact .inr ⟨_, availableAt, rfl⟩

theorem Guarded.unchanged (guarded : Guarded state) (id : String)
    (claim : Claim) (revise : Claim → Claim) :
    Guarded (state.changed id claim revise
      { applied := false, db := state.db }) :=
  guarded

theorem grantOf_eq_some {claims : List Claim} {generation : Nat}
    {claim : Claim} (found : grantOf claims generation = some claim) :
    claim ∈ claims ∧ claim.generation = generation :=
  ⟨List.mem_of_find?_eq_some found,
    of_decide_eq_true (List.find?_some found :)⟩

theorem Guarded.holderStep {state : QueueState ρ} (guarded : Guarded state)
    {act : Act ρ} {id : String} {generation : Nat}
    (holds : act.holder = some (id, generation)) {claim : Claim}
    (found : grantOf (state.claims id) generation = some claim)
    (current : act.Current state) (plain : act.Plain) :
    Guarded (holderStep state claim act) := by
  have named := (grantOf_eq_some found).2
  cases act with
  | renew job number now leaseMs =>
    cases holds
    rw [Jobs.holderStep]
    split
    · next expiry answer timed answered =>
        rw [renewJobLease, timed] at answered
        cases answered
        refine guarded.changeOne
          (fun row chosen => (fenced_eq_true chosen).1) claim _ ?_
        intro row _ _ chosen tenure tells fencedRow
        have facts := fenced_eq_true chosen
        exact fenced_extended tells fencedRow facts.2.2.2 facts.2.1
          (plain.2 expiry timed)
    · exact guarded
  | complete job number now resultJson =>
    cases holds
    refine guarded.changeOne
      (fun row chosen => (fenced_eq_true chosen).1) claim _ ?_
    intro row _ _ chosen tenure tells fencedRow
    exact fenced_released tells fencedRow (fenced_eq_true chosen).2.2.2
      (fun running => by cases running) rfl
  | fail job number now error options =>
    cases holds
    rw [Jobs.holderStep]
    split
    · next result after answered =>
        rcases failJob_eq_ok answered with
          ⟨unapplied, rfl⟩ | ⟨retry, availableAt, same⟩
        · rw [unapplied]
          exact guarded.unchanged _ _ _
        · rw [same]
          refine guarded.changeOne
            (fun row chosen => (fenced_eq_true chosen).1) claim _ ?_
          intro row _ _ chosen tenure tells fencedRow
          refine fenced_released tells fencedRow
            (fenced_eq_true chosen).2.2.2 ?_ rfl
          cases retry with
          | true => exact fun running => by cases running
          | false => exact fun running => by cases running
    · exact guarded
  | reschedule job number runAt =>
    cases holds
    refine guarded.changeOne
      (fun row chosen => (of_decide_eq_true chosen).1) claim _ ?_
    intro row member here chosen tenure tells fencedRow
    have facts := of_decide_eq_true chosen
    refine fenced_released tells fencedRow ?_
      (fun running => by cases running) rfl
    rw [named]
    exact current claim found row member here facts.2.1 facts.2.2
  | enqueue | enqueueOrReset | claim | recover | retry | cancel
  | elsewhere => cases holds

/-! ## Other calls -/

theorem Guarded.updateJobs (guarded : Guarded state)
    {selected : JobRow → Bool} {change : JobRow → JobRow}
    (updated : db.jobs = Table.update selected change state.db.jobs)
    (kept : ∀ row, (change row).id = row.id)
    (anew : ∀ row ∈ state.db.jobs, selected row = true → ∀ tenure, Tells row
      tenure → Fenced tenure (state.claims row.id) state.clock → ∃ tenure,
      Tells (change row) tenure ∧ Fenced tenure (state.claims row.id)
      state.clock) : Guarded { state with db := db } := by
  refine guarded.replace (Int.le_refl _) ?_ ?_
  · intro row member
    rw [show ({ state with db := db } : QueueState ρ).db.jobs = _ from
      updated, Table.mem_update] at member
    rcases member with ⟨old, inside, chosen, rfl⟩ | ⟨inside, _⟩
    · rcases guarded.rows old inside with ⟨tenure, tells, fencedRow⟩
      rw [kept]
      exact .inr (anew old inside chosen tenure tells fencedRow)
    · exact .inl ⟨inside, rfl⟩
  · intro id absent
    refine ⟨fun row inside same => ?_, rfl⟩
    have also : (if selected row then change row else row) ∈
        Table.update selected change state.db.jobs :=
      List.mem_map_of_mem inside
    rw [← updated] at also
    refine absent _ also ?_
    split
    · rw [kept, same]
    · exact same

theorem Guarded.updateIdle (guarded : Guarded state)
    {selected : JobRow → Bool} {change : JobRow → JobRow}
    (updated : db.jobs = Table.update selected change state.db.jobs)
    (kept : ∀ row, (change row).id = row.id)
    (idle : ∀ row, selected row = true → row.status ≠ .running)
    (idleNext : ∀ row, (change row).status ≠ .running)
    (same : ∀ row, (change row).leaseGeneration = row.leaseGeneration) :
    Guarded { state with db := db } := by
  refine guarded.updateJobs updated kept ?_
  intro row _ chosen tenure tells fencedRow
  have free := tells.held_eq_none (idle row chosen)
  refine ⟨tenure, ⟨(same row).trans tells.generation,
    fun _ => idleNext row, ?_⟩, fencedRow⟩
  intro owner ends held
  rw [free] at held
  cases held

theorem Guarded.enqueueJob (guarded : Guarded state) {input : EnqueueInput}
    (enqueued : enqueueJob input state.db = .ok db) :
    Guarded { state with db := db } := by
  rw [Jobs.enqueueJob, bind_eq_ok] at enqueued
  rcases enqueued with ⟨_, _, enqueued⟩
  split at enqueued
  · next fresh =>
      cases enqueued
      refine guarded.replace (Int.le_refl _) ?_ ?_
      · intro row member
        rcases List.mem_append.mp member with inside | new
        · exact .inl ⟨inside, rfl⟩
        · cases List.mem_singleton.mp new
          refine .inr ⟨_, tells_free (fun running => by cases running), ?_⟩
          rw [show ({ state with db := _ } : QueueState ρ).claims
            input.row.id = [] from guarded.others input.id fresh]
          exact Fenced.fresh 0 state.clock
      · exact fun id absent =>
          ⟨fun row inside => absent row (List.mem_append_left _ inside), rfl⟩
  · cases enqueued

theorem Guarded.enqueueOrResetJob (guarded : Guarded state)
    {input : EnqueueInput} {outcome : EnqueueOutcome}
    (answered : enqueueOrResetJob input state.db = .ok (outcome, db)) :
    Guarded { state with db := db } := by
  rw [Jobs.enqueueOrResetJob, bind_eq_ok] at answered
  rcases answered with ⟨_, _, answered⟩
  split at answered
  · rw [bind_eq_ok] at answered
    rcases answered with ⟨enqueued, inserted, answered⟩
    cases answered
    exact guarded.enqueueJob inserted
  · next existing found =>
      rw [bind_eq_ok] at answered
      rcases answered with ⟨_, _, answered⟩
      split at answered
      · cases answered
        exact guarded
      · next spent =>
          cases answered
          refine guarded.updateJobs rfl (fun _ => rfl) ?_
          intro row member chosen tenure tells fencedRow
          have named := (of_decide_eq_true chosen).1
          have here : existing.id = input.id :=
            of_decide_eq_true (List.find?_some found :)
          have one : existing = row :=
            Table.eq_of_key state.db.jobKeys
              (List.mem_of_find?_eq_some found) member
              (here.trans named.symm)
          subst one
          have free := tells.held_eq_none fun running =>
            spent (.inr running)
          refine ⟨_, tells_free (fun running => by cases running), ?_⟩
          show Fenced { generation := existing.leaseGeneration + 1
                        held := none } _ _
          rw [tells.generation]
          exact fencedRow.reset free

/-! ## Recovery and claims -/

section Settled

variable {settle : List JobRow → ρ → String → Option String →
  Except String ρ}

variable {now : Instant} {options : ClaimOptions} {job : JobRow}

theorem recoverExpiredJobs_jobs {tenantId : Option String}
    {answer : Nat × JobDb ρ}
    (recovered : recoverExpiredJobs settle now tenantId db = .ok answer) :
    ∃ tables : Surroundings ρ,
      answer.2.jobs = Table.update
        (fun row => leaseEnded now.text row && ofTenant tenantId row)
        (recoverRow tables now.text) db.jobs := by
  rw [recoverExpiredJobs, bind_eq_ok] at recovered
  rcases recovered with ⟨_, _, recovered⟩
  rw [bind_eq_ok] at recovered
  rcases recovered with ⟨settled, _, recovered⟩
  cases recovered
  exact ⟨_, rfl⟩

theorem recoverRow_status (tables : Surroundings ρ) (now : String)
    (row : JobRow) :
    (recoverRow tables now row).status = .pending ∨
      (recoverRow tables now row).status = .deadLetter := by
  rw [recoverRow]
  dsimp only
  cases shouldRetry tables row with
  | true => exact .inl rfl
  | false => exact .inr rfl

theorem ended_of_leaseEnded {row : JobRow} {tenure : Tenure String Int}
    (tells : Tells row tenure) (plain : PlainYear now.ms)
    (past : leaseEnded now.text row = true) :
    ∃ owner ends, tenure.held = some (owner, ends) ∧ ends ≤ now.ms := by
  rw [leaseEnded, Bool.and_eq_true_iff, decide_eq_true_iff] at past
  rcases tells.exists_held past.1 with ⟨owner, ends, held⟩
  rcases (tells.held owner ends held).2.2 with
    ⟨expiry, rfl, plainEnd, text⟩
  have compared := past.2
  rw [text] at compared
  exact ⟨owner, expiry.ms, held, (textLe_iff plainEnd plain).mp compared⟩

theorem Guarded.recoverExpiredJobs (guarded : Guarded state)
    {tenantId : Option String} {answer : Nat × JobDb ρ}
    (recovered : recoverExpiredJobs settle now tenantId state.db = .ok
      answer) (time : now.ms = state.clock) (plain : PlainYear now.ms) :
    Guarded { state with db := answer.2 } := by
  rcases recoverExpiredJobs_jobs recovered with ⟨tables, updated⟩
  refine guarded.updateJobs updated (fun _ => rfl) ?_
  intro row _ chosen tenure tells fencedRow
  rcases ended_of_leaseEnded tells plain
    (Bool.and_eq_true_iff.mp chosen).1 with ⟨owner, ends, held, ended⟩
  have idle : (recoverRow tables now.text row).status ≠ .running := by
    rcases recoverRow_status tables now.text row with status | status
    · rw [status]
      decide
    · rw [status]
      decide
  refine ⟨_, tells_free idle, ?_⟩
  show Fenced { generation := row.leaseGeneration, held := none } _ _
  rw [tells.generation]
  exact fencedRow.expire held (time ▸ ended)

theorem nextJob_eq_some {jobs : List JobRow}
    (next : nextJob options jobs = some job) :
    job ∈ jobs ∧ claimable options jobs job = true := by
  have member := List.mem_of_mem_head? next
  rw [(List.perm_insertionSort _ _).mem_iff, List.mem_filter] at member
  exact member

theorem claimable_pending {jobs : List JobRow}
    (able : claimable options jobs job = true) : job.status = .pending := by
  simp only [claimable, Bool.and_eq_true_iff, decide_eq_true_iff] at able
  exact able.1.1.1.1.1.1

theorem claimNextJob_eq_some {after : JobDb ρ}
    (answered : claimNextJob settle options db = .ok (some job, after)) :
    ∃ expiry recovered row,
      options.expiry = .ok expiry ∧
      recoverExpiredJobs settle options.now options.tenantId db =
        .ok recovered ∧
      row ∈ recovered.2.jobs ∧
      claimable options recovered.2.jobs row = true ∧
      job = claimRow options expiry row ∧
      after = recovered.2.updateJobs
        (fun other => decide (other.id = row.id ∧ other.status = .pending))
        (claimRow options expiry) (fun _ => rfl) := by
  rw [claimNextJob, bind_eq_ok] at answered
  rcases answered with ⟨_, _, answered⟩
  rw [bind_eq_ok] at answered
  rcases answered with ⟨expiry, timed, answered⟩
  rw [bind_eq_ok] at answered
  rcases answered with ⟨recovered, recovering, answered⟩
  split at answered
  · cases answered
  · next row next =>
      rcases nextJob_eq_some next with ⟨member, able⟩
      have pending := claimable_pending able
      dsimp only at answered
      split at answered
      · have chosen : decide (row.id = row.id ∧ row.status = .pending) =
            true := decide_eq_true ⟨rfl, pending⟩
        have byId : ∀ other : JobRow,
            decide (other.id = row.id ∧ other.status = .pending) = true →
              other.id = row.id :=
          fun other also => (of_decide_eq_true also).1
        have found : (changeOne recovered.2
            (fun other => decide (other.id = row.id ∧
              other.status = .pending))
            (claimRow options expiry) fun _ => rfl).db.job? row.id =
            some (claimRow options expiry row) := by
          rw [JobDb.job?, Table.find?_eq_some_iff]
          · refine ⟨Table.mem_update.mpr
              (.inl ⟨row, member, chosen, rfl⟩), decide_eq_true rfl⟩
          · intro one inside other within also alsoOther
            exact Table.eq_of_key (changeOne recovered.2 _ _ _).db.jobKeys
              inside within ((of_decide_eq_true also).trans
                (of_decide_eq_true alsoOther).symm)
        rw [found] at answered
        cases answered
        exact ⟨expiry, recovered, row, timed, recovering, member, able, rfl,
          rfl⟩
      · cases answered

theorem claimNextJob_eq_none {after : JobDb ρ}
    (answered : claimNextJob settle options db = .ok (none, after)) :
    after = db ∨ ∃ recovered,
      recoverExpiredJobs settle options.now options.tenantId db =
        .ok recovered ∧ after = recovered.2 := by
  rw [claimNextJob, bind_eq_ok] at answered
  rcases answered with ⟨_, _, answered⟩
  rw [bind_eq_ok] at answered
  rcases answered with ⟨expiry, _, answered⟩
  rw [bind_eq_ok] at answered
  rcases answered with ⟨recovered, recovering, answered⟩
  split at answered
  · cases answered
    exact .inr ⟨recovered, recovering, rfl⟩
  · dsimp only at answered
    split at answered
    · next row next applied =>
        have missing : (changeOne recovered.2
            (fun other => decide (other.id = row.id ∧
              other.status = .pending))
            (claimRow options expiry) fun _ => rfl).db.job? row.id =
            none := congrArg Prod.fst (Except.ok.inj answered)
        rcases nextJob_eq_some next with ⟨member, able⟩
        have also := List.find?_eq_none.mp missing
          (claimRow options expiry row) (Table.mem_update.mpr (.inl
            ⟨row, member, decide_eq_true ⟨rfl, claimable_pending able⟩,
              rfl⟩))
        exact absurd (decide_eq_true rfl) also
    · cases answered
      exact .inl rfl

theorem Guarded.claimed (guarded : Guarded state) {expiry : Instant}
    {row : JobRow} (member : row ∈ state.db.jobs)
    (pending : row.status = .pending) (plain : PlainYear expiry.ms) :
    Guarded (QueueState.claimed
      { state with
        db := state.db.updateJobs
          (fun other =>
            decide (other.id = row.id ∧ other.status = .pending))
          (claimRow options expiry) (fun _ => rfl) }
      (claimRow options expiry row) options.workerId expiry) := by
  have only : ∀ other ∈ state.db.jobs, other.id = row.id → other = row :=
    fun other inside same =>
      Table.eq_of_key state.db.jobKeys inside member same
  refine guarded.replace (Int.le_refl _) ?_ ?_
  · intro other inside
    rcases Table.mem_update.mp inside with
      ⟨old, within, chosen, rfl⟩ | ⟨within, unchosen⟩
    · cases only old within (of_decide_eq_true chosen).1
      rcases guarded.rows row member with ⟨tenure, tells, fenced⟩
      have free := tells.held_eq_none fun running => by
        rw [pending] at running
        cases running
      refine .inr ⟨{ generation := tenure.generation + 1
                     held := some (options.workerId, expiry.ms) },
        ⟨?_, fun none => absurd none (Option.some_ne_none _), ?_⟩, ?_⟩
      · exact congrArg Nat.succ tells.generation
      · intro owner ends held
        cases held
        exact ⟨rfl, rfl, expiry, rfl, plain, rfl⟩
      · show Fenced _ (Function.update state.claims row.id _ row.id) _
        rw [Function.update_self]
        have acquired := fenced.acquire free options.workerId expiry.ms
        rw [← tells.generation] at acquired ⊢
        exact acquired
    · refine .inl ⟨within, Function.update_of_ne (fun same => ?_) _ _⟩
      rw [only other within same] at unchosen
      exact absurd (decide_eq_true ⟨rfl, pending⟩) (ne_true_of_eq_false
        unchosen)
  · intro id absent
    have present : ∀ old ∈ state.db.jobs, ∃ next ∈ Table.update
        (fun other => decide (other.id = row.id ∧ other.status = .pending))
        (claimRow options expiry) state.db.jobs, next.id = old.id := by
      intro old inside
      refine ⟨_, List.mem_map_of_mem inside, ?_⟩
      split
      · rfl
      · rfl
    refine ⟨fun old inside same => ?_, Function.update_of_ne ?_ _ _⟩
    · rcases present old inside with ⟨next, within, kept⟩
      exact absent next within (kept.trans same)
    · rintro rfl
      rcases present row member with ⟨next, within, kept⟩
      exact absent next within kept

theorem Guarded.claimStep {state : QueueState ρ} (guarded : Guarded state)
    {options : ClaimOptions} (time : options.now.ms = state.clock)
    (plain : PlainYear options.now.ms)
    (plainEnd : ∀ expiry, options.expiry = .ok expiry →
      PlainYear expiry.ms) :
    Guarded (claimStep settle state options) := by
  rw [Jobs.claimStep]
  split
  · next expiry job db timed answered =>
      rcases claimNextJob_eq_some answered with
        ⟨same, recovered, row, also, recovering, member, able, rfl, rfl⟩
      cases timed.symm.trans also
      exact (guarded.recoverExpiredJobs recovering time plain).claimed member
        (claimable_pending able) (plainEnd expiry timed)
  · next db answered =>
      rcases claimNextJob_eq_none answered with rfl | ⟨recovered, done, rfl⟩
      · exact guarded
      · exact guarded.recoverExpiredJobs done time plain
  · exact guarded

/-! ## Steps and runs -/

theorem Guarded.callDb (guarded : Guarded state) {act : Act ρ}
    (called : callDb settle state.db act = .ok db)
    (time : ∀ now ∈ act.time, now.ms = state.clock) (plain : act.Plain) :
    Guarded { state with db := db } := by
  cases act with
  | enqueue input => exact guarded.enqueueJob called
  | enqueueOrReset input =>
    rw [Jobs.callDb, bind_eq_ok] at called
    rcases called with ⟨answer, answered, same⟩
    cases same
    exact guarded.enqueueOrResetJob answered
  | recover now tenantId =>
    rw [Jobs.callDb, bind_eq_ok] at called
    rcases called with ⟨answer, answered, same⟩
    cases same
    exact guarded.recoverExpiredJobs answered (time now rfl) plain
  | retry id options =>
    rw [Jobs.callDb, bind_eq_ok] at called
    rcases called with ⟨answer, answered, same⟩
    rw [retryJob, bind_eq_ok] at answered
    rcases answered with ⟨_, _, same'⟩
    cases same'
    cases same
    refine guarded.updateIdle rfl (fun _ => rfl) ?_
      (fun _ running => by cases running) fun _ => rfl
    intro row chosen running
    have spent := (of_decide_eq_true
      (Bool.and_eq_true_iff.mp chosen).1).2
    rw [running] at spent
    exact absurd spent (by decide)
  | cancel id cancelledAt options =>
    rw [Jobs.callDb, bind_eq_ok] at called
    rcases called with ⟨answer, answered, same⟩
    rw [cancelJob, bind_eq_ok] at answered
    rcases answered with ⟨_, _, same'⟩
    cases same'
    cases same
    refine guarded.updateIdle rfl (fun _ => rfl) ?_
      (fun _ running => by cases running) fun _ => rfl
    intro row chosen running
    have spent := (of_decide_eq_true
      (Bool.and_eq_true_iff.mp chosen).1).2
    rw [running] at spent
    exact absurd spent (by decide)
  | elsewhere surroundings =>
    cases called
    exact guarded.replace (Int.le_refl _)
      (fun _ member => .inl ⟨member, rfl⟩) fun _ absent => ⟨absent, rfl⟩
  | claim | renew | complete | fail | reschedule =>
    cases called
    exact guarded

/--
The time does not run back and is plain, and no holder of an earlier claim
puts off a job which runs under a later one.
-/
structure Act.Admissible (state : QueueState ρ) (act : Act ρ) : Prop where
  later : ∀ now ∈ act.time, state.clock ≤ now.ms
  plain : act.Plain
  current : act.Current state

theorem Act.tick_db (state : QueueState ρ) (act : Act ρ) :
    (act.tick state).db = state.db ∧
      (act.tick state).claims = state.claims := by
  rw [Act.tick]
  split
  · exact ⟨rfl, rfl⟩
  · exact ⟨rfl, rfl⟩

theorem Guarded.tick (guarded : Guarded state) {act : Act ρ}
    (later : ∀ now ∈ act.time, state.clock ≤ now.ms) :
    Guarded (act.tick state) ∧
      ∀ now ∈ act.time, now.ms = (act.tick state).clock := by
  rw [Act.tick]
  split
  · next now timed =>
      refine ⟨guarded.wait (later now timed), fun other also => ?_⟩
      cases timed.symm.trans also
      rfl
  · next none =>
      refine ⟨guarded, fun now timed => ?_⟩
      rw [none] at timed
      cases timed

theorem Act.act_cases (state : QueueState ρ) (act : Act ρ) :
    act.act settle state = state ∨
      (∃ id generation claim, act.holder = some (id, generation) ∧
        grantOf (state.claims id) generation = some claim ∧
        act.act settle state = Jobs.holderStep state claim act) ∨
      (∃ options, act = .claim options ∧
        act.act settle state = Jobs.claimStep settle state options) ∨
      ∃ db, Jobs.callDb settle state.db act = .ok db ∧
        act.act settle state = { state with db := db } := by
  generalize same : act.act settle state = result
  unfold Act.act at same
  split at same
  · next id generation given =>
      split at same
      · next claim found =>
          exact .inr (.inl ⟨id, generation, claim, given, found, same.symm⟩)
      · exact .inl same.symm
  · next options _ =>
      exact .inr (.inr (.inl ⟨options, rfl, same.symm⟩))
  · split at same
    · next db called => exact .inr (.inr (.inr ⟨db, called, same.symm⟩))
    · exact .inl same.symm

theorem Guarded.step {state : QueueState ρ} (guarded : Guarded state)
    {act : Act ρ} (admissible : act.Admissible state) :
    Guarded (act.step settle state) := by
  rcases guarded.tick admissible.later with ⟨ticked, time⟩
  rw [Act.step]
  rcases Act.act_cases (act.tick state) act with
    same | ⟨id, generation, claim, holds, found, same⟩ |
    ⟨options, rfl, same⟩ | ⟨db, called, same⟩
  · rw [same]
    exact ticked
  · rw [same]
    refine ticked.holderStep holds found ?_ admissible.plain
    have current := admissible.current
    cases act with
    | reschedule => exact current
    | _ => trivial
  · rw [same]
    exact ticked.claimStep (time options.now rfl) admissible.plain.1
      admissible.plain.2
  · rw [same]
    exact ticked.callDb called time admissible.plain

end Settled

end Mendpoint.Jobs
