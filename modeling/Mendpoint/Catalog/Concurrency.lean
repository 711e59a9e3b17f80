import Mathlib.Algebra.Order.Field.Rat
import Mathlib.Data.List.Enum
import Mathlib.Data.List.Perm.Basic
import Mathlib.Data.Rat.Defs
import Mendpoint.Library.Fallible
import Mendpoint.Library.Run

/-!
# Maps with bounded concurrency

A map over a list is done by a few workers, each of which takes the next index
as soon as it has settled its last one.  What a worker awaits may settle at any
time and in any order, and the map may be aborted in between.
-/

namespace Mendpoint.Catalog

open Mendpoint.Library
open Mendpoint.Library.Fallible

/-! ## The map -/

/-- A number of ECMAScript, or none where it is not finite. -/
abbrev Number := Option ℚ

/-- `boundedConcurrency` -/
def boundedConcurrency (value : Option Number) (fallback maximum : Nat) :
    Except String Nat :=
  match value with
  | none => .ok fallback
  | some none => .error "Concurrency must be a positive integer"
  | some (some number) =>
    if number.den ≠ 1 ∨ number < 1 then
      .error "Concurrency must be a positive integer"
    else .ok (min number.num.toNat maximum)

/-- Where the loop of a worker stands. -/
inductive Worker (α ε : Type) where
  | awaiting (value : α) (index : Nat)
  | returned
  | threw (reason : ε)

def Worker.isAwaiting {α ε : Type} : Worker α ε → Bool
  | .awaiting _ _ => true
  | .returned => false
  | .threw _ => false

def Worker.hasReturned {α ε : Type} : Worker α ε → Bool
  | .awaiting _ _ => false
  | .returned => true
  | .threw _ => false

def Worker.reason? {α ε : Type} : Worker α ε → Option ε
  | .awaiting _ _ => none
  | .returned => none
  | .threw reason => some reason

/-- The variables which the workers share, and the promise of them all. -/
structure Pool (α ε ρ : Type) where
  nextIndex : Nat
  results : List (Option ρ)
  workers : List (Worker α ε)
  /-- The reason of the signal, once it is aborted. -/
  aborted : Option ε
  /-- The calls of `work` so far. -/
  calls : List (α × Nat)
  settled : Option (Except ε (List (Option ρ)))

section Map

variable {α ε ρ : Type}
variable (values : List α) (work : α → Nat → Except ε ρ)

/-- One turn of the loop of a worker, up to what it awaits. -/
def Pool.turn (pool : Pool α ε ρ) : Worker α ε × Pool α ε ρ :=
  match pool.aborted with
  | some reason => (.threw reason, pool)
  | none =>
    match values[pool.nextIndex]? with
    | none => (.returned, { pool with nextIndex := pool.nextIndex + 1 })
    | some value =>
      (.awaiting value pool.nextIndex,
        { pool with
          nextIndex := pool.nextIndex + 1
          calls := pool.calls ++ [(value, pool.nextIndex)] })

/-- Start a number of workers, each up to what it first awaits. -/
def Pool.launch : Nat → Pool α ε ρ → Pool α ε ρ
  | 0, pool => pool
  | count + 1, pool =>
    let made := pool.turn values
    launch count { made.2 with workers := pool.workers ++ [made.1] }

/-- `Promise.all` rejects with the first worker and fulfils with the last. -/
def Pool.conclude (pool : Pool α ε ρ) : Pool α ε ρ :=
  match pool.settled with
  | some _ => pool
  | none =>
    match pool.workers.findSome? Worker.reason? with
    | some reason => { pool with settled := some (.error reason) }
    | none =>
      if pool.workers.all Worker.hasReturned then
        { pool with settled := some (.ok pool.results) }
      else pool

/-- The state in which the caller of the map gets its promise. -/
def mapWithConcurrency (concurrency : Number) (aborted : Option ε) :
    Except String (Pool α ε ρ) :=
  if values.isEmpty then
    .ok { nextIndex := 0, results := [], workers := [], aborted := aborted,
          calls := [], settled := some (.ok []) }
  else do
    let limit ← boundedConcurrency (some concurrency) 4 16
    return (Pool.launch values (min limit values.length)
      { nextIndex := 0
        results := List.replicate values.length none
        workers := []
        aborted := aborted
        calls := []
        settled := none }).conclude

/-- What can happen while the map is under way. -/
inductive Event (ε : Type) where
  /-- What a worker awaits has settled. -/
  | resume (worker : Nat)
  | abort (reason : ε)

def Pool.step (pool : Pool α ε ρ) : Event ε → Pool α ε ρ
  | .abort reason => { pool with aborted := some (pool.aborted.getD reason) }
  | .resume worker =>
    match pool.workers[worker]? with
    | some (.awaiting value index) =>
      match work value index with
      | .error reason =>
        Pool.conclude
          { pool with workers := pool.workers.set worker (.threw reason) }
      | .ok result =>
        let made := Pool.turn values
          { pool with results := pool.results.set index (some result) }
        Pool.conclude
          { made.2 with workers := pool.workers.set worker made.1 }
    | _ => pool

/-! ## What holds at any time -/

/-- What the workers have called and stored goes together. -/
structure Pool.Fits (pool : Pool α ε ρ) : Prop where
  length : pool.results.length = values.length
  calls : pool.calls = values.zipIdx.take pool.nextIndex
  awaited : ∀ value index, .awaiting value index ∈ pool.workers →
    (value, index) ∈ pool.calls
  handled : ∀ call ∈ pool.calls,
    .awaiting call.1 call.2 ∈ pool.workers ∨
      (∃ reason, .threw reason ∈ pool.workers ∧
        work call.1 call.2 = .error reason) ∨
      ∃ result, work call.1 call.2 = .ok result ∧
        pool.results[call.2]? = some (some result)
  ended : .returned ∈ pool.workers → values.length ≤ pool.nextIndex
  thrown : ∀ reason, .threw reason ∈ pool.workers →
    pool.aborted = some reason ∨
      ∃ call ∈ pool.calls, work call.1 call.2 = .error reason

/-- What the promise has settled to goes with where the workers stand. -/
structure Pool.Settles (pool : Pool α ε ρ) : Prop where
  pending : pool.settled = none →
    ∃ worker ∈ pool.workers, worker.isAwaiting = true
  fulfilled : ∀ results, pool.settled = some (.ok results) →
    results = pool.results ∧ ∀ worker ∈ pool.workers, worker = .returned
  rejected : ∀ reason, pool.settled = some (.error reason) →
    .threw reason ∈ pool.workers

variable {values work} {pool : Pool α ε ρ} {workers : List (Worker α ε)}

/-- What a turn of a worker does to the variables, and where it ends. -/
structure Pool.Turned (values : List α) (pool : Pool α ε ρ)
    (made : Worker α ε × Pool α ε ρ) : Prop where
  results : made.2.results = pool.results
  aborted : made.2.aborted = pool.aborted
  settled : made.2.settled = pool.settled
  next : pool.nextIndex ≤ made.2.nextIndex
  calls : pool.calls = values.zipIdx.take pool.nextIndex →
    made.2.calls = values.zipIdx.take made.2.nextIndex
  grows : ∀ call ∈ pool.calls, call ∈ made.2.calls
  called : ∀ call ∈ made.2.calls,
    call ∈ pool.calls ∨ made.1 = .awaiting call.1 call.2
  awaits : ∀ value index, made.1 = .awaiting value index →
    (value, index) ∈ made.2.calls
  returns : made.1 = .returned → values.length ≤ made.2.nextIndex
  throws : ∀ reason, made.1 = .threw reason → pool.aborted = some reason
  silent : pool.aborted ≠ none → made.2.calls = pool.calls

theorem Pool.turned (pool : Pool α ε ρ) :
    pool.Turned values (pool.turn values) := by
  rw [Pool.turn]
  cases aborted : pool.aborted with
  | some reason =>
    refine ⟨rfl, rfl, rfl, le_rfl, id, fun _ => id, fun _ => Or.inl, ?_, ?_, ?_,
      fun _ => rfl⟩
    · intro value index impossible
      cases impossible
    · intro impossible
      cases impossible
    · intro other same
      cases same
      exact aborted
  | none =>
    cases found : values[pool.nextIndex]? with
    | none =>
      have past := List.getElem?_eq_none_iff.mp found
      refine ⟨rfl, aborted.symm, rfl, Nat.le_succ _, ?_, fun _ => id,
        fun _ => Or.inl, ?_, fun _ => past.trans (Nat.le_succ _), ?_, fun _ => rfl⟩
      · intro calls
        have all : values.zipIdx.length ≤ pool.nextIndex := by simpa using past
        show pool.calls = _
        rw [calls, List.take_of_length_le all,
          List.take_of_length_le (all.trans (Nat.le_succ _))]
      · intro value index impossible
        cases impossible
      · intro reason impossible
        cases impossible
    | some value =>
      refine ⟨rfl, aborted.symm, rfl, Nat.le_succ _, ?_, ?_, ?_, ?_, ?_, ?_, ?_⟩
      · intro calls
        show pool.calls ++ [(value, pool.nextIndex)] = _
        rw [calls, List.take_add_one, List.getElem?_zipIdx, found]
        simp
      · intro call member
        exact List.mem_append_left _ member
      · intro call member
        rcases List.mem_append.mp member with member | member
        · exact Or.inl member
        · cases List.mem_singleton.mp member
          exact Or.inr rfl
      · intro other index same
        cases same
        exact List.mem_append_right _ (List.mem_singleton_self _)
      · intro impossible
        cases impossible
      · intro reason impossible
        cases impossible
      · intro stopped
        exact absurd aborted stopped

/-- A worker which has just taken its turn joins the others. -/
theorem Pool.Fits.turn {others : List (Worker α ε)}
    (fits : Pool.Fits values work { pool with workers := others })
    (joined : workers.Perm ((pool.turn values).1 :: others)) :
    Pool.Fits values work { (pool.turn values).2 with workers := workers } := by
  have turned : pool.Turned values (pool.turn values) := pool.turned
  generalize pool.turn values = made at joined turned ⊢
  have kept {worker : Worker α ε} (member : worker ∈ others) :
      worker ∈ workers := joined.mem_iff.mpr (List.mem_cons_of_mem _ member)
  have either {worker : Worker α ε} (member : worker ∈ workers) :
      worker = made.1 ∨ worker ∈ others :=
    List.mem_cons.mp (joined.mem_iff.mp member)
  refine ⟨?_, turned.calls fits.calls, ?_, ?_, ?_, ?_⟩
  · show made.2.results.length = _
    rw [turned.results]
    exact fits.length
  · intro value index member
    rcases either member with same | member
    · exact turned.awaits value index same.symm
    · exact turned.grows _ (fits.awaited value index member)
  · intro call member
    rcases turned.called call member with member | same
    · rcases fits.handled call member with
        waits | ⟨reason, threw, failed⟩ | ⟨result, made, stored⟩
      · exact Or.inl (kept waits)
      · exact Or.inr (Or.inl ⟨reason, kept threw, failed⟩)
      · refine Or.inr (Or.inr ⟨result, made, ?_⟩)
        rw [turned.results]
        exact stored
    · exact Or.inl (joined.mem_iff.mpr (same ▸ List.mem_cons_self))
  · intro member
    rcases either member with same | member
    · exact turned.returns same.symm
    · exact (fits.ended member).trans turned.next
  · intro reason member
    show made.2.aborted = some reason ∨ _
    rw [turned.aborted]
    rcases either member with same | member
    · exact Or.inl (turned.throws reason same.symm)
    · rcases fits.thrown reason member with stopped | ⟨call, inside, failed⟩
      · exact Or.inl stopped
      · exact Or.inr ⟨call, turned.grows call inside, failed⟩

/-- What a worker has awaited is stored, and the worker leaves the others. -/
theorem Pool.Fits.store (fits : pool.Fits values work) {value : α} {index : Nat}
    {result : ρ} (left : pool.workers.Perm (.awaiting value index :: workers))
    (made : work value index = .ok result) :
    Pool.Fits values work
      { pool with
        results := pool.results.set index (some result)
        workers := workers } := by
  have kept {worker : Worker α ε} (member : worker ∈ workers) :
      worker ∈ pool.workers := left.mem_iff.mpr (List.mem_cons_of_mem _ member)
  have split {worker : Worker α ε} (member : worker ∈ pool.workers) :
      worker = .awaiting value index ∨ worker ∈ workers :=
    List.mem_cons.mp (left.mem_iff.mp member)
  have placed : ∀ call ∈ pool.calls, values[call.2]? = some call.1 := by
    intro call member
    rw [fits.calls] at member
    exact List.mem_zipIdx_iff_getElem?.mp (List.mem_of_mem_take member)
  have own := placed _ (fits.awaited value index
    (left.mem_iff.mpr List.mem_cons_self))
  have inside : index < pool.results.length := by
    rw [fits.length]
    exact (List.getElem?_eq_some_iff.mp own).1
  refine ⟨?_, fits.calls, ?_, ?_, ?_, ?_⟩
  · rw [List.length_set]
    exact fits.length
  · exact fun other place member => fits.awaited other place (kept member)
  · intro call member
    by_cases same : call.2 = index
    · have equal : call.1 = value := by
        have found := placed call member
        rw [same, own] at found
        exact (Option.some.inj found).symm
      refine Or.inr (Or.inr ⟨result, ?_, ?_⟩)
      · rw [equal, same]
        exact made
      · rw [same]
        exact List.getElem?_set_self inside
    · rcases fits.handled call member with
        waits | ⟨reason, threw, failed⟩ | ⟨other, done, stored⟩
      · rcases split waits with equal | others
        · cases equal
          exact absurd rfl same
        · exact Or.inl others
      · rcases split threw with impossible | others
        · cases impossible
        · exact Or.inr (Or.inl ⟨reason, others, failed⟩)
      · refine Or.inr (Or.inr ⟨other, done, ?_⟩)
        rw [List.getElem?_set_ne (Ne.symm same)]
        exact stored
  · exact fun member => fits.ended (kept member)
  · exact fun reason member => fits.thrown reason (kept member)

/-- What a worker has awaited fails, and the worker with it. -/
theorem Pool.Fits.fail (fits : pool.Fits values work) {value : α} {index : Nat}
    {others : List (Worker α ε)} {reason : ε}
    (left : pool.workers.Perm (.awaiting value index :: others))
    (joined : workers.Perm (.threw reason :: others))
    (failed : work value index = .error reason) :
    Pool.Fits values work { pool with workers := workers } := by
  have kept {worker : Worker α ε} (member : worker ∈ workers) :
      worker = .threw reason ∨ worker ∈ pool.workers := by
    rcases List.mem_cons.mp (joined.mem_iff.mp member) with same | member
    · exact Or.inl same
    · exact Or.inr (left.mem_iff.mpr (List.mem_cons_of_mem _ member))
  have split {worker : Worker α ε} (member : worker ∈ pool.workers) :
      worker = .awaiting value index ∨ worker ∈ workers := by
    rcases List.mem_cons.mp (left.mem_iff.mp member) with same | member
    · exact Or.inl same
    · exact Or.inr (joined.mem_iff.mpr (List.mem_cons_of_mem _ member))
  have own := fits.awaited value index (left.mem_iff.mpr List.mem_cons_self)
  refine ⟨fits.length, fits.calls, ?_, ?_, ?_, ?_⟩
  · intro other place member
    rcases kept member with impossible | member
    · cases impossible
    · exact fits.awaited other place member
  · intro call member
    rcases fits.handled call member with
      waits | ⟨other, threw, why⟩ | stored
    · rcases split waits with same | waits
      · cases same
        exact Or.inr (Or.inl
          ⟨reason, joined.mem_iff.mpr List.mem_cons_self, failed⟩)
      · exact Or.inl waits
    · rcases split threw with impossible | threw
      · cases impossible
      · exact Or.inr (Or.inl ⟨other, threw, why⟩)
    · exact Or.inr (Or.inr stored)
  · intro member
    rcases kept member with impossible | member
    · cases impossible
    · exact fits.ended member
  · intro other member
    rcases kept member with same | member
    · cases same
      exact Or.inr ⟨_, own, failed⟩
    · exact fits.thrown other member

theorem Pool.conclude_cases (pool : Pool α ε ρ) :
    pool.conclude = pool ∨
      ∃ outcome, pool.conclude = { pool with settled := some outcome } := by
  rw [Pool.conclude]
  cases pool.settled with
  | some outcome => exact Or.inl rfl
  | none =>
    cases pool.workers.findSome? Worker.reason? with
    | some reason => exact Or.inr ⟨_, rfl⟩
    | none =>
      dsimp only
      split
      · exact Or.inr ⟨_, rfl⟩
      · exact Or.inl rfl

theorem Pool.Fits.conclude (fits : pool.Fits values work) :
    pool.conclude.Fits values work := by
  rcases pool.conclude_cases with same | ⟨outcome, same⟩
  · rw [same]
    exact fits
  · rw [same]
    exact ⟨fits.length, fits.calls, fits.awaited, fits.handled, fits.ended,
      fits.thrown⟩

theorem Worker.isAwaiting_of_not {worker : Worker α ε}
    (unfailed : worker.reason? = none) (unreturned : worker.hasReturned = false) :
    worker.isAwaiting = true := by
  cases worker with
  | awaiting value index => rfl
  | returned => cases unreturned
  | threw reason => cases unfailed

/-- Once all that has settled before fits, so does what settles now. -/
theorem Pool.settles_conclude
    (settled : pool.settled ≠ none → pool.Settles) : pool.conclude.Settles := by
  rw [Pool.conclude]
  cases before : pool.settled with
  | some outcome =>
    exact settled (before ▸ Option.some_ne_none outcome)
  | none =>
    cases found : pool.workers.findSome? Worker.reason? with
    | some reason =>
      refine ⟨?_, ?_, ?_⟩
      · intro impossible
        cases impossible
      · intro results impossible
        cases impossible
      · intro other same
        cases same
        rcases List.exists_of_findSome?_eq_some found with ⟨worker, member, why⟩
        cases worker with
        | threw cause =>
          cases why
          exact member
        | awaiting value index => cases why
        | returned => cases why
    | none =>
      dsimp only
      split
      · case isTrue all =>
        rw [List.all_eq_true] at all
        refine ⟨?_, ?_, ?_⟩
        · intro impossible
          cases impossible
        · intro results same
          cases same
          refine ⟨rfl, fun worker member => ?_⟩
          have returned := all worker member
          cases worker with
          | returned => rfl
          | awaiting value index => cases returned
          | threw reason => cases returned
        · intro reason impossible
          cases impossible
      · case isFalse unfinished =>
        rw [List.all_eq_true] at unfinished
        simp only [not_forall] at unfinished
        rcases unfinished with ⟨worker, member, busy⟩
        refine ⟨fun _ => ⟨worker, member, ?_⟩, ?_, ?_⟩
        · exact Worker.isAwaiting_of_not
            (List.findSome?_eq_none_iff.mp found worker member)
            (Bool.not_eq_true _ ▸ busy)
        · intro results impossible
          rw [before] at impossible
          cases impossible
        · intro reason impossible
          rw [before] at impossible
          cases impossible

/-- What holds of the state of a map at any time. -/
structure Pool.Sound (values : List α) (work : α → Nat → Except ε ρ)
    (count : Nat) (pool : Pool α ε ρ) : Prop where
  fits : pool.Fits values work
  settles : pool.Settles
  count : pool.workers.length = count

theorem Pool.Settles.resume (settles : pool.Settles) {value : α} {index : Nat}
    {others : List (Worker α ε)} {worker : Worker α ε} {next : Pool α ε ρ}
    (left : pool.workers.Perm (.awaiting value index :: others))
    (joined : next.workers.Perm (worker :: others))
    (same : next.settled = pool.settled) (already : next.settled ≠ none) :
    next.Settles := by
  have own := left.mem_iff.mpr List.mem_cons_self
  refine ⟨fun missing => absurd missing already, ?_, ?_⟩
  · intro results done
    rw [same] at done
    cases (settles.fulfilled results done).2 _ own
  · intro reason done
    rw [same] at done
    rcases List.mem_cons.mp (left.mem_iff.mp (settles.rejected reason done)) with
      impossible | member
    · cases impossible
    · exact joined.mem_iff.mpr (List.mem_cons_of_mem _ member)

theorem Pool.conclude_workers (pool : Pool α ε ρ) :
    pool.conclude.workers = pool.workers := by
  rcases pool.conclude_cases with same | ⟨outcome, same⟩
  · rw [same]
  · rw [same]

theorem Pool.Sound.step {count : Nat} (sound : pool.Sound values work count)
    (event : Event ε) : (pool.step values work event).Sound values work count := by
  cases event with
  | abort reason =>
    refine ⟨?_, ⟨sound.settles.pending, sound.settles.fulfilled,
      sound.settles.rejected⟩, sound.count⟩
    refine ⟨sound.fits.length, sound.fits.calls, sound.fits.awaited,
      sound.fits.handled, sound.fits.ended, fun other member => ?_⟩
    rcases sound.fits.thrown other member with stopped | failed
    · refine Or.inl ?_
      show some (pool.aborted.getD reason) = _
      rw [stopped]
      rfl
    · exact Or.inr failed
  | resume worker =>
    rw [Pool.step]
    split
    · case h_1 value index found =>
      rcases List.getElem?_eq_some_iff.mp found with ⟨inside, own⟩
      have left : pool.workers.Perm
          (.awaiting value index :: pool.workers.eraseIdx worker) := by
        rw [← own]
        exact (List.getElem_cons_eraseIdx_perm inside).symm
      cases made : work value index with
      | error reason =>
        have joined := List.set_perm_cons_eraseIdx inside
          (Worker.threw (α := α) reason)
        refine ⟨(sound.fits.fail left joined made).conclude,
          Pool.settles_conclude (sound.settles.resume left joined rfl), ?_⟩
        rw [Pool.conclude_workers]
        exact (List.length_set ..).trans sound.count
      | ok result =>
        have fits := sound.fits.store left made
        refine ⟨(fits.turn (List.set_perm_cons_eraseIdx inside _)).conclude,
          Pool.settles_conclude (sound.settles.resume left
            (List.set_perm_cons_eraseIdx inside _) (Pool.turned _).settled), ?_⟩
        rw [Pool.conclude_workers]
        exact (List.length_set ..).trans sound.count
    · exact sound

theorem Pool.Fits.launch (fits : pool.Fits values work) (count : Nat)
    (unsettled : pool.settled = none) :
    (Pool.launch values count pool).Fits values work ∧
      (Pool.launch values count pool).settled = none ∧
      (Pool.launch values count pool).workers.length =
        pool.workers.length + count := by
  induction count generalizing pool with
  | zero => exact ⟨fits, unsettled, rfl⟩
  | succ count inductionHypothesis =>
    have joined := List.perm_append_singleton (pool.turn values).1 pool.workers
    have next := inductionHypothesis (Pool.Fits.turn fits joined)
      ((Pool.turned pool).settled.trans unsettled)
    refine ⟨next.1, next.2.1, next.2.2.trans ?_⟩
    simp
    omega

variable {concurrency : Number} {aborted : Option ε}

theorem boundedConcurrency_eq_ok {limit : Nat}
    (bounded : boundedConcurrency (some concurrency) 4 16 = .ok limit) :
    ∃ number, concurrency = some number ∧ 1 ≤ limit ∧ (limit : ℚ) ≤ number ∧
      limit ≤ 16 := by
  cases concurrency with
  | none => cases bounded
  | some number =>
    rw [boundedConcurrency] at bounded
    split at bounded
    · cases bounded
    · case isFalse proper =>
      simp only [not_or, not_lt, ne_eq, not_not] at proper
      cases bounded
      have whole : ((number.num : ℤ) : ℚ) = number :=
        Rat.den_eq_one_iff number |>.mp proper.1
      have positive : 1 ≤ number.num := by
        have least := proper.2
        rw [← whole] at least
        exact_mod_cast least
      have counted : ((number.num.toNat : ℕ) : ℚ) = number := by
        rw [← Int.cast_natCast, Int.toNat_of_nonneg (by omega), whole]
      refine ⟨number, rfl, by omega, ?_, min_le_right _ _⟩
      rw [← counted]
      exact_mod_cast min_le_left _ _

/-! ## Runs -/

/-- What a map promises at any time. -/
structure Pool.Promised (values : List α) (work : α → Nat → Except ε ρ)
    (concurrency : Number) (pool : Pool α ε ρ) : Prop where
  /-- Every value is worked on at most once, in order. -/
  once : pool.calls <+: values.zipIdx
  few : pool.workers.countP Worker.isAwaiting ≤ min 16 values.length
  allowed : values ≠ [] → ∃ limit, concurrency = some limit ∧
    (pool.workers.countP Worker.isAwaiting : ℚ) ≤ limit
  fulfilled : ∀ results, pool.settled = some (.ok results) →
    pool.calls = values.zipIdx ∧
      ∃ made, values.zipIdx.mapM (fun call => work call.1 call.2) = .ok made ∧
        results = made.map some
  rejected : ∀ reason, pool.settled = some (.error reason) →
    pool.aborted = some reason ∨
      ∃ call ∈ pool.calls, work call.1 call.2 = .error reason
  /-- The promise settles at the latest when no call is under way. -/
  ends : (∀ worker ∈ pool.workers, worker.isAwaiting = false) →
    pool.settled ≠ none

theorem Pool.Sound.mapped {count : Nat} (sound : pool.Sound values work count)
    (positive : 0 < count ∨ values = []) {results : List (Option ρ)}
    (done : pool.settled = some (.ok results)) :
    pool.calls = values.zipIdx ∧
      ∃ made, values.zipIdx.mapM (fun call => work call.1 call.2) = .ok made ∧
        results = made.map some := by
  rcases sound.settles.fulfilled results done with ⟨rfl, returned⟩
  have all : values.length ≤ pool.nextIndex := by
    rcases positive with positive | rfl
    · rw [← sound.count] at positive
      rcases List.exists_mem_of_length_pos positive with ⟨worker, member⟩
      exact sound.fits.ended (returned worker member ▸ member)
    · exact Nat.zero_le _
  have calls : pool.calls = values.zipIdx := by
    rw [sound.fits.calls]
    exact List.take_of_length_le (by simpa using all)
  have stored : ∀ call ∈ values.zipIdx, ∃ result,
      work call.1 call.2 = .ok result ∧
        pool.results[call.2]? = some (some result) := by
    intro call member
    rcases sound.fits.handled call (calls ▸ member) with
      waits | ⟨reason, threw, _⟩ | found
    · cases returned _ waits
    · cases returned _ threw
    · exact found
  refine ⟨calls, ?_⟩
  cases mapped : values.zipIdx.mapM fun call => work call.1 call.2 with
  | error reason =>
    rcases exists_of_mapM_eq_error mapped with ⟨call, member, failed⟩
    rcases stored call member with ⟨result, succeeded, _⟩
    rw [failed] at succeeded
    cases succeeded
  | ok made =>
    refine ⟨made, rfl, ?_⟩
    have pairs := mapM_eq_ok.mp mapped
    have lengths : values.length = made.length := by
      simpa using pairs.length_eq
    apply List.ext_getElem
    · simp [sound.fits.length, lengths]
    · intro index inside inMade
      have inValues : index < values.zipIdx.length := by
        simpa [lengths] using inMade
      rcases stored _ (List.getElem_mem inValues) with ⟨result, succeeded, kept⟩
      have own := pairs.get inValues (by simpa using inMade)
      simp only [List.get_eq_getElem, List.getElem_zipIdx, zero_add] at own
      simp only [List.getElem_zipIdx, zero_add] at succeeded kept
      rw [own] at succeeded
      cases succeeded
      rw [List.getElem?_eq_getElem inside] at kept
      simpa using kept

theorem Pool.Sound.promised {count : Nat} (sound : pool.Sound values work count)
    (few : count ≤ min 16 values.length)
    (allowed : values ≠ [] → 0 < count ∧
      ∃ limit, concurrency = some limit ∧ (count : ℚ) ≤ limit) :
    pool.Promised values work concurrency := by
  have busy : pool.workers.countP Worker.isAwaiting ≤ count :=
    List.countP_le_length.trans sound.count.le
  refine ⟨?_, busy.trans few, ?_, ?_, ?_, ?_⟩
  · rw [sound.fits.calls]
    exact List.take_prefix ..
  · intro some_
    rcases (allowed some_).2 with ⟨limit, same, within⟩
    exact ⟨limit, same, (Nat.cast_le.mpr busy).trans within⟩
  · intro results done
    refine sound.mapped ?_ done
    by_cases empty : values = []
    · exact Or.inr empty
    · exact Or.inl (allowed empty).1
  · intro reason done
    exact sound.fits.thrown reason (sound.settles.rejected reason done)
  · intro idle missing
    rcases sound.settles.pending missing with ⟨worker, member, waits⟩
    rw [idle worker member] at waits
    cases waits

/-- The state of a map after some events. -/
def Pool.after (values : List α) (work : α → Nat → Except ε ρ)
    (pool : Pool α ε ρ) (events : List (Event ε)) : Pool α ε ρ :=
  Run.run (fun current event => current.step values work event) pool events

theorem promised_start {start : Pool α ε ρ}
    (started : mapWithConcurrency values concurrency aborted = .ok start)
    (work : α → Nat → Except ε ρ) :
    ∃ count, start.Sound values work count ∧ count ≤ min 16 values.length ∧
      (values ≠ [] → 0 < count ∧
        ∃ limit, concurrency = some limit ∧ (count : ℚ) ≤ limit) := by
  rw [mapWithConcurrency] at started
  split at started
  · case isTrue empty =>
    cases List.isEmpty_iff.mp empty
    cases started
    refine ⟨0, ⟨⟨rfl, rfl, ?_, ?_, ?_, ?_⟩, ⟨?_, ?_, ?_⟩, rfl⟩, Nat.zero_le _,
      fun full => absurd rfl full⟩
    all_goals simp
  · case isFalse full =>
    simp only [bind_eq_ok, pure_eq_ok] at started
    rcases started with ⟨limit, bounded, rfl⟩
    rcases boundedConcurrency_eq_ok bounded with
      ⟨number, same, positive, within, most⟩
    let initial : Pool α ε ρ :=
      { nextIndex := 0
        results := List.replicate values.length none
        workers := []
        aborted := aborted
        calls := []
        settled := none }
    have fits : initial.Fits values work := by
      constructor <;> simp [initial]
    have launched := fits.launch (min limit values.length) rfl
    refine ⟨min limit values.length,
      ⟨launched.1.conclude, Pool.settles_conclude fun already =>
        absurd launched.2.1 already, ?_⟩,
      min_le_min_right _ most, fun present => ⟨?_, number, same, ?_⟩⟩
    · rw [Pool.conclude_workers, launched.2.2]
      exact Nat.zero_add _
    · have some_ := List.length_pos_iff.mpr present
      omega
    · exact (Nat.cast_le.mpr (min_le_left _ _)).trans within

/-- A map which is aborted has called nothing since a state before. -/
structure Pool.Silent (before pool : Pool α ε ρ) : Prop where
  aborted : pool.aborted ≠ none
  calls : pool.calls = before.calls

theorem Pool.Silent.conclude {before : Pool α ε ρ} (silent : before.Silent pool) :
    before.Silent pool.conclude := by
  rcases pool.conclude_cases with same | ⟨outcome, same⟩
  · rw [same]
    exact silent
  · rw [same]
    exact ⟨silent.aborted, silent.calls⟩

theorem Pool.Silent.step {before : Pool α ε ρ} (silent : before.Silent pool)
    (event : Event ε) : before.Silent (pool.step values work event) := by
  cases event with
  | abort reason => exact ⟨Option.some_ne_none _, silent.calls⟩
  | resume worker =>
    rw [Pool.step]
    split
    · case h_1 value index found =>
      cases work value index with
      | error reason =>
        exact Pool.Silent.conclude ⟨silent.aborted, silent.calls⟩
      | ok result =>
        have turned := @Pool.turned α ε ρ values
          { pool with results := pool.results.set index (some result) }
        refine Pool.Silent.conclude ⟨?_, ?_⟩
        · exact fun missing =>
            silent.aborted (turned.aborted.symm.trans missing)
        · exact (turned.silent silent.aborted).trans silent.calls
    · exact silent

/-- Whatever is settled in whatever order, a map works on every value at most
once and in order, has no more calls under way than it may, and gives the
results in the order of the values; once it is aborted it calls nothing. -/
theorem mapWithConcurrency_promised {start : Pool α ε ρ}
    (started : mapWithConcurrency values concurrency aborted = .ok start)
    (work : α → Nat → Except ε ρ) (events : List (Event ε)) :
    (start.after values work events).Promised values work concurrency ∧
      ∀ later, (start.after values work events).aborted ≠ none →
        (start.after values work (events ++ later)).calls =
          (start.after values work events).calls := by
  rcases promised_start started work with ⟨count, sound, few, allowed⟩
  refine ⟨?_, fun later stopped => ?_⟩
  · have kept : (start.after values work events).Sound values work count :=
      Run.run_invariant (fun _ event holds => holds.step event) sound events
    exact kept.promised few allowed
  · have silent : Pool.Silent (start.after values work events)
        (Run.run (fun current event => current.step values work event)
          (start.after values work events) later) :=
      Run.run_invariant (fun _ event holds => holds.step event) ⟨stopped, rfl⟩
        later
    rw [Pool.after, Run.run_append]
    exact silent.calls

end Map

/-- Three values with two workers, of which the second is the faster. -/
theorem mapWithConcurrency_promised_sample :
    let start : Pool Nat String Nat :=
      { nextIndex := 2
        results := [none, none, none]
        workers := [.awaiting 10 0, .awaiting 20 1]
        aborted := none
        calls := [(10, 0), (20, 1)]
        settled := none }
    let work := fun value index => Except.ok (value + index)
    let events := [.resume 1, .resume 0, .resume 1]
    mapWithConcurrency [10, 20, 30] (some 2) none = .ok start ∧
      (start.after [10, 20, 30] work events).settled =
        some (.ok [some 10, some 21, some 32]) ∧
      (start.after [10, 20, 30] work events).Promised [10, 20, 30] work
        (some 2) ∧
      ∀ later, (start.after [10, 20, 30] work events).aborted ≠ none →
        (start.after [10, 20, 30] work (events ++ later)).calls =
          (start.after [10, 20, 30] work events).calls :=
  ⟨rfl, rfl, @mapWithConcurrency_promised _ _ _ _ _ none _ rfl _ _⟩

end Mendpoint.Catalog
