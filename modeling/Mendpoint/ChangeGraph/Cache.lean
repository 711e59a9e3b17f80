import Mathlib.Algebra.Order.Field.Rat
import Mathlib.Data.Finset.Card
import Mendpoint.Library.OrderedMap
import Mendpoint.Library.Run

/-!
# The cache of graph builds

Values are kept for a time, and no more than a number of them: what was used
least recently goes first.
-/

namespace Mendpoint.ChangeGraph

open Mendpoint.Library

/-! ## The cache -/

structure Entry (β : Type) where
  value : β
  expires : ℚ

structure TtlCache (β : Type) where
  map : OrderedMap String (Entry β)
  maxSize : ℚ
  ttlMs : ℚ

/-- A call of the cache, at the time of the clock. -/
inductive CacheCall (β : Type) where
  | get (now : ℚ) (key : String)
  | set (now : ℚ) (key : String) (value : β) (ttlMs : Option ℚ)
  | clear

/-- Drop the entry used least recently while there are too many. -/
def trimmed {β : Type} (maxSize : ℚ) :
    List (String × Entry β) → List (String × Entry β)
  | [] => []
  | entry :: rest =>
    if maxSize < (rest.length + 1 : Nat) then trimmed maxSize rest
    else entry :: rest

section Cache

variable {β : Type}

theorem trimmed_suffix (maxSize : ℚ) (entries : List (String × Entry β)) :
    trimmed maxSize entries <:+ entries := by
  induction entries with
  | nil => exact List.suffix_rfl
  | cons entry rest inductionHypothesis =>
    rw [trimmed]
    split
    · exact inductionHypothesis.trans (List.suffix_cons entry rest)
    · exact List.suffix_rfl

def TtlCache.trim (cache : TtlCache β) : TtlCache β :=
  { cache with
    map := {
      entries := trimmed cache.maxSize cache.map.entries
      nodupKeys := ((trimmed_suffix _ _).sublist.map Prod.fst).nodup
        cache.map.nodupKeys } }

/-- An entry is put behind all others. -/
def TtlCache.put (cache : TtlCache β) (key : String) (entry : Entry β) :
    TtlCache β :=
  { cache with map := (cache.map.delete key).set key entry }

def TtlCache.get (cache : TtlCache β) (now : ℚ) (key : String) :
    Option β × TtlCache β :=
  match cache.map.get? key with
  | none => (none, cache)
  | some entry =>
    if entry.expires < now then
      (none, { cache with map := cache.map.delete key })
    else (some entry.value, cache.put key entry)

def TtlCache.set (cache : TtlCache β) (now : ℚ) (key : String) (value : β)
    (ttlMs : Option ℚ) : TtlCache β :=
  (cache.put key
    { value := value, expires := now + ttlMs.getD cache.ttlMs }).trim

def TtlCache.step (cache : TtlCache β) : CacheCall β → TtlCache β
  | .get now key => (cache.get now key).2
  | .set now key value ttlMs => cache.set now key value ttlMs
  | .clear => { cache with map := OrderedMap.empty }

/-- The cache after some calls of a new one. -/
def TtlCache.after (maxSize ttlMs : ℚ) (calls : List (CacheCall β)) :
    TtlCache β :=
  Run.run TtlCache.step
    { map := OrderedMap.empty, maxSize := maxSize, ttlMs := ttlMs } calls

/-! ## Entries -/

variable {cache : TtlCache β} {key other : String} {entry : Entry β}

theorem TtlCache.entries_put (cache : TtlCache β) (key : String)
    (entry : Entry β) :
    (cache.put key entry).map.entries =
      cache.map.entries.filter (fun old => decide (old.1 ≠ key)) ++
        [(key, entry)] := by
  apply OrderedMap.setEntry_of_not_mem
  simp

theorem TtlCache.get?_put (cache : TtlCache β) (key other : String)
    (entry : Entry β) :
    (cache.put key entry).map.get? other =
      if key = other then some entry else cache.map.get? other := by
  simp only [put, OrderedMap.get?_set, OrderedMap.get?_delete]
  split
  · rfl
  · rfl

theorem TtlCache.get?_trim (found : cache.trim.map.get? key = some entry) :
    cache.map.get? key = some entry := by
  rw [← OrderedMap.mem_entries_iff] at found ⊢
  exact (trimmed_suffix _ _).subset found

theorem length_trimmed_le (maxSize : ℚ) (entries : List (String × Entry β)) :
    ((trimmed maxSize entries).length : ℚ) ≤ max 0 maxSize := by
  induction entries with
  | nil => exact le_max_left _ _
  | cons entry rest inductionHypothesis =>
    rw [trimmed]
    split
    · exact inductionHypothesis
    · case isFalse room =>
      exact (not_lt.mp room).trans (le_max_right _ _)

/-- What has few entries behind it stays. -/
theorem trimmed_append {maxSize : ℚ} {back : List (String × Entry β)}
    (few : (back.length : ℚ) ≤ maxSize) (front : List (String × Entry β)) :
    ∃ kept, trimmed maxSize (front ++ back) = kept ++ back := by
  induction front with
  | nil =>
    refine ⟨[], ?_⟩
    cases back with
    | nil => rfl
    | cons entry rest =>
      rw [List.nil_append, trimmed]
      exact if_neg (not_lt.mpr few)
  | cons entry front inductionHypothesis =>
    rw [List.cons_append, trimmed]
    split
    · exact inductionHypothesis
    · exact ⟨entry :: front, rfl⟩

/-! ## What is answered was set -/

/-- A call which sets a key or clears the cache. -/
def CacheCall.Replaces (key : String) : CacheCall β → Prop
  | .get _ _ => False
  | .set _ other _ _ => other = key
  | .clear => True

/-- The value of an entry was set last under its key. -/
def SetLast (ttlMs : ℚ) (calls : List (CacheCall β)) (key : String)
    (entry : Entry β) : Prop :=
  ∃ before now ttl after,
    calls = before ++ .set now key entry.value ttl :: after ∧
      entry.expires = now + ttl.getD ttlMs ∧
      ∀ call ∈ after, ¬ call.Replaces key

theorem SetLast.append {ttlMs : ℚ} {calls : List (CacheCall β)}
    (last : SetLast ttlMs calls key entry) {call : CacheCall β}
    (kept : ¬ call.Replaces key) :
    SetLast ttlMs (calls ++ [call]) key entry := by
  rcases last with ⟨before, now, ttl, after, rfl, expires, none⟩
  refine ⟨before, now, ttl, after ++ [call], by simp, expires, ?_⟩
  intro other member
  rcases List.mem_append.mp member with member | member
  · exact none other member
  · cases List.mem_singleton.mp member
    exact kept

theorem setLast_set (ttlMs : ℚ) (calls : List (CacheCall β)) (now : ℚ)
    (key : String) (value : β) (ttl : Option ℚ) :
    SetLast ttlMs (calls ++ [.set now key value ttl]) key
      ⟨value, now + ttl.getD ttlMs⟩ :=
  ⟨calls, now, ttl, [], rfl, rfl, by simp⟩

/-- What holds of a cache after some calls. -/
structure TtlCache.Fits (maxSize ttlMs : ℚ) (calls : List (CacheCall β))
    (cache : TtlCache β) : Prop where
  sized : cache.maxSize = maxSize
  lived : cache.ttlMs = ttlMs
  few : (cache.map.size : ℚ) ≤ max 0 maxSize
  last : ∀ key entry, cache.map.get? key = some entry →
    SetLast ttlMs calls key entry

theorem TtlCache.size_put_le (found : cache.map.get? key = some entry)
    (fresh : Entry β) : (cache.put key fresh).map.size ≤ cache.map.size := by
  rw [← OrderedMap.mem_entries_iff] at found
  have fewer : (cache.map.entries.filter
      fun old => decide (old.1 ≠ key)).length < cache.map.entries.length :=
    List.length_filter_lt_length_iff_exists.mpr ⟨_, found, by simp⟩
  rw [OrderedMap.size, OrderedMap.size, TtlCache.entries_put,
    List.length_append]
  exact fewer

theorem TtlCache.Fits.step {maxSize ttlMs : ℚ} {calls : List (CacheCall β)}
    (fits : cache.Fits maxSize ttlMs calls) (call : CacheCall β) :
    (cache.step call).Fits maxSize ttlMs (calls ++ [call]) := by
  cases call with
  | clear =>
    refine ⟨fits.sized, fits.lived, le_max_left _ _, fun key entry found => ?_⟩
    cases found
  | set now key value ttl =>
    refine ⟨fits.sized, fits.lived, ?_, fun other entry found => ?_⟩
    · rw [← fits.sized]
      exact length_trimmed_le cache.maxSize _
    · have put := TtlCache.get?_trim found
      rw [TtlCache.get?_put] at put
      split at put
      · case isTrue same =>
        cases same
        cases put
        rw [fits.lived]
        exact setLast_set ttlMs calls now key value ttl
      · case isFalse different =>
        exact (fits.last other entry put).append different
  | get now key =>
    have read (other : String) :
        ¬ (CacheCall.get (β := β) now key).Replaces other :=
      fun replaced => replaced
    have unset (other : String) (entry : Entry β)
        (found : cache.map.get? other = some entry) :=
      (fits.last other entry found).append (read other)
    rw [TtlCache.step, TtlCache.get]
    cases found : cache.map.get? key with
    | none => exact ⟨fits.sized, fits.lived, fits.few, unset⟩
    | some entry =>
      dsimp only
      split
      · refine ⟨fits.sized, fits.lived, ?_, fun other old kept => ?_⟩
        · refine le_trans (Nat.cast_le.mpr ?_) fits.few
          exact List.length_filter_le ..
        · rw [OrderedMap.get?_delete] at kept
          split at kept
          · cases kept
          · exact unset other old kept
      · refine ⟨fits.sized, fits.lived, ?_, fun other old kept => ?_⟩
        · exact (Nat.cast_le.mpr (TtlCache.size_put_le found entry)).trans
            fits.few
        · rw [TtlCache.get?_put] at kept
          split at kept
          · case isTrue same =>
            cases same
            cases kept
            exact unset key entry found
          · exact unset other old kept

theorem TtlCache.fits_after (maxSize ttlMs : ℚ) (calls : List (CacheCall β)) :
    (TtlCache.after maxSize ttlMs calls).Fits maxSize ttlMs calls := by
  induction calls using List.reverseRecOn with
  | nil =>
    refine ⟨rfl, rfl, le_max_left _ _, fun key entry found => ?_⟩
    cases found
  | append_singleton calls call inductionHypothesis =>
    rw [TtlCache.after, Run.run_append]
    exact inductionHypothesis.step call

/-! ## What is used often enough stays -/

def CacheCall.key? : CacheCall β → Option String
  | .get _ key => some key
  | .set _ key _ _ => some key
  | .clear => none

/-- The other keys which the calls of a stretch name. -/
def namedKeys (calls : List (CacheCall β)) : Finset String :=
  (calls.filterMap CacheCall.key?).toFinset

/-- An entry with the ones behind it, which some calls have named since. -/
def TtlCache.Recent (key : String) (entry : Entry β)
    (stretch : List (CacheCall β)) (cache : TtlCache β) : Prop :=
  ∃ front back, cache.map.entries = front ++ (key, entry) :: back ∧
    ∀ old ∈ back, old.1 ∈ namedKeys stretch

theorem TtlCache.Recent.get? {stretch : List (CacheCall β)}
    (recent : cache.Recent key entry stretch) :
    cache.map.get? key = some entry := by
  rcases recent with ⟨front, back, entries, _⟩
  rw [← OrderedMap.mem_entries_iff, entries]
  exact List.mem_append_right _ List.mem_cons_self

theorem TtlCache.recent_put (cache : TtlCache β) (key : String)
    (entry : Entry β) : (cache.put key entry).Recent key entry [] :=
  ⟨_, [], cache.entries_put key entry, by simp⟩

theorem TtlCache.recent_set (room : 1 ≤ cache.maxSize) (now : ℚ) (key : String)
    (value : β) (ttl : Option ℚ) :
    (cache.step (.set now key value ttl)).Recent key
      ⟨value, now + ttl.getD cache.ttlMs⟩ [] := by
  let entry : Entry β := ⟨value, now + ttl.getD cache.ttlMs⟩
  have fits : (([(key, entry)].length : ℕ) : ℚ) ≤ cache.maxSize := by
    simpa using room
  rcases trimmed_append fits
    (cache.map.entries.filter fun old => decide (old.1 ≠ key)) with
    ⟨kept, trimmed⟩
  refine ⟨kept, [], ?_, by simp⟩
  rw [← trimmed, ← TtlCache.entries_put]
  rfl

/-- Trimming keeps an entry which few named ones are behind. -/
theorem TtlCache.Recent.trim {stretch : List (CacheCall β)}
    (recent : cache.Recent key entry stretch)
    (few : ((namedKeys stretch).card : ℚ) + 1 ≤ cache.maxSize) :
    cache.trim.Recent key entry stretch := by
  rcases recent with ⟨front, back, entries, named⟩
  have distinct : (back.map Prod.fst).Nodup := by
    have keys := cache.map.nodupKeys
    rw [entries, List.map_append, List.map_cons] at keys
    exact (List.nodup_cons.mp (List.nodup_append.mp keys).2.1).2
  have counted : back.length ≤ (namedKeys stretch).card := by
    rw [← List.length_map Prod.fst, ← List.toFinset_card_of_nodup distinct]
    apply Finset.card_le_card
    intro name member
    rcases List.mem_map.mp (List.mem_toFinset.mp member) with ⟨old, inside, rfl⟩
    exact named old inside
  have room : (((key, entry) :: back).length : ℚ) ≤ cache.maxSize := by
    rw [List.length_cons, Nat.cast_add_one]
    exact (add_le_add (Nat.cast_le.mpr counted) le_rfl).trans few
  rcases trimmed_append room front with ⟨kept, trimmed⟩
  rw [← entries] at trimmed
  exact ⟨kept, back, trimmed, named⟩

/-- Without the entry of another key, the own one is as recent as before. -/
theorem TtlCache.Recent.filtered {stretch : List (CacheCall β)}
    (recent : cache.Recent key entry stretch) (different : other ≠ key) :
    ∃ front back,
      cache.map.entries.filter (fun old => decide (old.1 ≠ other)) =
          front ++ (key, entry) :: back ∧
        ∀ old ∈ back, old.1 ∈ namedKeys stretch := by
  rcases recent with ⟨front, back, entries, named⟩
  refine ⟨front.filter (fun old => decide (old.1 ≠ other)),
    back.filter (fun old => decide (old.1 ≠ other)), ?_,
    fun old member => named old (List.mem_of_mem_filter member)⟩
  rw [entries, List.filter_append, List.filter_cons_of_pos]
  simpa using different.symm

theorem TtlCache.Recent.put {stretch : List (CacheCall β)}
    (recent : cache.Recent key entry stretch) (different : other ≠ key)
    (named : other ∈ namedKeys stretch) (fresh : Entry β) :
    (cache.put other fresh).Recent key entry stretch := by
  rcases recent.filtered different with ⟨front, back, entries, inside⟩
  refine ⟨front, back ++ [(other, fresh)], ?_, ?_⟩
  · rw [TtlCache.entries_put, entries, List.append_assoc, List.cons_append]
  · intro old member
    rcases List.mem_append.mp member with member | member
    · exact inside old member
    · cases List.mem_singleton.mp member
      exact named

/-- A call which names another key leaves few entries behind the own one. -/
theorem TtlCache.Recent.step {stretch : List (CacheCall β)}
    (recent : cache.Recent key entry stretch) {call : CacheCall β}
    (foreign : call.key? = some other) (different : other ≠ key)
    (few : ((namedKeys (stretch ++ [call])).card : ℚ) + 1 ≤ cache.maxSize) :
    (cache.step call).Recent key entry (stretch ++ [call]) := by
  have later : cache.Recent key entry (stretch ++ [call]) := by
    rcases recent with ⟨front, back, entries, named⟩
    refine ⟨front, back, entries, fun old member => ?_⟩
    have inside := named old member
    simp only [namedKeys, List.mem_toFinset, List.filterMap_append,
      List.mem_append] at inside ⊢
    exact Or.inl inside
  have own : other ∈ namedKeys (stretch ++ [call]) := by
    simp [namedKeys, foreign]
  cases call with
  | clear => cases foreign
  | get now other =>
    cases foreign
    rw [TtlCache.step, TtlCache.get]
    cases found : cache.map.get? other with
    | none => exact later
    | some fresh =>
      dsimp only
      split
      · exact later.filtered different
      · exact later.put different own fresh
  | set now other value ttl =>
    cases foreign
    exact (later.put different own _).trim few

/-- A key is used again before too many others were named. -/
def Spared (maxSize : ℚ) (key : String) (calls : List (CacheCall β)) : Prop :=
  ∀ stretch, stretch <:+: calls →
    (∀ call ∈ stretch, call.key? ≠ some key) →
      ((namedKeys stretch).card : ℚ) + 1 ≤ maxSize

/-- A call which leaves the value of a key, up to a time. -/
def CacheCall.Leaves (key : String) (expires : ℚ) : CacheCall β → Prop
  | .get now other => other = key → now ≤ expires
  | .set _ other _ _ => other ≠ key
  | .clear => False

theorem TtlCache.maxSize_step (cache : TtlCache β) (call : CacheCall β) :
    (cache.step call).maxSize = cache.maxSize := by
  cases call with
  | clear => rfl
  | set now key value ttl => rfl
  | get now key =>
    rw [TtlCache.step, TtlCache.get]
    cases cache.map.get? key with
    | none => rfl
    | some entry =>
      dsimp only
      split
      · rfl
      · rfl

theorem TtlCache.get_of_found {now : ℚ}
    (found : cache.map.get? key = some entry) (alive : now ≤ entry.expires) :
    cache.get now key = (some entry.value, cache.put key entry) := by
  rw [TtlCache.get, found]
  exact if_neg (not_lt.mpr alive)

/-- The entry of a key which is used often enough is never dropped. -/
theorem TtlCache.Recent.run {maxSize : ℚ} {stretch calls : List (CacheCall β)}
    (recent : cache.Recent key entry stretch) (sized : cache.maxSize = maxSize)
    (foreign : ∀ call ∈ stretch, call.key? ≠ some key)
    (spared : Spared maxSize key (stretch ++ calls))
    (leaves : ∀ call ∈ calls, call.Leaves key entry.expires) :
    (Run.run TtlCache.step cache calls).map.get? key = some entry := by
  induction calls generalizing cache stretch with
  | nil => exact recent.get?
  | cons call calls inductionHypothesis =>
    have stays : ∀ call ∈ calls, call.Leaves key entry.expires :=
      fun other member => leaves other (List.mem_cons_of_mem _ member)
    have size : (cache.step call).maxSize = maxSize :=
      (cache.maxSize_step call).trans sized
    have one := leaves call List.mem_cons_self
    by_cases own : call.key? = some key
    · have used : (cache.step call).Recent key entry [] := by
        cases call with
        | clear => cases own
        | set now other value ttl =>
          cases own
          exact absurd rfl one
        | get now other =>
          cases own
          rw [TtlCache.step, TtlCache.get_of_found recent.get? (one rfl)]
          exact cache.recent_put key entry
      refine inductionHypothesis used size (by simp) ?_ stays
      intro part within
      exact spared part (within.trans
        ((List.suffix_append_of_suffix (List.suffix_cons call calls)).isInfix))
    · have others : ∀ other ∈ stretch ++ [call], other.key? ≠ some key := by
        intro other member
        rcases List.mem_append.mp member with member | member
        · exact foreign other member
        · cases List.mem_singleton.mp member
          exact own
      rw [List.append_cons] at spared
      have few := spared (stretch ++ [call]) (List.prefix_append ..).isInfix others
      cases named : call.key? with
      | none =>
        cases call with
        | clear => cases one
        | set now other value ttl => cases named
        | get now other => cases named
      | some other =>
        have different : other ≠ key := fun same => own (same ▸ named)
        exact inductionHypothesis
          (recent.step named different (sized ▸ few)) size others spared stays

/-! ## What the cache promises -/

/-- What a cache promises after some calls. -/
structure TtlCache.Honest (maxSize ttlMs : ℚ) (calls : List (CacheCall β)) :
    Prop where
  few : ((TtlCache.after maxSize ttlMs calls).map.size : ℚ) ≤ max 0 maxSize
  /-- What is answered was set last under the key, and is still alive. -/
  answered : ∀ now key value,
    ((TtlCache.after maxSize ttlMs calls).get now key).1 = some value →
      ∃ expires, now ≤ expires ∧ SetLast ttlMs calls key ⟨value, expires⟩
  /-- What was set last and is still alive is answered, if it was used often
  enough. -/
  kept : ∀ before set key value ttl later now,
    calls = before ++ .set set key value ttl :: later →
    Spared maxSize key later →
    (∀ call ∈ later, call.Leaves key (set + ttl.getD ttlMs)) →
    now ≤ set + ttl.getD ttlMs →
      ((TtlCache.after maxSize ttlMs calls).get now key).1 = some value

/-- After any calls, the cache holds no more entries than it may, answers only
what was set last and has not expired, and forgets only what was used less
recently than as many other keys. -/
theorem ttlCache_honest (maxSize ttlMs : ℚ) (calls : List (CacheCall β)) :
    TtlCache.Honest maxSize ttlMs calls := by
  have fits := TtlCache.fits_after maxSize ttlMs calls
  refine ⟨fits.few, ?_, ?_⟩
  · intro now key value answered
    rw [TtlCache.get] at answered
    cases found : (TtlCache.after maxSize ttlMs calls).map.get? key with
    | none =>
      rw [found] at answered
      cases answered
    | some entry =>
      rw [found] at answered
      dsimp only at answered
      split at answered
      · cases answered
      · case isFalse alive =>
        cases answered
        exact ⟨entry.expires, not_lt.mp alive, fits.last key entry found⟩
  · rintro before set key value ttl later now rfl spared leaves alive
    have previous := TtlCache.fits_after maxSize ttlMs before
    have room : 1 ≤ (TtlCache.after maxSize ttlMs before).maxSize := by
      rw [previous.sized]
      simpa [namedKeys] using spared [] List.nil_infix (by simp)
    have recent := TtlCache.recent_set room set key value ttl
    rw [previous.lived] at recent
    have found := recent.run
      ((TtlCache.maxSize_step _ _).trans previous.sized) (by simp) spared leaves
    rw [TtlCache.after, Run.run_append, Run.run_cons]
    exact congrArg Prod.fst (TtlCache.get_of_found found alive)

end Cache

end Mendpoint.ChangeGraph
