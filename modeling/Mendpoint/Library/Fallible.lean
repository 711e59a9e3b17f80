import Mathlib.Data.List.Forall2

/-!
# Computations which may fail

Inversion of `Except`: what must have happened before a computation succeeded.
-/

namespace Mendpoint.Library.Fallible

universe u v w

variable {ε : Type u} {α : Type v} {β : Type v}

theorem ok_bind (value : α) (next : α → Except ε β) :
    (Except.ok value >>= next) = next value := rfl

theorem error_bind (failure : ε) (next : α → Except ε β) :
    ((Except.error failure : Except ε α) >>= next) = .error failure := rfl

theorem bind_eq_ok {first : Except ε α} {next : α → Except ε β}
    {result : β} :
    (first >>= next) = .ok result ↔
      ∃ value, first = .ok value ∧ next value = .ok result := by
  cases first with
  | error failure =>
    constructor
    · intro impossible
      cases impossible
    · rintro ⟨value, impossible, _⟩
      cases impossible
  | ok value =>
    constructor
    · intro succeeded
      exact ⟨value, rfl, succeeded⟩
    · rintro ⟨other, same, succeeded⟩
      cases same
      exact succeeded

variable {failure : ε} {visit : α → Except ε β} {items : List α}
  {results : List β}

theorem bind_eq_error {first : Except ε α} {next : α → Except ε β} :
    (first >>= next) = .error failure ↔
      first = .error failure ∨
        ∃ value, first = .ok value ∧ next value = .error failure := by
  cases first with
  | error other =>
    constructor
    · intro failed
      cases failed
      exact Or.inl rfl
    · rintro (same | ⟨value, impossible, _⟩)
      · cases same
        rfl
      · cases impossible
  | ok value =>
    constructor
    · intro failed
      exact Or.inr ⟨value, rfl, failed⟩
    · rintro (impossible | ⟨other, same, failed⟩)
      · cases impossible
      · cases same
        exact failed

theorem exists_of_isOk {computation : Except ε α}
    (succeeds : computation.isOk = true) :
    ∃ value, computation = .ok value := by
  cases computation with
  | error failure => cases succeeds
  | ok value => exact ⟨value, rfl⟩

theorem pure_eq_ok {value result : α} :
    (pure value : Except ε α) = .ok result ↔ value = result :=
  Except.ok.injEq value result ▸ Iff.rfl

theorem mapM_eq_ok :
    items.mapM visit = .ok results ↔
      List.Forall₂ (fun item result => visit item = .ok result) items
        results := by
  induction items generalizing results with
  | nil =>
    rw [List.mapM_nil, pure_eq_ok, List.forall₂_nil_left_iff, eq_comm]
  | cons item rest inductionHypothesis =>
    rw [List.mapM_cons, bind_eq_ok, List.forall₂_cons_left_iff]
    constructor
    · rintro ⟨result, visited, others⟩
      rw [bind_eq_ok] at others
      rcases others with ⟨tail, traversed, same⟩
      rw [pure_eq_ok] at same
      exact ⟨result, tail, visited, inductionHypothesis.mp traversed,
        same.symm⟩
    · rintro ⟨result, tail, visited, traversed, rfl⟩
      refine ⟨result, visited, ?_⟩
      rw [bind_eq_ok]
      exact ⟨tail, inductionHypothesis.mpr traversed, rfl⟩

theorem forall_mem_of_mapM {fact : β → Prop}
    (succeeded : items.mapM visit = .ok results)
    (established : ∀ item ∈ items, ∀ result, visit item = .ok result → fact
      result) : ∀ result ∈ results, fact result := by
  rw [mapM_eq_ok] at succeeded
  induction succeeded with
  | nil => simp
  | cons visited _ inductionHypothesis =>
    intro result member
    rcases List.mem_cons.mp member with rfl | later
    · exact established _ List.mem_cons_self _ visited
    · apply inductionHypothesis _ result later
      intro item inside
      exact established item (List.mem_cons_of_mem _ inside)

theorem map_eq_of_mapM {γ : Type w} {before : α → γ} {after : β → γ}
    (succeeded : items.mapM visit = .ok results)
    (kept : ∀ item ∈ items, ∀ result, visit item = .ok result → after result
      = before item) : results.map after = items.map before := by
  rw [mapM_eq_ok] at succeeded
  induction succeeded with
  | nil => rfl
  | cons visited _ inductionHypothesis =>
    rw [List.map_cons, List.map_cons,
      kept _ List.mem_cons_self _ visited, inductionHypothesis]
    intro item inside
    exact kept item (List.mem_cons_of_mem _ inside)

/-! ## Validation -/

/-- `if (condition) throw failure`. -/
def throwIf (condition : Prop) [Decidable condition] (failure : ε) :
    Except ε PUnit :=
  if condition then .error failure else .ok ⟨⟩

theorem throwIf_eq_ok {condition : Prop} [Decidable condition]
    {value : PUnit} : throwIf condition failure = .ok value ↔ ¬ condition := by
  rw [throwIf]
  by_cases holds : condition
  · rw [if_pos holds]
    constructor
    · intro impossible
      cases impossible
    · exact fun not => absurd holds not
  · rw [if_neg holds]
    exact ⟨fun _ => holds, fun _ => rfl⟩

theorem throwIf_of_not {condition : Prop} [Decidable condition]
    (fails : ¬ condition) : throwIf condition failure = .ok ⟨⟩ :=
  throwIf_eq_ok.mpr fails

theorem throwIf_eq_error {condition : Prop} [Decidable condition] {other : ε} :
    throwIf condition failure = .error other ↔
      condition ∧ failure = other := by
  rw [throwIf]
  by_cases holds : condition
  · rw [if_pos holds, Except.error.injEq, and_iff_right holds]
  · rw [if_neg holds]
    constructor
    · intro impossible
      cases impossible
    · exact fun both => absurd both.1 holds

theorem bind_ne_error {first : Except ε α} {next : α → Except ε β}
    (spared : first ≠ .error failure)
    (later : ∀ value, first = .ok value → next value ≠ .error failure) :
    first >>= next ≠ .error failure := by
  intro failed
  rcases bind_eq_error.mp failed with here | ⟨value, passed, there⟩
  · exact spared here
  · exact later value passed there

theorem throwIf_ne_error {condition : Prop} [Decidable condition] {other : ε}
    (apart : failure ≠ other) : throwIf condition failure ≠ .error other :=
  fun failed => apart (throwIf_eq_error.mp failed).2

theorem exists_of_mapM_eq_error (failed : items.mapM visit = .error failure) :
    ∃ item ∈ items, visit item = .error failure := by
  induction items with
  | nil => cases failed
  | cons item rest inductionHypothesis =>
    rw [List.mapM_cons, bind_eq_error] at failed
    rcases failed with first | ⟨value, _, others⟩
    · exact ⟨item, List.mem_cons_self, first⟩
    · rw [bind_eq_error] at others
      rcases others with later | ⟨values, _, impossible⟩
      · rcases inductionHypothesis later with ⟨found, inside, fails⟩
        exact ⟨found, List.mem_cons_of_mem _ inside, fails⟩
      · cases impossible

theorem forM_eq_ok {visit : α → Except ε PUnit} {value : PUnit} :
    items.forM visit = .ok value ↔ ∀ item ∈ items, visit item = .ok ⟨⟩ := by
  induction items with
  | nil => exact ⟨fun _ => List.forall_mem_nil _, fun _ => rfl⟩
  | cons item rest inductionHypothesis =>
    rw [List.forall_mem_cons]
    show (visit item >>= fun _ => rest.forM visit) = .ok value ↔ _
    rw [bind_eq_ok]
    constructor
    · rintro ⟨_, visited, others⟩
      exact ⟨visited, inductionHypothesis.mp others⟩
    · rintro ⟨visited, others⟩
      exact ⟨⟨⟩, visited, inductionHypothesis.mpr others⟩

section Distinct

variable {κ : Type w} [DecidableEq κ]

/-- A loop which fails at the second item of a key; `seen` are the keys. -/
def eachOnce (key : α → κ) (failure : ε) (before after : α → Except ε PUnit) :
    List κ → List α → Except ε PUnit
  | _, [] => .ok ⟨⟩
  | seen, item :: rest => do
      before item
      throwIf (key item ∈ seen) failure
      after item
      eachOnce key failure before after (key item :: seen) rest

theorem eachOnce_eq_ok {key : α → κ} {before after : α → Except ε PUnit}
    {seen : List κ} {value : PUnit} :
    eachOnce key failure before after seen items = .ok value ↔
      (∀ item ∈ items, before item = .ok ⟨⟩ ∧ after item = .ok ⟨⟩) ∧
        (items.map key).Nodup ∧ ∀ item ∈ items, key item ∉ seen := by
  induction items generalizing seen with
  | nil => simp [eachOnce]
  | cons item rest inductionHypothesis =>
    rw [eachOnce, bind_eq_ok, List.forall_mem_cons, List.forall_mem_cons,
      List.map_cons, List.nodup_cons]
    constructor
    · rintro ⟨_, checked, succeeded⟩
      rw [bind_eq_ok] at succeeded
      rcases succeeded with ⟨_, isNew, succeeded⟩
      rw [bind_eq_ok] at succeeded
      rcases succeeded with ⟨_, visited, others⟩
      rcases inductionHypothesis.mp others with ⟨all, distinct, apart⟩
      refine ⟨⟨⟨checked, visited⟩, all⟩, ⟨?_, distinct⟩,
        throwIf_eq_ok.mp isNew, ?_⟩
      · intro member
        rcases List.mem_map.mp member with ⟨other, inside, same⟩
        exact apart other inside (same ▸ List.mem_cons_self)
      · intro other inside known
        exact apart other inside (List.mem_cons_of_mem _ known)
    · rintro ⟨⟨⟨checked, visited⟩, all⟩, ⟨single, distinct⟩, isNew, apart⟩
      refine ⟨⟨⟩, checked, ?_⟩
      rw [bind_eq_ok]
      refine ⟨⟨⟩, throwIf_eq_ok.mpr isNew, ?_⟩
      rw [bind_eq_ok]
      refine ⟨⟨⟩, visited, inductionHypothesis.mpr ⟨all, distinct, ?_⟩⟩
      intro other inside known
      rcases List.mem_cons.mp known with same | earlier
      · exact single (List.mem_map.mpr ⟨other, inside, same⟩)
      · exact apart other inside earlier

end Distinct

end Mendpoint.Library.Fallible
