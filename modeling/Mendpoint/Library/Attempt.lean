import Mathlib.Tactic.Common

/-!
# Computations on a state which may fail

A failing computation keeps what it has written so far; a transaction undoes
it.  `Yields` says that a computation succeeds, with its value and the state
afterwards, and its rules take a computation apart into what each of its
parts did.
-/

namespace Mendpoint.Library

universe u

variable {σ ε α β : Type u}

/-- A computation on a state which may fail. -/
abbrev Attempt (σ ε α : Type u) : Type u :=
  ExceptT ε (StateM σ) α

namespace Attempt

/-- What a computation answers from a state, and the state afterwards. -/
def outcome (computation : Attempt σ ε α) (state : σ) : Except ε α × σ :=
  computation.run.run state

/-- A computation succeeds with a value, in a state afterwards. -/
def Yields (computation : Attempt σ ε α) (state : σ) (value : α)
    (after : σ) : Prop :=
  outcome computation state = (.ok value, after)

/-- A computation fails, in a state afterwards. -/
def Fails (computation : Attempt σ ε α) (state : σ) (failure : ε)
    (after : σ) : Prop :=
  outcome computation state = (.error failure, after)

/-- Fail where a condition holds. -/
def rejectIf (condition : Prop) [Decidable condition] (failure : ε) :
    Except ε PUnit :=
  if condition then .error failure else .ok ⟨⟩

/-- The value which is there, or a failure. -/
def demand (found : Option α) (failure : ε) : Except ε α :=
  match found with
  | some value => .ok value
  | none => .error failure

/-- Commit the state after a success, and go back to the one before. -/
def settle (state : σ) : Except ε α × σ → Except ε α × σ
  | (.ok value, after) => (.ok value, after)
  | (.error failure, _) => (.error failure, state)

/-- Undo what a failing computation has written. -/
def transaction (body : Attempt σ ε α) : Attempt σ ε α :=
  ExceptT.mk fun state => settle state (outcome body state)

/-! ## What the parts of a computation did -/

variable {value : α} {state after : σ} {next : α → Attempt σ ε β}
  {result : β} {failure : ε} {answer : Except ε α}
  {computation : Attempt σ ε α}

theorem yields_pure {result : α} :
    Yields (pure value : Attempt σ ε α) state result after ↔
      value = result ∧ state = after := by
  constructor
  · intro yields
    cases yields
    exact ⟨rfl, rfl⟩
  · rintro ⟨rfl, rfl⟩
    rfl

theorem outcome_bind (first : Attempt σ ε α) (next : α → Attempt σ ε β)
    (state : σ) :
    outcome (first >>= next) state =
      match outcome first state with
      | (.ok value, middle) => outcome (next value) middle
      | (.error failure, middle) => (.error failure, middle) := by
  show (ExceptT.bindCont next (first state).1 (first state).2) = _
  rw [outcome]
  show _ = match first state with
    | (.ok value, middle) => outcome (next value) middle
    | (.error failure, middle) => (.error failure, middle)
  rcases first state with ⟨answer, middle⟩
  cases answer with
  | ok value => rfl
  | error failure => rfl

theorem outcome_get_bind {next : σ → Attempt σ ε α} :
    outcome (get >>= next) state = outcome (next state) state := rfl

theorem outcome_tryCatch (computation : Attempt σ ε α)
    (handle : ε → Attempt σ ε α) (state : σ) :
    outcome (tryCatch computation handle) state =
      match outcome computation state with
      | (.ok value, after) => (.ok value, after)
      | (.error failure, after) => outcome (handle failure) after := by
  rw [outcome]
  show (ExceptT.tryCatch computation handle) state = _
  unfold ExceptT.tryCatch
  rw [outcome]
  show (match computation state with
    | (answer, after) => (match answer with
       | Except.ok value => (pure (Except.ok value) : StateM σ (Except ε α))
       | Except.error failure => handle failure) after) =
    match computation state with
    | (Except.ok value, after) => (Except.ok value, after)
    | (Except.error failure, after) => outcome (handle failure) after
  rcases computation state with ⟨answer, after⟩
  cases answer with
  | ok value => rfl
  | error failure => rfl

theorem yields_bind {first : Attempt σ ε α} :
    Yields (first >>= next) state result after ↔
      ∃ value middle, Yields first state value middle ∧
        Yields (next value) middle result after := by
  rw [Yields, outcome_bind]
  constructor
  · intro same
    cases answered : outcome first state with
    | mk answer middle =>
      rw [answered] at same
      cases answer with
      | ok value => exact ⟨value, middle, answered, same⟩
      | error failure => cases same
  · rintro ⟨value, middle, yields, later⟩
    rw [yields]
    exact later

theorem fails_bind {first : Attempt σ ε α} :
    Fails (first >>= next) state failure after ↔
      Fails first state failure after ∨
        ∃ value middle, Yields first state value middle ∧
          Fails (next value) middle failure after := by
  rw [Fails, outcome_bind, Fails]
  constructor
  · intro same
    cases answered : outcome first state with
    | mk answer middle =>
      rw [answered] at same
      cases answer with
      | ok value => exact .inr ⟨value, middle, answered, same⟩
      | error other =>
        cases same
        exact .inl rfl
  · rintro (same | ⟨value, middle, yields, later⟩)
    · rw [same]
    · rw [yields]
      exact later

theorem not_yields_throw {result : α} :
    ¬ Yields (throw failure : Attempt σ ε α) state result after := by
  intro yields
  cases yields

theorem yields_get {value : σ} :
    Yields (get : Attempt σ ε σ) state value after ↔
      state = value ∧ state = after := by
  constructor
  · intro yields
    cases yields
    exact ⟨rfl, rfl⟩
  · rintro ⟨rfl, rfl⟩
    rfl

theorem yields_modify {change : σ → σ} {value : PUnit} :
    Yields (modify change : Attempt σ ε PUnit) state value after ↔
      change state = after := by
  constructor
  · intro yields
    cases yields
    rfl
  · rintro rfl
    rfl

theorem yields_set {written : σ} {value : PUnit} :
    Yields (set written : Attempt σ ε PUnit) state value after ↔
      written = after := by
  constructor
  · intro yields
    cases yields
    rfl
  · rintro rfl
    rfl

theorem yields_lift :
    Yields (liftM answer : Attempt σ ε α) state value after ↔
      answer = .ok value ∧ state = after := by
  cases answer with
  | ok found =>
    constructor
    · intro yields
      cases yields
      exact ⟨rfl, rfl⟩
    · rintro ⟨same, rfl⟩
      cases same
      rfl
  | error failure =>
    constructor
    · intro yields
      cases yields
    · rintro ⟨impossible, _⟩
      cases impossible

theorem yields_get_bind {next : σ → Attempt σ ε α} :
    Yields (get >>= next) state value after ↔
      Yields (next state) state value after := by
  rw [yields_bind]
  constructor
  · rintro ⟨here, middle, got, rest⟩
    rcases yields_get.mp got with ⟨rfl, rfl⟩
    exact rest
  · exact fun rest => ⟨state, state, yields_get.mpr ⟨rfl, rfl⟩, rest⟩

theorem yields_lift_bind :
    Yields (liftM answer >>= next) state result after ↔
      ∃ value, answer = .ok value ∧
        Yields (next value) state result after := by
  rw [yields_bind]
  constructor
  · rintro ⟨value, middle, lifted, rest⟩
    rcases yields_lift.mp lifted with ⟨answered, rfl⟩
    exact ⟨value, answered, rest⟩
  · rintro ⟨value, answered, rest⟩
    exact ⟨value, state, yields_lift.mpr ⟨answered, rfl⟩, rest⟩

theorem rejectIf_eq_ok {condition : Prop} [Decidable condition]
    {value : PUnit} :
    rejectIf condition failure = .ok value ↔ ¬ condition := by
  rw [rejectIf]
  split
  · next holds =>
      constructor
      · intro impossible
        cases impossible
      · exact fun fails => absurd holds fails
  · next fails => exact ⟨fun _ => fails, fun _ => rfl⟩

theorem demand_eq_ok {found : Option α} :
    demand found failure = .ok value ↔ found = some value := by
  cases found with
  | none =>
    constructor
    · intro impossible
      cases impossible
    · intro impossible
      cases impossible
  | some there =>
    constructor
    · intro same
      cases same
      rfl
    · intro same
      cases same
      rfl

/-! ## Transactions -/

theorem yields_transaction {body : Attempt σ ε α} :
    Yields (transaction body) state value after ↔
      Yields body state value after := by
  show settle state (outcome body state) = _ ↔ outcome body state = _
  rcases outcome body state with ⟨answer, middle⟩
  cases answer with
  | ok found => exact Iff.rfl
  | error failure =>
    constructor
    · intro impossible
      cases impossible
    · intro impossible
      cases impossible

/-- A computation leaves the state as it is wherever it fails. -/
def Undoes (computation : Attempt σ ε α) : Prop :=
  ∀ state failure after, outcome computation state = (.error failure, after) →
    after = state

theorem undoes_transaction (body : Attempt σ ε α) :
    Undoes (transaction body) := by
  intro state failure after failed
  have settled : settle state (outcome body state) =
      (.error failure, after) := failed
  generalize outcome body state = answered at settled
  rcases answered with ⟨answer, middle⟩
  cases answer with
  | ok found => cases settled
  | error other =>
    cases settled
    rfl

theorem undoes_lift_bind
    (undoes : ∀ value, answer = .ok value → Undoes (next value)) :
    Undoes ((liftM answer : Attempt σ ε α) >>= next) := by
  intro state failure after failed
  rw [outcome_bind] at failed
  cases answer with
  | ok value => exact undoes value rfl state failure after failed
  | error other =>
    cases failed
    rfl

theorem undoes_get_bind {next : σ → Attempt σ ε α}
    (undoes : ∀ state, Undoes (next state)) : Undoes (get >>= next) := by
  intro state failure after failed
  rw [outcome_bind] at failed
  exact undoes state state failure after failed

theorem undoes_pure (value : α) : Undoes (pure value : Attempt σ ε α) := by
  intro state failure after failed
  cases failed

theorem undoes_throw (failure : ε) :
    Undoes (throw failure : Attempt σ ε α) := by
  intro state other after failed
  cases failed
  rfl

theorem undoes_modify_pure (change : σ → σ) (value : α) :
    Undoes (modify change >>= fun _ => pure value : Attempt σ ε α) := by
  intro state failure after failed
  rw [outcome_bind] at failed
  cases failed

theorem undoes_map (change : α → β) (undoes : Undoes computation) :
    Undoes (change <$> computation) := by
  intro state failure after failed
  rw [map_eq_pure_bind, outcome_bind] at failed
  cases answered : outcome computation state with
  | mk answer middle =>
    rw [answered] at failed
    cases answer with
    | ok value => cases failed
    | error other =>
      cases failed
      exact undoes state failure after answered

theorem yields_map {change : α → β} :
    Yields (change <$> computation) state result after ↔
      ∃ value, Yields computation state value after ∧
        change value = result := by
  rw [map_eq_pure_bind, yields_bind]
  constructor
  · rintro ⟨value, middle, yields, last⟩
    rcases yields_pure.mp last with ⟨same, rfl⟩
    exact ⟨value, yields, same⟩
  · rintro ⟨value, yields, same⟩
    exact ⟨value, after, yields, yields_pure.mpr ⟨same, rfl⟩⟩

theorem outcome_cases (undoes : Undoes computation) (state : σ) :
    (∃ value, Yields computation state value
        (outcome computation state).2) ∨
      (outcome computation state).2 = state := by
  cases answered : outcome computation state with
  | mk answer after =>
    cases answer with
    | ok value => exact .inl ⟨value, answered⟩
    | error failure => exact .inr (undoes state failure after answered)

/-! ## Two runs -/

/--
From states which are alike, two computations answer the same, and the states
afterwards are alike.
-/
def Agree (alike : σ → σ → Prop) (left right : Attempt σ ε α) : Prop :=
  ∀ one two, alike one two →
    (outcome left one).1 = (outcome right two).1 ∧
      alike (outcome left one).2 (outcome right two).2

section Agreement

variable {alike : σ → σ → Prop}

theorem agree_pure (value : α) :
    Agree alike (pure value : Attempt σ ε α) (pure value) :=
  fun _ _ holds => ⟨rfl, holds⟩

theorem agree_lift (answer : Except ε α) :
    Agree alike (liftM answer : Attempt σ ε α) (liftM answer) := by
  cases answer with
  | ok value => exact fun _ _ holds => ⟨rfl, holds⟩
  | error failure => exact fun _ _ holds => ⟨rfl, holds⟩

theorem agree_modify {change : σ → σ}
    (kept : ∀ one two, alike one two → alike (change one) (change two)) :
    Agree alike (modify change : Attempt σ ε PUnit) (modify change) :=
  fun one two holds => ⟨rfl, kept one two holds⟩

theorem agree_bind {first other : Attempt σ ε α}
    {next follow : α → Attempt σ ε β} (agree : Agree alike first other)
    (later : ∀ value, Agree alike (next value) (follow value)) :
    Agree alike (first >>= next) (other >>= follow) := by
  intro one two holds
  rcases agree one two holds with ⟨same, kept⟩
  rw [outcome_bind, outcome_bind]
  rcases here : outcome first one with ⟨answer, state⟩
  rcases there : outcome other two with ⟨reply, last⟩
  rw [here, there] at same kept
  cases (show answer = reply from same)
  cases answer with
  | ok value => exact later value state last kept
  | error failure => exact ⟨rfl, kept⟩

theorem agree_lift_bind {answer : Except ε α}
    {next follow : α → Attempt σ ε β}
    (later : ∀ value, answer = .ok value →
      Agree alike (next value) (follow value)) :
    Agree alike (liftM answer >>= next) (liftM answer >>= follow) := by
  cases answer with
  | ok value => exact later value rfl
  | error failure => exact fun _ _ holds => ⟨rfl, holds⟩

theorem agree_get_bind {next follow : σ → Attempt σ ε α}
    (later : ∀ one two, alike one two → Agree alike (next one) (follow two)) :
    Agree alike (get >>= next) (get >>= follow) :=
  fun one two holds => later one two holds one two holds

theorem agree_forM {visit revisit : β → Attempt σ ε PUnit} {items : List β}
    (round : ∀ item ∈ items, Agree alike (visit item) (revisit item)) :
    Agree alike (items.forM visit) (items.forM revisit) := by
  induction items with
  | nil => exact agree_pure PUnit.unit
  | cons first rest inductionHypothesis =>
    refine agree_bind (round first List.mem_cons_self) fun _ => ?_
    exact inductionHypothesis fun item member =>
      round item (List.mem_cons_of_mem _ member)

end Agreement

end Attempt

end Mendpoint.Library
