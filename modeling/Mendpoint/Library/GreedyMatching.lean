import Mathlib.Data.List.Induction
import Mathlib.Data.List.Nodup

/-!
# Greedy matching with abstention

Sources are visited in order, and each is offered the targets which suit it
and which no earlier source has taken.  A single offer is taken when the link
is strong enough; several offers are left open for someone else to decide.

The question answered here is when a target which was left open for one source
is nevertheless taken by another.
-/

namespace Mendpoint.Library

universe u v

/-- Targets, and the two degrees to which a target can suit a source. -/
structure GreedyMatching (α : Type u) (β : Type v) where
  targets : List β
  admits : α → β → Bool
  confident : α → β → Bool

namespace GreedyMatching

/-- What becomes of one source. -/
inductive Verdict (β : Type v) where
  | abstains
  | takes (target : β)
  | leftOpen (offered : List β)

/-- The target which a verdict takes, if any. -/
def Verdict.target? {β : Type v} : Verdict β → Option β
  | .takes target => some target
  | _ => none

/-- The targets which a verdict leaves open, if any. -/
def Verdict.offered? {β : Type v} : Verdict β → Option (List β)
  | .leftOpen offered => some offered
  | _ => none

theorem Verdict.target?_eq_some_iff {β : Type v} (verdict : Verdict β)
    (target : β) :
    verdict.target? = some target ↔ verdict = .takes target := by
  cases verdict <;> simp [Verdict.target?]

theorem Verdict.offered?_eq_some_iff {β : Type v} (verdict : Verdict β)
    (offered : List β) :
    verdict.offered? = some offered ↔ verdict = .leftOpen offered := by
  cases verdict <;> simp [Verdict.offered?]

variable {α : Type u} {β : Type v} [DecidableEq β]
variable (matching : GreedyMatching α β)

/-- The plausible targets which are not in use. -/
def offers (used : List β) (source : α) : List β :=
  matching.targets.filter fun target =>
    decide (target ∉ used) && matching.admits source target

/-- One offer is taken if the link is strong; several are left open. -/
def verdict (used : List β) (source : α) : Verdict β :=
  match matching.offers used source with
  | [] => .abstains
  | [target] =>
    if matching.confident source target then .takes target else .abstains
  | first :: second :: rest => .leftOpen (first :: second :: rest)

/-- The targets in use after one more source. -/
def advance (used : List β) (source : α) : List β :=
  match matching.verdict used source with
  | .takes target => used ++ [target]
  | _ => used

/-- The targets in use after a list of sources. -/
def taken (sources : List α) : List β :=
  sources.foldl matching.advance []

/-! ## Verdicts and offers -/

theorem mem_offers (used : List β) (source : α) (target : β) :
    target ∈ matching.offers used source ↔
      target ∈ matching.targets ∧ target ∉ used ∧
        matching.admits source target = true := by
  simp [offers, List.mem_filter]

theorem verdict_takes_iff (used : List β) (source : α) (target : β) :
    matching.verdict used source = .takes target ↔
      matching.offers used source = [target] ∧
        matching.confident source target = true := by
  rw [verdict]
  split
  · next none => simp [none]
  · next only single =>
      rw [single]
      by_cases strong : matching.confident source only = true
      · simp only [strong, if_true, Verdict.takes.injEq, List.cons.injEq,
          and_true]
        constructor
        · rintro rfl
          exact ⟨rfl, strong⟩
        · exact fun both => both.1
      · simp only [strong, Bool.false_eq_true, if_false, reduceCtorEq,
          List.cons.injEq, and_true, false_iff, not_and]
        rintro rfl
        exact strong
  · next first second rest several => simp [several]

theorem verdict_leftOpen_iff (used : List β) (source : α)
    (offered : List β) :
    matching.verdict used source = .leftOpen offered ↔
      matching.offers used source = offered ∧ 2 ≤ offered.length := by
  rw [verdict]
  split
  · next none =>
      rw [none]
      constructor
      · intro impossible
        cases impossible
      · rintro ⟨rfl, many⟩
        simp at many
  · next only single =>
      rw [single]
      constructor
      · split <;> intro impossible <;> cases impossible
      · rintro ⟨rfl, many⟩
        simp at many
  · next first second rest several =>
      rw [several, Verdict.leftOpen.injEq]
      constructor
      · rintro rfl
        exact ⟨rfl, by simp⟩
      · exact fun both => both.1

theorem taken_append_single (earlier : List α) (source : α) :
    matching.taken (earlier ++ [source]) =
      matching.advance (matching.taken earlier) source := by
  rw [taken, taken, List.foldl_append, List.foldl_cons, List.foldl_nil]

/-! ## Runs over the sources -/

/-- The verdict on each source, from the targets in use so far. -/
def rulingsFrom (used : List β) : List α → List (α × Verdict β)
  | [] => []
  | source :: rest =>
    (source, matching.verdict used source) ::
      rulingsFrom (matching.advance used source) rest

/-- The verdict on each of a list of sources. -/
def rulings (sources : List α) : List (α × Verdict β) :=
  matching.rulingsFrom [] sources

theorem rulingsFrom_append (used : List β) (earlier later : List α) :
    matching.rulingsFrom used (earlier ++ later) =
      matching.rulingsFrom used earlier ++
        matching.rulingsFrom (earlier.foldl matching.advance used)
          later := by
  induction earlier generalizing used with
  | nil => rfl
  | cons source rest inductionHypothesis =>
    rw [List.cons_append, rulingsFrom, rulingsFrom, inductionHypothesis,
      List.foldl_cons, List.cons_append]

theorem rulings_append_single (earlier : List α) (source : α) :
    matching.rulings (earlier ++ [source]) =
      matching.rulings earlier ++
        [(source, matching.verdict (matching.taken earlier) source)] := by
  rw [rulings, rulingsFrom_append]
  rfl

theorem mem_rulings_iff (sources : List α) (source : α)
    (verdict : Verdict β) :
    (source, verdict) ∈ matching.rulings sources ↔
      ∃ earlier later, sources = earlier ++ source :: later ∧
        matching.verdict (matching.taken earlier) source = verdict := by
  constructor
  · intro member
    induction sources using List.reverseRecOn with
    | nil => cases member
    | append_singleton earlier last inductionHypothesis =>
      rw [rulings_append_single, List.mem_append,
        List.mem_singleton] at member
      rcases member with before | here
      · rcases inductionHypothesis before with
          ⟨front, back, rfl, ruled⟩
        exact ⟨front, back ++ [last], by simp, ruled⟩
      · cases here
        exact ⟨earlier, [], rfl, rfl⟩
  · rintro ⟨earlier, later, rfl, rfl⟩
    rw [rulings, rulingsFrom_append, List.mem_append]
    right
    rw [rulingsFrom]
    exact List.mem_cons_self

theorem rulings_map_fst (sources : List α) :
    (matching.rulings sources).map Prod.fst = sources := by
  induction sources using List.reverseRecOn with
  | nil => rfl
  | append_singleton earlier source inductionHypothesis =>
    rw [rulings_append_single, List.map_append, inductionHypothesis]
    rfl

variable {sources : List α} {source : α}

theorem mem_sources_of_ruling {verdict : Verdict β}
    (ruled : (source, verdict) ∈ matching.rulings sources) :
    source ∈ sources := by
  rw [← matching.rulings_map_fst sources]
  exact List.mem_map.mpr ⟨_, ruled, rfl⟩

theorem ruling_unique (distinct : sources.Nodup) {left right : Verdict β}
    (one : (source, left) ∈ matching.rulings sources)
    (two : (source, right) ∈ matching.rulings sources) : left = right := by
  rw [← matching.rulings_map_fst sources] at distinct
  exact congrArg Prod.snd
    (List.inj_on_of_nodup_map distinct one two rfl)

theorem mem_targets_of_takes {target : β}
    (ruled : (source, Verdict.takes target) ∈ matching.rulings sources) :
    target ∈ matching.targets := by
  rcases (matching.mem_rulings_iff _ _ _).mp ruled with
    ⟨earlier, later, split, takes⟩
  have offered := ((matching.verdict_takes_iff _ _ _).mp takes).1
  have member : target ∈
      matching.offers (matching.taken earlier) source := by
    rw [offered]
    exact List.mem_singleton_self target
  exact ((matching.mem_offers _ _ _).mp member).1

theorem mem_targets_of_leftOpen {offered : List β}
    (ruled : (source, Verdict.leftOpen offered) ∈ matching.rulings sources)
    {target : β} (member : target ∈ offered) : target ∈ matching.targets := by
  rcases (matching.mem_rulings_iff _ _ _).mp ruled with
    ⟨earlier, later, split, leftOpen⟩
  rw [verdict_leftOpen_iff] at leftOpen
  rw [← leftOpen.1] at member
  exact ((matching.mem_offers _ _ _).mp member).1

theorem taken_eq_filterMap (sources : List α) :
    matching.taken sources =
      (matching.rulings sources).filterMap
        fun ruling => ruling.2.target? := by
  induction sources using List.reverseRecOn with
  | nil => rfl
  | append_singleton earlier source inductionHypothesis =>
    rw [taken_append_single, rulings_append_single,
      List.filterMap_append, ← inductionHypothesis, advance]
    split
    · next target takes => simp [takes, Verdict.target?]
    · next different =>
        cases ruled : matching.verdict (matching.taken earlier) source with
        | abstains => simp [Verdict.target?]
        | takes target => exact absurd ruled (different target)
        | leftOpen offered => simp [Verdict.target?]

theorem mem_taken_iff (sources : List α) (target : β) :
    target ∈ matching.taken sources ↔
      ∃ earlier source later, sources = earlier ++ source :: later ∧
        matching.verdict (matching.taken earlier) source =
          .takes target := by
  rw [taken_eq_filterMap, List.mem_filterMap]
  constructor
  · rintro ⟨⟨source, ruled⟩, member, chosen⟩
    rcases (matching.mem_rulings_iff _ _ _).mp member with
      ⟨earlier, later, split, equal⟩
    rw [Verdict.target?_eq_some_iff] at chosen
    exact ⟨earlier, source, later, split, equal.trans chosen⟩
  · rintro ⟨earlier, source, later, split, takes⟩
    exact ⟨(source, .takes target),
      (matching.mem_rulings_iff _ _ _).mpr ⟨earlier, later, split, takes⟩,
      rfl⟩

theorem nodup_taken (sources : List α) :
    (matching.taken sources).Nodup := by
  induction sources using List.reverseRecOn with
  | nil => exact List.nodup_nil
  | append_singleton earlier source inductionHypothesis =>
    rw [taken_append_single, advance]
    split
    · next target takes =>
        have offered := (matching.verdict_takes_iff _ _ _).mp takes
        have member : target ∈ matching.offers (matching.taken earlier)
            source := by
          rw [offered.1]
          exact List.mem_singleton_self target
        have unused := ((matching.mem_offers _ _ _).mp member).2.1
        rw [List.nodup_append]
        refine ⟨inductionHypothesis, List.nodup_singleton target, ?_⟩
        intro old used new single equal
        rw [List.mem_singleton] at single
        rw [equal, single] at used
        exact unused used
    · exact inductionHypothesis

/-- No source takes a target which an earlier source left open. -/
def Undisputed (sources : List α) : Prop :=
  ∀ before first between second after target,
    sources = before ++ first :: (between ++ second :: after) →
    2 ≤ (matching.offers (matching.taken before) first).length →
    matching.offers
        (matching.taken (before ++ first :: between)) second = [target] →
    matching.confident second target = true →
    target ∉ matching.offers (matching.taken before) first

theorem places {front back left right : List α} {first second : α}
    (one : sources = front ++ first :: back)
    (two : sources = left ++ second :: right) :
    (front = left ∧ first = second) ∨
      (∃ between, left = front ++ first :: between) ∨
      ∃ between, front = left ++ second :: between := by
  rw [one] at two
  rcases List.append_eq_append_iff.mp two with
    ⟨between, atLeft, atRight⟩ | ⟨between, atLeft, atRight⟩
  · cases between with
    | nil =>
      rw [List.nil_append, List.cons.injEq] at atRight
      exact Or.inl ⟨by rw [atLeft, List.append_nil], atRight.1⟩
    | cons head rest =>
      rw [List.cons_append, List.cons.injEq] at atRight
      rw [← atRight.1] at atLeft
      exact Or.inr (Or.inl ⟨rest, atLeft⟩)
  · cases between with
    | nil =>
      rw [List.nil_append, List.cons.injEq] at atRight
      exact Or.inl ⟨by rw [atLeft, List.append_nil], atRight.1.symm⟩
    | cons head rest =>
      rw [List.cons_append, List.cons.injEq] at atRight
      rw [← atRight.1] at atLeft
      exact Or.inr (Or.inr ⟨rest, atLeft⟩)

/--
The targets left open for some source are free of targets taken by others
exactly when no later source takes what an earlier one left open.
-/
theorem undisputed_iff (sources : List α) :
    matching.Undisputed sources ↔
      ∀ source offered,
        (source, Verdict.leftOpen offered) ∈ matching.rulings sources →
        ∀ target ∈ offered, target ∉ matching.taken sources := by
  constructor
  · intro undisputed source offered ruled target member used
    rcases (matching.mem_rulings_iff _ _ _).mp ruled with
      ⟨front, back, split, leftOpen⟩
    rw [verdict_leftOpen_iff] at leftOpen
    rcases leftOpen with ⟨rfl, many⟩
    rcases (matching.mem_taken_iff sources target).mp used with
      ⟨left, taker, right, place, takes⟩
    rcases places split place with
      ⟨rfl, rfl⟩ | ⟨between, rfl⟩ | ⟨between, rfl⟩
    · rw [verdict_takes_iff] at takes
      rw [takes.1] at many
      simp at many
    · rw [verdict_takes_iff] at takes
      refine undisputed front source between taker right target ?_ many
        takes.1 takes.2 member
      rw [place]
      simp
    · have unused := ((matching.mem_offers _ _ _).mp member).2.1
      apply unused
      rw [mem_taken_iff]
      exact ⟨left, taker, between, rfl, takes⟩
  · intro separate before first between second after target split many
      single strong member
    have leftOpen := (matching.verdict_leftOpen_iff _ _ _).mpr ⟨rfl, many⟩
    have ruled := (matching.mem_rulings_iff _ _ _).mpr
      ⟨before, _, split, leftOpen⟩
    apply separate first _ ruled target member
    rw [mem_taken_iff]
    refine ⟨before ++ first :: between, second, after, ?_, ?_⟩
    · rw [split]
      simp
    · exact (matching.verdict_takes_iff _ _ _).mpr ⟨single, strong⟩

end GreedyMatching

end Mendpoint.Library
