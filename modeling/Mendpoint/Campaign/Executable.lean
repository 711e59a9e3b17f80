import Mendpoint.Campaign.Rollout
import Mendpoint.Library.DependencyWaves

/-!
# When a plan can be carried out

Every cohort of a plan has an open window, and what its targets need is in
earlier cohorts.  The windows of different cohorts are not compared: instants
in the order of the cohorts exist exactly when no cohort opens after a later
one has closed.
-/

namespace Mendpoint.Campaign

open Mendpoint.Library
open Mendpoint.Library.Attempt
open Mendpoint.Library.Fallible
open Mendpoint.Library.IsoTime

/-! ## Windows in time -/

/-- An instant is from one text on, and before another one. -/
def Between (start stop : String) (instant : Int) : Prop :=
  ∃ first ∈ Instant.parse? start, ∃ last ∈ Instant.parse? stop,
    first.ms ≤ instant ∧ instant < last.ms

def MaintenanceWindow.Holds (window : MaintenanceWindow) (instant : Int) :
    Prop :=
  Between window.start window.stop instant

def Cohort.Holds (cohort : Cohort) (instant : Int) : Prop :=
  Between cohort.notBefore cohort.notAfter instant

/-- One instant for each cohort, none before an earlier one. -/
def Executable (cohorts : List Cohort) : Prop :=
  ∃ instants : List Int, List.Forall₂ Cohort.Holds cohorts instants ∧
    instants.Pairwise (· ≤ ·)

/-- A cohort does not open after another one has closed. -/
def Cohort.OpensBefore (earlier later : Cohort) : Prop :=
  ∀ first ∈ Instant.parse? earlier.notBefore,
    ∀ last ∈ Instant.parse? later.notAfter, first.ms < last.ms

/-- The bounds of a cohort are instants, the first before the last. -/
def Cohort.IsOpen (cohort : Cohort) : Prop :=
  ∃ first ∈ Instant.parse? cohort.notBefore,
    ∃ last ∈ Instant.parse? cohort.notAfter, first.ms < last.ms

instance (earlier later : Cohort) :
    Decidable (earlier.OpensBefore later) :=
  inferInstanceAs (Decidable
    (∀ first ∈ Instant.parse? earlier.notBefore,
      ∀ last ∈ Instant.parse? later.notAfter, _ < _))

instance (cohort : Cohort) : Decidable cohort.IsOpen :=
  inferInstanceAs (Decidable
    (∃ first ∈ Instant.parse? cohort.notBefore,
      ∃ last ∈ Instant.parse? cohort.notAfter, _ < _))

/-- The bounds of a cohort in time. -/
def Cohort.bounds (cohort : Cohort) : Int × Int :=
  (((Instant.parse? cohort.notBefore).map Instant.ms).getD 0,
    ((Instant.parse? cohort.notAfter).map Instant.ms).getD 0)

theorem Cohort.IsOpen.holds_iff {cohort : Cohort} (isOpen : cohort.IsOpen)
    (instant : Int) : cohort.Holds instant ↔
      cohort.bounds.1 ≤ instant ∧ instant < cohort.bounds.2 := by
  rcases isOpen with ⟨first, parsedFirst, last, parsedLast, _⟩
  rw [Option.mem_def] at parsedFirst parsedLast
  rw [Cohort.Holds, Between, Cohort.bounds, parsedFirst, parsedLast]
  simp

variable {cohorts : List Cohort} {maxCohortSize : Int}

theorem forall₂_holds_iff {instants : List Int}
    (allOpen : ∀ cohort ∈ cohorts, cohort.IsOpen) :
    List.Forall₂ Cohort.Holds cohorts instants ↔
      List.Forall₂ (fun cohort instant => cohort.bounds.1 ≤ instant ∧
        instant < cohort.bounds.2) cohorts instants := by
  constructor
  · intro within
    induction within with
    | nil => exact .nil
    | cons holds _ inductionHypothesis =>
      rw [List.forall_mem_cons] at allOpen
      exact .cons ((allOpen.1.holds_iff _).mp holds)
        (inductionHypothesis allOpen.2)
  · intro within
    induction within with
    | nil => exact .nil
    | cons holds _ inductionHypothesis =>
      rw [List.forall_mem_cons] at allOpen
      exact .cons ((allOpen.1.holds_iff _).mpr holds)
        (inductionHypothesis allOpen.2)

theorem executable_iff (allOpen : ∀ cohort ∈ cohorts, cohort.IsOpen) :
    Executable cohorts ↔ cohorts.Pairwise Cohort.OpensBefore := by
  have scheduled : Executable cohorts ↔
      Schedulable (cohorts.map Cohort.bounds) := by
    rw [Executable, Schedulable]
    refine exists_congr fun instants => and_congr_left fun _ => ?_
    rw [List.forall₂_map_left_iff, forall₂_holds_iff allOpen]
  have wide : ∀ window ∈ cohorts.map Cohort.bounds,
      window.1 < window.2 := by
    rw [List.forall_mem_map]
    intro cohort member
    rcases allOpen cohort member with ⟨first, isFirst, last, isLast, before⟩
    rw [Option.mem_def] at isFirst isLast
    rw [Cohort.bounds, isFirst, isLast]
    exact before
  rw [scheduled, schedulable_iff, List.pairwise_map,
    and_iff_right wide]
  refine List.Pairwise.iff_of_mem fun {earlier later} inside within => ?_
  rcases allOpen earlier inside with ⟨first, isFirst, _, _, _⟩
  rcases allOpen later within with ⟨_, _, last, isLast, _⟩
  rw [Option.mem_def] at isFirst isLast
  rw [Cohort.OpensBefore, Cohort.bounds, Cohort.bounds, isFirst, isLast]
  simp

/-! ## The window of a cohort -/

/-- The bounds are those of some targets, and inside the windows of all. -/
structure Selection.Fits (selection : Selection) : Prop where
  startOf : ∃ item ∈ selection.selected,
    selection.notBefore = item.window.start
  stopOf : ∃ item ∈ selection.selected,
    selection.notAfter = item.window.stop
  starts : ∀ item ∈ selection.selected,
    Text.codeUnitLe item.window.start selection.notBefore = true
  stops : ∀ item ∈ selection.selected,
    Text.codeUnitLe selection.notAfter item.window.stop = true
  isOpen : Text.codeUnitLe selection.notAfter selection.notBefore = false

/-- The window of the targets of a cohort, or of its only target. -/
def Selection.Windowed (selection : Selection) : Prop :=
  selection.Fits ∨ ∃ item, selection.selected = [item] ∧
    selection.notBefore = item.window.start ∧
    selection.notAfter = item.window.stop

theorem codeUnitLe_total (left right : String) :
    Text.codeUnitLe left right = true ∨ Text.codeUnitLe right left = true :=
  Text.unitsLe_total _ _

theorem codeUnitLe_trans {left middle right : String}
    (first : Text.codeUnitLe left middle = true)
    (second : Text.codeUnitLe middle right = true) :
    Text.codeUnitLe left right = true :=
  Text.unitsLe_trans _ _ _ first second

theorem candidateStart_spec (notBefore start : String) :
    (candidateStart notBefore start = notBefore ∨
      candidateStart notBefore start = start) ∧
    Text.codeUnitLe notBefore (candidateStart notBefore start) = true ∧
    Text.codeUnitLe start (candidateStart notBefore start) = true := by
  have either := codeUnitLe_total notBefore start
  have selfBefore := codeUnitLe_total notBefore notBefore
  have selfStart := codeUnitLe_total start start
  rw [or_self] at selfBefore selfStart
  rw [candidateStart, textAfter]
  split
  · next after =>
      rw [Bool.not_eq_true'] at after
      rw [after] at either
      exact ⟨Or.inl rfl, selfBefore, either.resolve_left Bool.false_ne_true⟩
  · next before =>
      rw [Bool.not_eq_true', Bool.not_eq_false] at before
      exact ⟨Or.inr rfl, before, selfStart⟩

theorem candidateEnd_spec {notAfter : String} (stop : String)
    (nonempty : notAfter ≠ "") :
    (candidateEnd notAfter stop = notAfter ∨
      candidateEnd notAfter stop = stop) ∧
    Text.codeUnitLe (candidateEnd notAfter stop) notAfter = true ∧
    Text.codeUnitLe (candidateEnd notAfter stop) stop = true := by
  have either := codeUnitLe_total notAfter stop
  have selfAfter := codeUnitLe_total notAfter notAfter
  have selfStop := codeUnitLe_total stop stop
  rw [or_self] at selfAfter selfStop
  rw [candidateEnd, textAfter]
  split
  · next after =>
      have later := after.resolve_left nonempty
      rw [Bool.not_eq_true'] at later
      rw [later] at either
      exact ⟨Or.inr rfl, either.resolve_left Bool.false_ne_true, selfStop⟩
  · next before =>
      rw [not_or, Bool.not_eq_true', Bool.not_eq_false] at before
      exact ⟨Or.inl rfl, selfAfter, before.2⟩

theorem parse?_empty : Instant.parse? "" = none := by decide

theorem stop_ne_empty {window : MaintenanceWindow} (valid : window.Valid) :
    window.stop ≠ "" := by
  rcases valid with ⟨_, _, last, parsed, _⟩
  intro empty
  rw [empty, parse?_empty] at parsed
  cases parsed

theorem consider_fits {selection : Selection} {item : PlannedTarget}
    (valid : ∀ other ∈ selection.selected, other.window.Valid)
    (fits : selection = Selection.empty ∨ selection.Fits) :
    consider maxCohortSize selection item = Selection.empty ∨
      (consider maxCohortSize selection item).Fits := by
  rw [consider]
  split
  · exact fits
  split
  · exact fits
  split
  · exact fits
  next isOpen =>
    right
    rw [Bool.not_eq_true] at isOpen
    have self : ∀ text, Text.codeUnitLe text text = true := fun text =>
      (or_self _).mp (codeUnitLe_total text text)
    rcases fits with rfl | fits
    · have first : candidateStart "" item.window.start =
          item.window.start := by
        have empty : Text.codeUnits "" = [] := rfl
        rw [candidateStart, textAfter, Text.codeUnitLe, empty, unitsLe_nil]
        rfl
      have last : candidateEnd "" item.window.stop = item.window.stop :=
        if_pos (Or.inl rfl)
      simp only [Selection.empty] at isOpen ⊢
      rw [first, last] at isOpen ⊢
      exact {
        startOf := ⟨item, List.mem_singleton_self item, rfl⟩
        stopOf := ⟨item, List.mem_singleton_self item, rfl⟩
        starts := List.forall_mem_singleton.mpr (self _)
        stops := List.forall_mem_singleton.mpr (self _)
        isOpen := isOpen }
    · rcases fits.stopOf with ⟨ender, enderIn, ends⟩
      have nonempty : selection.notAfter ≠ "" := by
        rw [ends]
        exact stop_ne_empty (valid ender enderIn)
      rcases candidateStart_spec selection.notBefore item.window.start with
        ⟨oneStart, afterBefore, afterStart⟩
      rcases candidateEnd_spec item.window.stop nonempty with
        ⟨oneEnd, beforeAfter, beforeStop⟩
      have appended := List.mem_append_right selection.selected
        (List.mem_singleton_self item)
      refine ⟨?_, ?_, ?_, ?_, isOpen⟩
      · rcases oneStart with kept | taken
        · rcases fits.startOf with ⟨starter, starterIn, starts⟩
          exact ⟨starter, List.mem_append_left _ starterIn,
            kept.trans starts⟩
        · exact ⟨item, appended, taken⟩
      · rcases oneEnd with kept | taken
        · exact ⟨ender, List.mem_append_left _ enderIn, kept.trans ends⟩
        · exact ⟨item, appended, taken⟩
      · rw [List.forall_mem_append, List.forall_mem_singleton]
        exact ⟨fun other within =>
          codeUnitLe_trans (fits.starts other within) afterBefore,
          afterStart⟩
      · rw [List.forall_mem_append, List.forall_mem_singleton]
        exact ⟨fun other within =>
          codeUnitLe_trans beforeAfter (fits.stops other within),
          beforeStop⟩

theorem selected_consider (maxCohortSize : Int) (selection : Selection)
    (item : PlannedTarget) :
    (consider maxCohortSize selection item).selected = selection.selected ∨
      (consider maxCohortSize selection item).selected =
        selection.selected ++ [item] := by
  rw [consider]
  split
  · exact Or.inl rfl
  split
  · exact Or.inl rfl
  split
  · exact Or.inl rfl
  · exact Or.inr rfl

theorem foldl_consider_fits {maxCohortSize : Int} {selection : Selection}
    {ready : List PlannedTarget}
    (validSelected : ∀ other ∈ selection.selected, other.window.Valid)
    (valid : ∀ other ∈ ready, other.window.Valid)
    (fits : selection = Selection.empty ∨ selection.Fits) :
    ready.foldl (consider maxCohortSize) selection = Selection.empty ∨
      (ready.foldl (consider maxCohortSize) selection).Fits := by
  induction ready generalizing selection with
  | nil => exact fits
  | cons item rest inductionHypothesis =>
    rw [List.forall_mem_cons] at valid
    refine inductionHypothesis ?_ valid.2
      (consider_fits validSelected fits)
    rcases selected_consider maxCohortSize selection item with same | more
    · rw [same]
      exact validSelected
    · rw [more, List.forall_mem_append, List.forall_mem_singleton]
      exact ⟨validSelected, valid.1⟩

theorem foldl_consider_subset (maxCohortSize : Int)
    (selection : Selection) (ready : List PlannedTarget) :
    ∀ item ∈ (ready.foldl (consider maxCohortSize) selection).selected,
      item ∈ selection.selected ∨ item ∈ ready := by
  induction ready generalizing selection with
  | nil => exact fun item member => Or.inl member
  | cons first rest inductionHypothesis =>
    intro item member
    rcases inductionHypothesis _ item member with earlier | later
    · rcases selected_consider maxCohortSize selection first with
        same | more
      · rw [same] at earlier
        exact Or.inl earlier
      · rw [more, List.mem_append, List.mem_singleton] at earlier
        rcases earlier with before | rfl
        · exact Or.inl before
        · exact Or.inr List.mem_cons_self
    · exact Or.inr (List.mem_cons_of_mem _ later)

theorem selectCohort_spec {maxCohortSize : Int} {first : PlannedTarget}
    {rest : List PlannedTarget}
    (valid : ∀ item ∈ first :: rest, item.window.Valid) :
    (selectCohort maxCohortSize first (first :: rest)).selected ≠ [] ∧
      (∀ item ∈ (selectCohort maxCohortSize first
        (first :: rest)).selected, item ∈ first :: rest) ∧
      (selectCohort maxCohortSize first (first :: rest)).Windowed := by
  have fits := @foldl_consider_fits maxCohortSize Selection.empty
    (first :: rest) (List.forall_mem_nil _) valid (Or.inl rfl)
  have taken := foldl_consider_subset maxCohortSize Selection.empty
    (first :: rest)
  rw [selectCohort]
  generalize (first :: rest).foldl (consider maxCohortSize)
    Selection.empty = selection at fits taken ⊢
  cases selected : selection.selected with
  | nil =>
    refine ⟨List.cons_ne_nil _ _, ?_, Or.inr ⟨first, rfl, rfl, rfl⟩⟩
    exact List.forall_mem_singleton.mpr List.mem_cons_self
  | cons head tail =>
    refine ⟨by simp [selected], ?_, ?_⟩
    · intro item member
      exact (taken item member).resolve_left List.not_mem_nil
    · rcases fits with rfl | fits
      · cases selected
      · exact Or.inl fits

/-! ## Windows in time -/

theorem MaintenanceWindow.Valid.bounds {window : MaintenanceWindow}
    (valid : window.Valid) :
    ∃ first last : Instant, window.start = first.text ∧
      window.stop = last.text ∧ first.ms < last.ms := by
  rcases valid with ⟨first, isFirst, last, isLast, before⟩
  exact ⟨first, last, (Instant.text_of_parse? isFirst).symm,
    (Instant.text_of_parse? isLast).symm, before⟩

theorem between_text {first last : Instant} {instant : Int} :
    Between first.text last.text instant ↔
      first.ms ≤ instant ∧ instant < last.ms := by
  rw [Between]
  simp only [Instant.parse?_text, Option.mem_def, Option.some.injEq,
    exists_eq_left']

theorem Selection.Windowed.isOpen {selection : Selection}
    (windowed : selection.Windowed)
    (valid : ∀ item ∈ selection.selected, item.window.Valid)
    (sequence : Nat) : (selection.cohort sequence).IsOpen := by
  rw [Cohort.IsOpen]
  show ∃ first ∈ Instant.parse? selection.notBefore,
    ∃ last ∈ Instant.parse? selection.notAfter, first.ms < last.ms
  rcases windowed with fits | ⟨item, selected, start, stop⟩
  · rcases fits.startOf with ⟨starter, starterIn, starts⟩
    rcases fits.stopOf with ⟨ender, enderIn, ends⟩
    rcases (valid starter starterIn).bounds with ⟨high, _, isHigh, _, _⟩
    rcases (valid ender enderIn).bounds with ⟨first, last, isFirst, isLast,
      wide⟩
    have below := fits.starts ender enderIn
    have isOpen := fits.isOpen
    rw [starts, isHigh] at below isOpen
    rw [ends, isLast] at isOpen
    rw [isFirst] at below
    rw [starts, ends, isHigh, isLast, Instant.parse?_text,
      Instant.parse?_text]
    exact ⟨high, rfl, last, rfl, Instant.lt_of_textLe wide below
      (ne_true_of_eq_false isOpen)⟩
  · have isValid := valid item (selected ▸ List.mem_singleton_self item)
    rw [start, stop]
    exact isValid

/-- An instant of the window is one of the windows of all its targets. -/
def Selection.Inside (selection : Selection) : Prop :=
  ∀ sequence instant, (selection.cohort sequence).Holds instant →
    ∀ item ∈ selection.selected, item.window.Holds instant

/-- The year in which a window begins is not before year 0. -/
def MaintenanceWindow.Positive (window : MaintenanceWindow) : Prop :=
  ∀ first ∈ Instant.parse? window.start, 0 ≤ year first.ms

theorem Selection.Windowed.inside {selection : Selection}
    (windowed : selection.Windowed)
    (valid : ∀ item ∈ selection.selected, item.window.Valid)
    (positive : ∀ item ∈ selection.selected, item.window.Positive) :
    selection.Inside := by
  intro sequence instant holds item member
  change Between selection.notBefore selection.notAfter instant at holds
  rcases windowed with fits | ⟨only, selected, start, stop⟩
  · rcases fits.startOf with ⟨starter, starterIn, starts⟩
    rcases fits.stopOf with ⟨ender, enderIn, ends⟩
    rcases (valid starter starterIn).bounds with ⟨high, _, isHigh, _, _⟩
    rcases (valid ender enderIn).bounds with ⟨begins, last, isBegin, isLast,
      wideEnder⟩
    rcases (valid item member).bounds with ⟨first, stop, isFirst, isStop,
      wide⟩
    have below := fits.starts item member
    have above := fits.stops item member
    have isOpen := fits.isOpen
    rw [starts, isHigh] at below isOpen
    rw [ends, isLast] at above isOpen
    rw [isFirst] at below
    rw [isStop] at above
    have positiveHigh : 0 ≤ year high.ms :=
      positive starter starterIn high (isHigh ▸ Instant.parse?_text high)
    have positiveFirst : 0 ≤ year first.ms :=
      positive item member first (isFirst ▸ Instant.parse?_text first)
    have positiveBegin : 0 ≤ year begins.ms :=
      positive ender enderIn begins (isBegin ▸ Instant.parse?_text begins)
    have positiveLast : 0 ≤ year last.ms :=
      Int.le_trans positiveBegin (year_mono (Int.le_of_lt wideEnder))
    have notAfter := ne_true_of_eq_false isOpen
    rw [starts, ends, isHigh, isLast, between_text] at holds
    rw [MaintenanceWindow.Holds, isFirst, isStop, between_text]
    exact ⟨Int.le_trans (Instant.le_of_textLe wide below notAfter above
        positiveFirst positiveHigh) holds.1,
      Int.lt_of_lt_of_le holds.2 (Instant.last_le_of_textLe wide below
        notAfter above positiveFirst positiveHigh positiveLast)⟩
  · rw [selected, List.mem_singleton] at member
    rw [start, stop] at holds
    rw [member]
    exact holds

/-! ## The rounds -/

/-- The cohorts which the rounds over some remaining targets have made. -/
def Rounds : List String → List PlannedTarget → List Cohort → Prop
  | _, remaining, [] => remaining = []
  | scheduled, remaining, cohort :: rest =>
    ∃ (selection : Selection) (sequence : Nat),
      cohort = selection.cohort sequence ∧
      (∀ item ∈ selection.selected, item ∈ remaining ∧
        ∀ dependency ∈ item.target.dependsOn, dependency ∈ scheduled) ∧
      selection.Windowed ∧
      Rounds (scheduled ++ selection.selected.map PlannedTarget.id)
        (remaining.filter fun item =>
          decide (item.id ∉ selection.selected.map PlannedTarget.id)) rest

theorem mem_readyTargets {collation : Collation} {scheduled : List String}
    {remaining : List PlannedTarget} {item : PlannedTarget} :
    item ∈ readyTargets collation scheduled remaining ↔
      item ∈ remaining ∧
        ∀ dependency ∈ item.target.dependsOn, dependency ∈ scheduled := by
  rw [readyTargets, sortTargets, List.mem_insertionSort, List.mem_filter,
    List.all_eq_true]
  simp only [decide_eq_true_eq]

theorem rolloutCohorts_rounds {collation : Collation} {rounds sequence : Nat}
    {scheduled : List String} {remaining : List PlannedTarget}
    (valid : ∀ item ∈ remaining, item.window.Valid)
    (enough : remaining.length ≤ rounds)
    (planned : rolloutCohorts collation maxCohortSize rounds sequence
      scheduled remaining = .ok cohorts) :
    Rounds scheduled remaining cohorts := by
  induction rounds generalizing sequence scheduled remaining cohorts with
  | zero =>
    cases planned
    exact List.eq_nil_of_length_eq_zero (Nat.le_zero.mp enough)
  | succ rounds inductionHypothesis =>
    rw [rolloutCohorts] at planned
    split at planned
    · next empty =>
        cases planned
        exact List.isEmpty_iff.mp empty
    · next nonempty =>
        cases ready : readyTargets collation scheduled remaining with
        | nil =>
          rw [ready] at planned
          cases planned
        | cons first rest =>
          rw [ready] at planned
          simp only [bind_eq_ok, pure_eq_ok] at planned
          rcases planned with ⟨others, later, rfl⟩
          have isReady : ∀ item ∈ first :: rest, item ∈ remaining ∧
              ∀ dependency ∈ item.target.dependsOn,
                dependency ∈ scheduled := by
            intro item member
            rw [← ready] at member
            exact mem_readyTargets.mp member
          rcases @selectCohort_spec maxCohortSize _ _
            (fun item member => valid item (isReady item member).1) with
            ⟨some, taken, windowed⟩
          generalize selectCohort maxCohortSize first (first :: rest) =
            selection at later some taken windowed ⊢
          refine ⟨selection, sequence, rfl,
            fun item member => isReady item (taken item member),
            windowed, inductionHypothesis ?_ ?_ later⟩
          · intro item member
            exact valid item (List.mem_of_mem_filter member)
          · have fewer : (remaining.filter fun item => decide (item.id ∉
                selection.selected.map PlannedTarget.id)).length <
                remaining.length := by
              rcases List.exists_mem_of_ne_nil _ some with ⟨item, member⟩
              rw [List.length_filter_lt_length_iff_exists]
              refine ⟨item, (isReady item (taken item member)).1, ?_⟩
              rw [decide_eq_true_eq, not_not]
              exact List.mem_map_of_mem member
            omega

section OfRounds

variable {scheduled : List String} {remaining : List PlannedTarget}
  {cohorts : List Cohort}

theorem Rounds.isOpen
    (valid : ∀ item ∈ remaining, item.window.Valid)
    (rounds : Rounds scheduled remaining cohorts) :
    ∀ cohort ∈ cohorts, cohort.kind = .rollout ∧ cohort.IsOpen := by
  induction cohorts generalizing scheduled remaining with
  | nil => exact List.forall_mem_nil _
  | cons cohort rest inductionHypothesis =>
    rcases rounds with ⟨selection, sequence, rfl, taken, windowed, later⟩
    rw [List.forall_mem_cons]
    refine ⟨⟨rfl, windowed.isOpen
      (fun item member => valid item (taken item member).1) sequence⟩, ?_⟩
    refine inductionHypothesis (fun item member => ?_) later
    exact valid item (List.mem_of_mem_filter member)

theorem Rounds.covers (rounds : Rounds scheduled remaining cohorts) :
    ∀ item ∈ remaining, ∃ cohort ∈ cohorts, item.id ∈ cohort.targetIds := by
  induction cohorts generalizing scheduled remaining with
  | nil =>
    intro item member
    rw [Rounds] at rounds
    rw [rounds] at member
    cases member
  | cons cohort rest inductionHypothesis =>
    rcases rounds with ⟨selection, sequence, rfl, taken, windowed, later⟩
    intro item member
    by_cases selected :
        item.id ∈ selection.selected.map PlannedTarget.id
    · exact ⟨_, List.mem_cons_self, selected⟩
    · rcases inductionHypothesis later item (List.mem_filter.mpr
        ⟨member, decide_eq_true selected⟩) with ⟨cohort, inside, has⟩
      exact ⟨cohort, List.mem_cons_of_mem _ inside, has⟩

theorem Rounds.prerequisites (rounds : Rounds scheduled remaining cohorts)
    {before after : List Cohort} {cohort : Cohort}
    (at_ : cohorts = before ++ cohort :: after) :
    ∀ id ∈ cohort.targetIds, ∃ item ∈ remaining, item.id = id ∧
      ∀ dependency ∈ item.target.dependsOn, dependency ∈ scheduled ∨
        ∃ earlier ∈ before, dependency ∈ earlier.targetIds := by
  induction before generalizing scheduled remaining cohorts with
  | nil =>
    rw [at_] at rounds
    rcases rounds with ⟨selection, sequence, rfl, taken, windowed, later⟩
    intro id member
    rcases List.mem_map.mp member with ⟨item, inside, rfl⟩
    exact ⟨item, (taken item inside).1, rfl, fun dependency needed =>
      Or.inl ((taken item inside).2 dependency needed)⟩
  | cons first others inductionHypothesis =>
    rw [at_] at rounds
    rcases rounds with ⟨selection, sequence, rfl, taken, windowed, later⟩
    intro id member
    rcases inductionHypothesis later rfl id member with
      ⟨item, inside, named, needs⟩
    refine ⟨item, List.mem_of_mem_filter inside, named, ?_⟩
    intro dependency needed
    rcases needs dependency needed with known | ⟨earlier, within, has⟩
    · rcases List.mem_append.mp known with before | selected
      · exact Or.inl before
      · exact Or.inr ⟨_, List.mem_cons_self, selected⟩
    · exact Or.inr ⟨earlier, List.mem_cons_of_mem _ within, has⟩

theorem Rounds.inside {planned : List PlannedTarget}
    (rounds : Rounds scheduled remaining cohorts)
    (within : ∀ selection : Selection, selection.Windowed →
      (∀ item ∈ selection.selected, item ∈ planned) → selection.Inside)
    (distinct : (remaining.map PlannedTarget.id).Nodup)
    (known : ∀ item ∈ remaining, item ∈ planned) :
    ∀ cohort ∈ cohorts, ∀ item ∈ remaining, item.id ∈ cohort.targetIds →
      ∀ instant, cohort.Holds instant → item.window.Holds instant := by
  induction cohorts generalizing scheduled remaining with
  | nil => exact List.forall_mem_nil _
  | cons first rest inductionHypothesis =>
    rcases rounds with ⟨selection, sequence, rfl, taken, windowed, later⟩
    intro cohort member item inside has instant holds
    rcases List.mem_cons.mp member with rfl | other
    · rcases List.mem_map.mp has with ⟨chosen, selected, same⟩
      have equal : chosen = item := Table.eq_of_key distinct
        (taken chosen selected).1 inside same
      rw [← equal]
      exact within selection windowed
        (fun one member => known one (taken one member).1) sequence instant
        holds chosen selected
    · by_cases selected :
          item.id ∈ selection.selected.map PlannedTarget.id
      · rcases List.append_of_mem other with ⟨before, after, split⟩
        rcases later.prerequisites split item.id has with
          ⟨again, kept, named, _⟩
        rw [List.mem_filter, decide_eq_true_eq, named] at kept
        exact absurd selected kept.2
      · refine inductionHypothesis later
          (distinct.sublist (List.filter_sublist.map _))
          (fun one kept => known one (List.mem_of_mem_filter kept))
          cohort other item ?_ has instant holds
        exact List.mem_filter.mpr ⟨inside, decide_eq_true selected⟩

end OfRounds

/-! ## Plans -/

/-- What every plan has, whatever the windows of its targets. -/
structure Sound (payload : RolloutPayload) : Prop where
  canary : ∃ first rest, payload.cohorts = first :: rest ∧
    first.kind = .canary ∧ first.targetIds = [payload.canaryTargetId] ∧
    ∀ cohort ∈ rest, cohort.kind = .rollout ∧
      payload.canaryTargetId ∉ cohort.targetIds
  covers : ∀ evidence ∈ payload.targetEvidence,
    ∃ cohort ∈ payload.cohorts, evidence.targetId ∈ cohort.targetIds
  prerequisites : ∀ before cohort after,
    payload.cohorts = before ++ cohort :: after →
    ∀ evidence ∈ payload.targetEvidence,
      evidence.targetId ∈ cohort.targetIds →
      ∀ dependency ∈ evidence.dependsOn,
        ∃ earlier ∈ before, dependency ∈ earlier.targetIds
  isOpen : ∀ cohort ∈ payload.cohorts, cohort.IsOpen
  inside : (∀ evidence ∈ payload.targetEvidence,
      evidence.maintenanceWindow.Positive) →
    ∀ cohort ∈ payload.cohorts, ∀ evidence ∈ payload.targetEvidence,
      evidence.targetId ∈ cohort.targetIds →
      ∀ instant, cohort.Holds instant →
        evidence.maintenanceWindow.Holds instant

theorem readProfile_valid {targets : List WardenCampaignTarget}
    {tables next : ProfileTables} {profile : WardenRolloutTargetProfile}
    (read : readProfile targets tables profile = .ok next) :
    profile.maintenanceWindow.Valid ∧
      next.profiles = tables.profiles.set profile.targetId profile := by
  simp only [readProfile, bind_eq_ok, throwIf_eq_ok, pure_eq_ok, not_not]
    at read
  rcases read with ⟨_, _, _, _, _, _, _, valid, _, _, rfl⟩
  exact ⟨valid, rfl⟩

theorem readProfiles_valid {targets : List WardenCampaignTarget}
    {tables result : ProfileTables}
    {profiles : List WardenRolloutTargetProfile}
    (before : ∀ id profile, tables.profiles.get? id = some profile →
      profile.maintenanceWindow.Valid)
    (read : readProfiles targets tables profiles = .ok result) :
    ∀ id profile, result.profiles.get? id = some profile →
      profile.maintenanceWindow.Valid := by
  induction profiles generalizing tables with
  | nil =>
    cases read
    exact before
  | cons profile rest inductionHypothesis =>
    rw [readProfiles, bind_eq_ok] at read
    rcases read with ⟨next, one, others⟩
    rcases readProfile_valid one with ⟨valid, tabled⟩
    refine inductionHypothesis ?_ others
    intro id found got
    rw [tabled, OrderedMap.get?_set] at got
    split at got
    · cases got
      exact valid
    · exact before id found got

/-- The cohorts of the targets of a campaign. -/
structure PlannedFrom (payload : RolloutPayload)
    (planned : List PlannedTarget) (canary : PlannedTarget)
    (rest : List Cohort) : Prop where
  valid : ∀ item ∈ planned, item.window.Valid
  distinct : (planned.map PlannedTarget.id).Nodup
  canaryIn : canary ∈ planned
  alone : canary.target.dependsOn = []
  canaryId : payload.canaryTargetId = canary.id
  cohorts : payload.cohorts = canaryCohort canary :: rest
  rounds : Rounds [canary.id]
    (planned.filter fun item => decide (item.id ≠ canary.id)) rest
  evidence : ∀ evidence ∈ payload.targetEvidence, ∃ item ∈ planned,
    evidence.targetId = item.id ∧
    evidence.maintenanceWindow = item.window ∧
    ∀ dependency, dependency ∈ evidence.dependsOn ↔
      dependency ∈ item.target.dependsOn
  evidenced : ∀ item ∈ planned, ∃ evidence ∈ payload.targetEvidence,
    evidence.targetId = item.id ∧
    evidence.maintenanceWindow = item.window ∧
    ∀ dependency, dependency ∈ evidence.dependsOn ↔
      dependency ∈ item.target.dependsOn

variable {host : RolloutHost} {db : RolloutDb} {input : PlanInput}
  {payload : RolloutPayload}

/-- The checked profiles, and the rounds over the other targets. -/
structure ArrangedFrom (host : RolloutHost) (db : RolloutDb)
    (input : PlanInput) (payload : RolloutPayload) (tables : ProfileTables)
    (planned : List PlannedTarget) (canary : PlannedTarget)
    (rest : List Cohort) : Prop where
  size : countable input.maxCohortSize
  complete : input.profiles.length =
    (listWardenCampaignTargets db.toCampaignDb input.tenantId
      input.campaignId).length
  read : readProfiles
    (listWardenCampaignTargets db.toCampaignDb input.tenantId
      input.campaignId)
    { profiles := OrderedMap.empty, ownerLimits := OrderedMap.empty }
    input.profiles = .ok tables
  targets : planned.map PlannedTarget.target =
    listWardenCampaignTargets db.toCampaignDb input.tenantId
      input.campaignId
  profiles : ∀ item ∈ planned,
    tables.profiles.get? item.id = some item.profile
  named : canary.id = input.canaryTargetId
  rounds : rolloutCohorts host.collation input.maxCohortSize
    (planned.filter fun item => decide (item.id ≠ canary.id)).length 1
    [canary.id] (planned.filter fun item => decide (item.id ≠ canary.id)) =
      .ok rest

theorem planned_targets {targets : List WardenCampaignTarget}
    {tables : ProfileTables} {planned : List PlannedTarget}
    (made : (targets.mapM fun target => do
      let profile ← demand (tables.profiles.get? target.id) "TypeError"
      return { target := target, profile := profile : PlannedTarget }) =
        .ok planned) :
    planned.map PlannedTarget.target = targets ∧
      ∀ item ∈ planned,
        tables.profiles.get? item.id = some item.profile := by
  constructor
  · rw [← List.map_id targets]
    refine map_eq_of_mapM made ?_
    intro target _ item visited
    simp only [bind_eq_ok, demand_eq_ok, pure_eq_ok] at visited
    rcases visited with ⟨profile, _, rfl⟩
    rfl
  · refine forall_mem_of_mapM made ?_
    intro target _ item visited
    simp only [bind_eq_ok, demand_eq_ok, pure_eq_ok] at visited
    rcases visited with ⟨profile, got, rfl⟩
    exact got

theorem rolloutPayload_spec
    (made : rolloutPayload host db input = .ok payload) :
    ∃ tables planned canary rest,
      ArrangedFrom host db input payload tables planned canary rest ∧
        PlannedFrom payload planned canary rest := by
  simp only [rolloutPayload, bind_eq_ok, throwIf_eq_ok, demand_eq_ok,
    pure_eq_ok, not_not] at made
  rcases made with ⟨_, _, _, _, _, _, _, _, _, size, _, _, parent, _, _, _,
    _, _, _, _, _, complete, tables, read, planned, plannedEq, canary, found,
    _, _, _, alone, _, _, cohorts, cohortsEq, rfl⟩
  rcases planned_targets plannedEq with ⟨targets, profiles⟩
  have valid : ∀ item ∈ planned, item.window.Valid := by
    intro item member
    refine readProfiles_valid ?_ read item.id item.profile
      (profiles item member)
    intro id profile impossible
    rw [OrderedMap.get?_empty] at impossible
    cases impossible
  have distinct : (planned.map PlannedTarget.id).Nodup := by
    have ids : planned.map PlannedTarget.id =
        (planned.map PlannedTarget.target).map WardenCampaignTarget.id :=
      List.map_map.symm
    rw [ids, targets, listWardenCampaignTargets,
      ((Collation.ordinal.perm_sortByThen _ _ _).map _).nodup_iff]
    exact db.targetKeys.sublist (List.filter_sublist.map _)
  rw [planCohorts, bind_eq_ok] at cohortsEq
  rcases cohortsEq with ⟨rest, roundsEq, same⟩
  rw [pure_eq_ok] at same
  have named := List.find?_some found
  rw [decide_eq_true_eq] at named
  refine ⟨tables, planned, canary, rest, {
    size := size
    complete := complete
    read := read
    targets := targets
    profiles := profiles
    named := named
    rounds := roundsEq }, {
    valid := valid
    distinct := distinct
    canaryIn := List.mem_of_find?_eq_some found
    alone := alone
    canaryId := rfl
    cohorts := same.symm
    rounds := ?_
    evidence := ?_
    evidenced := ?_ }⟩
  · refine rolloutCohorts_rounds ?_ (Nat.le_refl _) roundsEq
    intro item member
    exact valid item (List.mem_of_mem_filter member)
  · intro evidence member
    rcases List.mem_map.mp member with ⟨item, inside, rfl⟩
    rw [(host.collation.perm_sortBy _ _).mem_iff] at inside
    refine ⟨item, inside, rfl, rfl, fun dependency => ?_⟩
    exact (host.collation.perm_sortBy _ _).mem_iff
  · intro item member
    refine ⟨item.evidence host.collation, List.mem_map_of_mem ?_, rfl, rfl,
      fun dependency => (host.collation.perm_sortBy _ _).mem_iff⟩
    exact (host.collation.perm_sortBy _ _).mem_iff.mpr member

theorem PlannedFrom.inside {planned : List PlannedTarget}
    {canary : PlannedTarget} {rest : List Cohort}
    (made : PlannedFrom payload planned canary rest)
    (within : ∀ selection : Selection, selection.Windowed →
      (∀ item ∈ selection.selected, item ∈ planned) → selection.Inside) :
    ∀ cohort ∈ payload.cohorts, ∀ item ∈ planned,
      item.id ∈ cohort.targetIds → ∀ instant, cohort.Holds instant →
        item.window.Holds instant := by
  intro cohort member item inside has instant holds
  rw [made.cohorts] at member
  rcases List.mem_cons.mp member with rfl | later
  · have same : item = canary := Table.eq_of_key made.distinct inside
      made.canaryIn (List.mem_singleton.mp has)
    rw [same]
    exact holds
  · have other : item.id ≠ canary.id := by
      intro isCanary
      rcases List.append_of_mem later with ⟨before, after, split⟩
      rcases made.rounds.prerequisites split _ has with
        ⟨again, kept, sameId, _⟩
      rw [List.mem_filter, decide_eq_true_eq, sameId] at kept
      exact kept.2 isCanary
    refine made.rounds.inside within
      (made.distinct.sublist (List.filter_sublist.map _))
      (fun one kept => List.mem_of_mem_filter kept) cohort later item ?_ has
      instant holds
    exact List.mem_filter.mpr ⟨inside, decide_eq_true other⟩

theorem PlannedFrom.sound {planned : List PlannedTarget}
    {canary : PlannedTarget} {rest : List Cohort}
    (made : PlannedFrom payload planned canary rest) : Sound payload := by
  have validRest : ∀ item ∈ planned.filter fun item =>
      decide (item.id ≠ canary.id), item.window.Valid := fun item member =>
    made.valid item (List.mem_of_mem_filter member)
  refine {
    canary := ⟨_, rest, made.cohorts, rfl, by rw [made.canaryId]; rfl, ?_⟩
    covers := ?_
    prerequisites := ?_
    isOpen := ?_
    inside := ?_ }
  · intro cohort member
    refine ⟨(made.rounds.isOpen validRest cohort member).1, ?_⟩
    intro has
    rcases List.append_of_mem member with ⟨before, after, split⟩
    rcases made.rounds.prerequisites split _ has with ⟨item, inside, named, _⟩
    rw [List.mem_filter, decide_eq_true_eq] at inside
    exact inside.2 (named.trans made.canaryId)
  · intro evidence member
    rcases made.evidence evidence member with ⟨item, inside, named, _⟩
    rw [made.cohorts, named]
    by_cases isCanary : item.id = canary.id
    · exact ⟨_, List.mem_cons_self, List.mem_singleton.mpr isCanary⟩
    · rcases made.rounds.covers item (List.mem_filter.mpr
        ⟨inside, decide_eq_true isCanary⟩) with ⟨cohort, within, has⟩
      exact ⟨cohort, List.mem_cons_of_mem _ within, has⟩
  · intro before cohort after split evidence member has dependency needed
    rcases made.evidence evidence member with
      ⟨item, inside, named, _, depends⟩
    rw [depends] at needed
    rw [made.cohorts] at split
    cases before with
    | nil =>
      rw [List.nil_append, List.cons.injEq] at split
      rw [← split.1] at has
      have same : item = canary := Table.eq_of_key made.distinct inside
        made.canaryIn (named.symm.trans (List.mem_singleton.mp has))
      rw [same, made.alone] at needed
      cases needed
    | cons first others =>
      rw [List.cons_append, List.cons.injEq] at split
      rcases made.rounds.prerequisites split.2 _ has with
        ⟨again, kept, sameId, needs⟩
      have same : again = item := Table.eq_of_key made.distinct
        (List.mem_of_mem_filter kept) inside (sameId.trans named)
      rw [same] at needs
      rcases needs dependency needed with isCanary | ⟨earlier, within, in_⟩
      · refine ⟨first, List.mem_cons_self, ?_⟩
        rw [← split.1]
        exact isCanary
      · exact ⟨earlier, List.mem_cons_of_mem _ within, in_⟩
  · rw [made.cohorts, List.forall_mem_cons]
    exact ⟨made.valid canary made.canaryIn, fun cohort member =>
      (made.rounds.isOpen validRest cohort member).2⟩
  · intro positive cohort member evidence isEvidence has instant holds
    have allPositive : ∀ item ∈ planned, item.window.Positive := by
      intro item inside
      rcases made.evidenced item inside with ⟨one, isOne, _, same, _⟩
      rw [← same]
      exact positive one isOne
    rcases made.evidence evidence isEvidence with
      ⟨item, inside, named, window, _⟩
    rw [window]
    rw [named] at has
    refine made.inside (fun selection windowed taken => ?_) cohort member
      item inside has instant holds
    exact windowed.inside
      (fun one member => made.valid one (taken one member))
      (fun one member => allPositive one (taken one member))

/-! ## Accepted plans -/

theorem planWardenRollout_spec {after : RolloutDb}
    {decision : WardenRolloutDecision}
    (yields : Yields (planWardenRollout host input) db decision after) :
    (after = db ∧ ∃ row ∈ db.rolloutDecisions,
        decision.toRolloutPayload = row.decision) ∨
      ∃ row, after.rolloutDecisions = db.rolloutDecisions ++ [row] ∧
        decision.toRolloutPayload = row.decision ∧ Sound row.decision := by
  have returned : ∀ {row : RolloutDecisionRow},
      rolloutDecision host row = .ok decision →
        decision.toRolloutPayload = row.decision := by
    intro row given
    simp only [rolloutDecision, bind_eq_ok, throwIf_eq_ok, pure_eq_ok] at given
    rcases given with ⟨_, _, rfl⟩
    rfl
  rw [planWardenRollout, yields_get_bind, yields_lift_bind] at yields
  rcases yields with ⟨payload, made, rest⟩
  rw [yields_transaction] at rest
  cases found : db.rolloutDecisions.find?
      fun row => decide (row.id = input.id) with
  | some existing =>
    rw [found] at rest
    rw [yields_lift_bind] at rest
    rcases rest with ⟨_, _, rest⟩
    rcases yields_lift.mp rest with ⟨given, rfl⟩
    exact Or.inl ⟨rfl, existing, List.mem_of_find?_eq_some found,
      returned given⟩
  | none =>
    rw [found] at rest
    rw [yields_lift_bind] at rest
    rcases rest with ⟨recorded, _, rest⟩
    rw [yields_bind] at rest
    rcases rest with ⟨_, middle, wrote, rest⟩
    cases wrote
    rcases yields_lift.mp rest with ⟨given, rfl⟩
    rcases rolloutPayload_spec made with
      ⟨_, planned, canary, others, _, from_⟩
    exact Or.inr ⟨_, rfl, returned given, from_.sound⟩

theorem planWardenRollout_new {recorded : CampaignDb}
    (made : rolloutPayload host db input = .ok payload)
    (isNew : ∀ row ∈ db.rolloutDecisions, row.id ≠ input.id)
    (written : record host.sha256 db.toCampaignDb (input.event payload
      (host.sha256 (canonicalRolloutPayload host payload))) = .ok recorded) :
    ∃ decision after,
      Yields (planWardenRollout host input) db decision after ∧
        decision.toRolloutPayload = payload := by
  have unknown : (db.rolloutDecisions.find?
      fun row => decide (row.id = input.id)) = none := by
    rw [List.find?_eq_none]
    intro row member
    rw [decide_eq_true_eq]
    exact isNew row member
  obtain ⟨decision, given, same⟩ : ∃ decision,
      rolloutDecision host (input.row payload
        (host.sha256 (canonicalRolloutPayload host payload))) =
          .ok decision ∧ decision.toRolloutPayload = payload := by
    simp only [rolloutDecision, bind_eq_ok]
    exact ⟨_, ⟨⟨⟩, throwIf_eq_ok.mpr (not_not.mpr rfl), rfl⟩, rfl⟩
  refine ⟨decision,
    { toCampaignDb := recorded
      rolloutDecisions := db.rolloutDecisions ++ [input.row payload
        (host.sha256 (canonicalRolloutPayload host payload))] }, ?_, same⟩
  rw [planWardenRollout, yields_get_bind, yields_lift_bind]
  refine ⟨payload, made, ?_⟩
  rw [yields_transaction, unknown, yields_lift_bind]
  refine ⟨recorded, written, ?_⟩
  rw [yields_bind]
  exact ⟨⟨⟩, _, rfl, yields_lift.mpr ⟨given, rfl⟩⟩

/-- The databases which planning calls and other writers lead to. -/
inductive PlannedDb (host : RolloutHost) : RolloutDb → Prop where
  | start {db : RolloutDb} (empty : db.rolloutDecisions = []) :
      PlannedDb host db
  | plan {db after : RolloutDb} {input : PlanInput}
      {decision : WardenRolloutDecision} (before : PlannedDb host db)
      (yields : Yields (planWardenRollout host input) db decision after) :
      PlannedDb host after
  | other {db after : RolloutDb} (before : PlannedDb host db)
      (kept : after.rolloutDecisions = db.rolloutDecisions) :
      PlannedDb host after

theorem PlannedDb.sound {host : RolloutHost} {db : RolloutDb}
    (planned : PlannedDb host db) :
    ∀ row ∈ db.rolloutDecisions, Sound row.decision := by
  induction planned with
  | start empty =>
    rw [empty]
    exact List.forall_mem_nil _
  | plan before yields inductionHypothesis =>
    rcases planWardenRollout_spec yields with
      ⟨rfl, _⟩ | ⟨row, appended, _, sound⟩
    · exact inductionHypothesis
    · rw [appended, List.forall_mem_append, List.forall_mem_singleton]
      exact ⟨inductionHypothesis, sound⟩
  | other before kept inductionHypothesis =>
    rw [kept]
    exact inductionHypothesis

/--
An accepted plan runs its canary first and alone, and prerequisites in earlier
cohorts, in open windows; instants in the order of its cohorts exist exactly
when no cohort opens after a later one has closed.
-/
theorem rollout_executable_iff (host : RolloutHost) (db : RolloutDb)
    (planned : PlannedDb host db) (input : PlanInput)
    (decision : WardenRolloutDecision) (after : RolloutDb)
    (yields : Yields (planWardenRollout host input) db decision after) :
    Sound decision.toRolloutPayload ∧
      (Executable decision.cohorts ↔
        decision.cohorts.Pairwise Cohort.OpensBefore) := by
  have sound : Sound decision.toRolloutPayload := by
    rcases planWardenRollout_spec yields with
      ⟨_, row, member, same⟩ | ⟨row, _, same, sound⟩
    · rw [same]
      exact planned.sound row member
    · rw [same]
      exact sound
  exact ⟨sound, executable_iff sound.isOpen⟩


/-! ## A sample plan -/

def sampleHost : RolloutHost where
  sha256 := id
  collation := Collation.ordinal
  numerals := Numerals.fractions

/-- A draft campaign with two targets. -/
def sampleRolloutDb : RolloutDb where
  principals :=
    [{ id := "p", tenantId := "t", kind := .human, revokedAt := none }]
  artifactManifests := []
  campaigns :=
    [{ id := "c"
       tenantId := "t"
       name := "rollout"
       status := .draft
       ownerPrincipalId := "p"
       concurrencyLimit := 1
       completionPolicy := .all
       revision := 1
       createdAt := "1"
       updatedAt := "1" }]
  targets := ["a", "b"].map fun id =>
    { id := id
      tenantId := "t"
      campaignId := "c"
      repositoryId := id
      snapshotId := id
      packageArtifactId := none
      ownerPrincipalId := "p"
      stage := .queued
      dependsOn := []
      attemptCount := 0
      maxAttempts := 3
      exceptionCode := none
      enrollmentSource := .manual
      enrolledInstallationId := none
      revision := 1
      createdAt := "1"
      updatedAt := "1" }
  domainEvents := []
  campaignKeys := by decide
  targetKeys := by decide
  rolloutDecisions := []

def sampleProfile (targetId start stop : String) :
    WardenRolloutTargetProfile where
  targetId := targetId
  risk := .low
  environment := .test
  verificationConfidence := 1
  canaryEligible := true
  ownerGroup := "o"
  ownerMaxParallel := 1
  maintenanceWindow := { start := start, stop := stop }

/-- The window of the canary opens a day after the other one has closed. -/
def samplePlan : PlanInput where
  actorPrincipalId := "p"
  eventId := "e"
  idempotencyKey := "e"
  correlationId := "r"
  causationId := none
  createdAt := "2026-01-02T00:00:00.000Z"
  id := "d"
  tenantId := "t"
  campaignId := "c"
  expectedCampaignRevision := 1
  profiles :=
    [sampleProfile "a" "2026-01-04T00:00:00.000Z" "2026-01-04T04:00:00.000Z",
      sampleProfile "b" "2026-01-03T00:00:00.000Z" "2026-01-03T04:00:00.000Z"]
  canaryTargetId := "a"
  maxCohortSize := 2
  stopConditions :=
    { pauseFailureRate := 0
      abortFailureRate := 1
      minimumVerificationConfidence := 0
      abortOnCriticalFailure := true }

/-- The cohorts of the sample plan. -/
def sampleCohorts : List Cohort :=
  [{ sequence := 0
     kind := .canary
     targetIds := ["a"]
     notBefore := "2026-01-04T00:00:00.000Z"
     notAfter := "2026-01-04T04:00:00.000Z" },
    { sequence := 1
      kind := .rollout
      targetIds := ["b"]
      notBefore := "2026-01-03T00:00:00.000Z"
      notAfter := "2026-01-03T04:00:00.000Z" }]

theorem samplePlan_yields :
    ∃ decision after,
      Yields (planWardenRollout sampleHost samplePlan) sampleRolloutDb
        decision after ∧ decision.cohorts = sampleCohorts := by
  have made : (rolloutPayload sampleHost sampleRolloutDb samplePlan).map
      RolloutPayload.cohorts = .ok sampleCohorts := by
    decide
  cases planned : rolloutPayload sampleHost sampleRolloutDb samplePlan with
  | error failure =>
    rw [planned] at made
    cases made
  | ok payload =>
    rw [planned] at made
    rcases planWardenRollout_new planned (List.forall_mem_nil _) rfl with
      ⟨decision, after, yields, same⟩
    refine ⟨decision, after, yields, ?_⟩
    rw [same]
    exact Except.ok.inj made

theorem rollout_sample :
    ∃ decision : WardenRolloutDecision,
      decision.cohorts = sampleCohorts ∧ Sound decision.toRolloutPayload ∧
        (Executable decision.cohorts ↔
          decision.cohorts.Pairwise Cohort.OpensBefore) := by
  rcases samplePlan_yields with ⟨decision, after, yields, same⟩
  exact ⟨decision, same, rollout_executable_iff sampleHost sampleRolloutDb
    (.start rfl) samplePlan decision after yields⟩

/-- The canary's window opens after the next cohort's window has closed. -/
theorem plan_without_schedule :
    ∃ decision after,
      Yields (planWardenRollout sampleHost samplePlan) sampleRolloutDb
        decision after ∧ ¬ Executable decision.cohorts := by
  rcases samplePlan_yields with ⟨decision, after, yields, same⟩
  refine ⟨decision, after, yields, ?_⟩
  have allOpen : ∀ cohort ∈ sampleCohorts, cohort.IsOpen := by decide
  rw [same, executable_iff allOpen]
  decide

end Mendpoint.Campaign
