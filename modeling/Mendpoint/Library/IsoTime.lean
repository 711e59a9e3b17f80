import Mathlib.Tactic.IntervalCases
import Mathlib.Tactic.Ring
import Mathlib.Tactic.SplitIfs
import Mendpoint.Library.Collation

/-!
# Instants and their ISO texts

The milliseconds which a `Date` holds, their text by `toISOString`, and the
instant which such a text denotes.  Texts are compared by their code units; for
years from 0 to 9999, and for those after 9999, this is the order of time.
-/

namespace Mendpoint.Library.IsoTime

/-! ## The calendar -/

/-- The number of the first day of a year. -/
def dayFromYear (year : Int) : Int :=
  365 * (year - 1970) + (year - 1969) / 4 - (year - 1901) / 100 +
    (year - 1601) / 400

/-- The year of a day. -/
def yearFromDay (day : Int) : Int :=
  let near := 1970 + 400 * day / 146097
  if dayFromYear (near + 1) ≤ day then near + 1
  else if dayFromYear near ≤ day then near
  else near - 1

/-- One more day in a leap year. -/
def leapDays (year : Int) : Int :=
  if year % 4 = 0 ∧ (year % 100 ≠ 0 ∨ year % 400 = 0) then 1 else 0

/-- The day within the year on which a month begins; January is 0. -/
def monthStart (leap : Int) : Nat → Int
  | 0 => 0
  | 1 => 31
  | 2 => 59 + leap
  | 3 => 90 + leap
  | 4 => 120 + leap
  | 5 => 151 + leap
  | 6 => 181 + leap
  | 7 => 212 + leap
  | 8 => 243 + leap
  | 9 => 273 + leap
  | 10 => 304 + leap
  | 11 => 334 + leap
  | _ => 365 + leap

/-- The last month, up to a given one, which has begun on a day. -/
def monthUpTo (leap day : Int) : Nat → Nat
  | 0 => 0
  | month + 1 =>
    if monthStart leap (month + 1) ≤ day then month + 1
    else monthUpTo leap day month

/-- The month of a day within the year. -/
def monthFromDay (leap day : Int) : Nat :=
  monthUpTo leap day 11

theorem dayFromYear_mono {year later : Int} (before : year ≤ later) :
    dayFromYear year ≤ dayFromYear later := by
  rw [dayFromYear, dayFromYear]
  omega

theorem dayFromYear_succ (year : Int) :
    dayFromYear (year + 1) = dayFromYear year + 365 + leapDays year := by
  rw [dayFromYear, dayFromYear, leapDays]
  split
  · omega
  · omega

theorem yearFromDay_spec (day : Int) :
    dayFromYear (yearFromDay day) ≤ day ∧
      day < dayFromYear (yearFromDay day + 1) := by
  rw [yearFromDay]
  have below : dayFromYear (1970 + 400 * day / 146097 - 1) ≤ day := by
    rw [dayFromYear]
    omega
  have above : day < dayFromYear (1970 + 400 * day / 146097 + 1 + 1) := by
    rw [dayFromYear]
    omega
  split
  · next reached => exact ⟨reached, above⟩
  · next early =>
      split
      · next reached => exact ⟨reached, by omega⟩
      · next late =>
          rw [Int.sub_add_cancel]
          exact ⟨below, by omega⟩

theorem leapDays_cases (year : Int) :
    leapDays year = 0 ∨ leapDays year = 1 := by
  rw [leapDays]
  split
  · exact Or.inr rfl
  · exact Or.inl rfl

variable {leap other : Int}

theorem monthStart_succ (isLeap : leap = 0 ∨ leap = 1) {month : Nat}
    (within : month < 12) :
    monthStart leap month < monthStart leap (month + 1) ∧
      monthStart leap (month + 1) ≤ monthStart leap month + 31 := by
  interval_cases month
  all_goals
    simp only [monthStart]
    omega

theorem monthUpTo_spec {day : Int} (nonneg : 0 ≤ day) (last : Nat)
    (below : day < monthStart leap (last + 1)) :
    monthUpTo leap day last ≤ last ∧
      monthStart leap (monthUpTo leap day last) ≤ day ∧
      day < monthStart leap (monthUpTo leap day last + 1) := by
  induction last with
  | zero => exact ⟨Nat.le_refl 0, nonneg, below⟩
  | succ last inductionHypothesis =>
    rw [monthUpTo]
    split
    · next begun => exact ⟨Nat.le_refl _, begun, below⟩
    · next early =>
        rcases inductionHypothesis (Int.not_le.mp early) with
          ⟨within, begun, notOver⟩
        exact ⟨Nat.le_succ_of_le within, begun, notOver⟩

theorem monthFromDay_spec {day : Int} (nonneg : 0 ≤ day)
    (below : day < 365 + leap) :
    monthFromDay leap day < 12 ∧
      monthStart leap (monthFromDay leap day) ≤ day ∧
      day < monthStart leap (monthFromDay leap day + 1) := by
  rcases monthUpTo_spec nonneg 11 below with ⟨within, begun, notOver⟩
  exact ⟨Nat.lt_succ_of_le within, begun, notOver⟩

theorem day_le_iff (day other : Int) :
    day ≤ other ↔ yearFromDay day < yearFromDay other ∨
      yearFromDay day = yearFromDay other ∧
        day - dayFromYear (yearFromDay day) ≤
          other - dayFromYear (yearFromDay other) := by
  have here := yearFromDay_spec day
  have there := yearFromDay_spec other
  rcases Int.lt_trichotomy (yearFromDay day) (yearFromDay other) with
    before | same | after
  · have between := dayFromYear_mono (Int.add_one_le_of_lt before)
    omega
  · rw [same]
    omega
  · have between := dayFromYear_mono (Int.add_one_le_of_lt after)
    omega

theorem monthStart_mono (isLeap : leap = 0 ∨ leap = 1) {month later : Nat}
    (before : month ≤ later) (within : later ≤ 12) :
    monthStart leap month ≤ monthStart leap later := by
  induction later, before using Nat.le_induction with
  | base => exact Int.le_refl _
  | succ later _ inductionHypothesis =>
    apply Int.le_trans (inductionHypothesis (Nat.le_of_succ_le within))
    exact Int.le_of_lt (monthStart_succ isLeap within).1

theorem monthDay_le_iff {day : Int} (isLeap : leap = 0 ∨ leap = 1)
    (nonneg : 0 ≤ day) (below : day < 365 + leap) (nonnegOther : 0 ≤ other)
    (belowOther : other < 365 + leap) :
    day ≤ other ↔ monthFromDay leap day < monthFromDay leap other ∨
      monthFromDay leap day = monthFromDay leap other ∧
        day - monthStart leap (monthFromDay leap day) ≤
          other - monthStart leap (monthFromDay leap other) := by
  have here := monthFromDay_spec nonneg below
  have there := monthFromDay_spec nonnegOther belowOther
  rcases Nat.lt_trichotomy (monthFromDay leap day)
    (monthFromDay leap other) with before | same | after
  · have next : monthFromDay leap day + 1 ≤ monthFromDay leap other := before
    have between := monthStart_mono isLeap next (Nat.le_of_lt there.1)
    omega
  · rw [same]
    omega
  · have next : monthFromDay leap other + 1 ≤ monthFromDay leap day := after
    have between := monthStart_mono isLeap next (Nat.le_of_lt here.1)
    omega

/-! ## Texts -/

/-- The last digits of a number, as many as a width has. -/
def digits : Nat → Nat → List Char
  | 0, _ => []
  | width + 1, number =>
    Nat.digitChar (number / 10 ^ width % 10) :: digits width number

/-- The year, with a sign and six digits outside of 0 to 9999. -/
def yearChars (year : Int) : List Char :=
  if 0 ≤ year ∧ year ≤ 9999 then digits 4 year.toNat
  else (if year < 0 then '-' else '+') :: digits 6 year.natAbs

/-- The day of an instant. -/
def day (ms : Int) : Int :=
  ms / 86400000

def year (ms : Int) : Int :=
  yearFromDay (day ms)

/-- The day within the year, from 0. -/
def dayWithinYear (ms : Int) : Int :=
  day ms - dayFromYear (year ms)

/-- The month, from 0. -/
def month (ms : Int) : Nat :=
  monthFromDay (leapDays (year ms)) (dayWithinYear ms)

/-- The date within the month, from 1. -/
def date (ms : Int) : Nat :=
  (dayWithinYear ms - monthStart (leapDays (year ms)) (month ms)).toNat + 1

/-- The milliseconds within the day. -/
def timeWithinDay (ms : Int) : Nat :=
  (ms % 86400000).toNat

/-- `new Date(ms).toISOString()`, as characters. -/
def isoChars (ms : Int) : List Char :=
  let time := timeWithinDay ms
  yearChars (year ms) ++ '-' :: digits 2 (month ms + 1) ++
    '-' :: digits 2 (date ms) ++ 'T' :: digits 2 (time / 3600000) ++
    ':' :: digits 2 (time / 60000 % 60) ++
    ':' :: digits 2 (time / 1000 % 60) ++ '.' :: digits 3 (time % 1000) ++
    ['Z']

/-! ## The order of texts -/

theorem unitsLe_cons_self (unit : Nat) (left right : List Nat) :
    Text.unitsLe (unit :: left) (unit :: right) =
      Text.unitsLe left right := by
  rw [Text.unitsLe, if_pos rfl]

theorem unitsLe_nil (right : List Nat) : Text.unitsLe [] right = true := by
  rw [Text.unitsLe]

theorem toNat_digitChar {digit : Nat} (small : digit < 10) :
    (Nat.digitChar digit).toNat = 48 + digit := by
  interval_cases digit
  all_goals rfl

theorem unitsLe_digits (width number other : Nat) (left right : List Nat) :
    Text.unitsLe ((digits width number).map Char.toNat ++ left)
        ((digits width other).map Char.toNat ++ right) = true ↔
      number % 10 ^ width < other % 10 ^ width ∨
        number % 10 ^ width = other % 10 ^ width ∧
          Text.unitsLe left right = true := by
  induction width with
  | zero =>
    simp only [digits, List.map_nil, List.nil_append, pow_zero, Nat.mod_one,
      Nat.lt_irrefl, true_and, false_or]
  | succ width inductionHypothesis =>
    have small : ∀ n, n / 10 ^ width % 10 < 10 := fun n =>
      Nat.mod_lt _ (by decide)
    have bound : ∀ n, n % 10 ^ width < 10 ^ width := fun n =>
      Nat.mod_lt _ (Nat.pow_pos (by decide))
    rw [digits, digits, List.map_cons, List.map_cons, List.cons_append,
      List.cons_append, Text.unitsLe, toNat_digitChar (small number),
      toNat_digitChar (small other), Nat.mod_pow_succ, Nat.mod_pow_succ]
    have here := bound number
    have there := bound other
    rcases Nat.lt_trichotomy (number / 10 ^ width % 10)
      (other / 10 ^ width % 10) with before | same | after
    · have scaled := Nat.mul_le_mul_left (10 ^ width)
        (Nat.succ_le_of_lt before)
      rw [Nat.succ_eq_add_one, Nat.mul_add, Nat.mul_one] at scaled
      rw [if_neg (by omega), decide_eq_true_iff]
      constructor
      · intro _
        left
        omega
      · intro _
        omega
    · rw [same, if_pos rfl, inductionHypothesis]
      constructor
      · rintro (less | ⟨equal, rest⟩)
        · left
          omega
        · right
          exact ⟨by omega, rest⟩
      · rintro (less | ⟨equal, rest⟩)
        · left
          omega
        · right
          exact ⟨by omega, rest⟩
    · have scaled := Nat.mul_le_mul_left (10 ^ width)
        (Nat.succ_le_of_lt after)
      rw [Nat.succ_eq_add_one, Nat.mul_add, Nat.mul_one] at scaled
      rw [if_neg (by omega), decide_eq_true_iff]
      constructor
      · intro impossible
        omega
      · rintro (less | ⟨equal, _⟩)
        · omega
        · omega

theorem dayWithinYear_bounds (ms : Int) :
    0 ≤ dayWithinYear ms ∧
      dayWithinYear ms < 365 + leapDays (year ms) := by
  have inYear := yearFromDay_spec (day ms)
  rw [dayFromYear_succ] at inYear
  rw [dayWithinYear, year]
  omega

theorem month_spec (ms : Int) :
    month ms < 12 ∧ date ms ≤ 31 ∧
      dayWithinYear ms =
        monthStart (leapDays (year ms)) (month ms) + date ms - 1 := by
  rcases dayWithinYear_bounds ms with ⟨nonneg, below⟩
  rcases monthFromDay_spec nonneg below with ⟨within, begun, notOver⟩
  have short := (monthStart_succ (leapDays_cases (year ms)) within).2
  refine ⟨within, ?_, ?_⟩
  · rw [date, month]
    omega
  · rw [date, month]
    omega

theorem le_iff_fields (ms other : Int) :
    ms ≤ other ↔ year ms < year other ∨ year ms = year other ∧
      (month ms < month other ∨ month ms = month other ∧
        (date ms < date other ∨ date ms = date other ∧
          timeWithinDay ms ≤ timeWithinDay other)) := by
  have days : ms ≤ other ↔ day ms < day other ∨ day ms = day other ∧
      timeWithinDay ms ≤ timeWithinDay other := by
    rw [day, day, timeWithinDay, timeWithinDay]
    omega
  have forth := day_le_iff (day ms) (day other)
  have back := day_le_iff (day other) (day ms)
  have dateHere := (month_spec ms).2.2
  have dateThere := (month_spec other).2.2
  have boundsHere := dayWithinYear_bounds ms
  have boundsThere := dayWithinYear_bounds other
  change day ms ≤ day other ↔ year ms < year other ∨
    year ms = year other ∧ dayWithinYear ms ≤ dayWithinYear other at forth
  change day other ≤ day ms ↔ year other < year ms ∨
    year other = year ms ∧ dayWithinYear other ≤ dayWithinYear ms at back
  rcases Int.lt_trichotomy (year ms) (year other) with before | same | after
  · omega
  · rw [← same] at boundsThere dateThere
    have months := monthDay_le_iff (leapDays_cases (year ms)) boundsHere.1
      boundsHere.2 boundsThere.1 boundsThere.2
    have monthsBack := monthDay_le_iff (leapDays_cases (year ms))
      boundsThere.1 boundsThere.2 boundsHere.1 boundsHere.2
    have monthThere : monthFromDay (leapDays (year ms))
        (dayWithinYear other) = month other := by
      rw [same]
      rfl
    have monthHere : monthFromDay (leapDays (year ms)) (dayWithinYear ms) =
        month ms := rfl
    rw [monthHere, monthThere] at months monthsBack
    rcases Nat.lt_trichotomy (month ms) (month other) with
      earlier | together | later
    · omega
    · rw [← together] at dateThere months monthsBack
      omega
    · omega
  · omega

theorem time_le_iff (time other : Nat) :
    time ≤ other ↔ time / 3600000 < other / 3600000 ∨
      time / 3600000 = other / 3600000 ∧
        (time / 60000 % 60 < other / 60000 % 60 ∨
          time / 60000 % 60 = other / 60000 % 60 ∧
            (time / 1000 % 60 < other / 1000 % 60 ∨
              time / 1000 % 60 = other / 1000 % 60 ∧
                time % 1000 ≤ other % 1000)) := by
  omega

theorem ascii_digits {width number : Nat} {char : Char}
    (member : char ∈ digits width number) :
    48 ≤ char.toNat ∧ char.toNat < 58 := by
  induction width with
  | zero => cases member
  | succ width inductionHypothesis =>
    rw [digits] at member
    rcases List.mem_cons.mp member with rfl | later
    · have small : number / 10 ^ width % 10 < 10 :=
        Nat.mod_lt _ (by decide)
      rw [toNat_digitChar small]
      omega
    · exact inductionHypothesis later

theorem ascii_isoChars (ms : Int) :
    ∀ char ∈ isoChars ms, char.toNat < 128 := by
  have number : ∀ width number, ∀ char ∈ digits width number,
      char.toNat < 128 := fun _ _ _ member =>
    Nat.lt_trans (ascii_digits member).2 (by decide)
  have inYear : ∀ char ∈ yearChars (year ms), char.toNat < 128 := by
    rw [yearChars]
    split
    · exact number 4 _
    · rw [List.forall_mem_cons]
      refine ⟨?_, number 6 _⟩
      split
      · decide
      · decide
  rw [isoChars]
  simp only [List.forall_mem_append, List.forall_mem_cons]
  have marks : '-'.toNat < 128 ∧ 'T'.toNat < 128 ∧ ':'.toNat < 128 ∧
      '.'.toNat < 128 ∧ 'Z'.toNat < 128 := by decide
  rcases marks with ⟨dash, t, colon, dot, z⟩
  exact ⟨⟨⟨⟨⟨⟨⟨inYear, dash, number 2 _⟩, dash, number 2 _⟩, t, number 2 _⟩,
    colon, number 2 _⟩, colon, number 2 _⟩, dot, number 3 _⟩, z,
    fun _ never => absurd never List.not_mem_nil⟩

/-- The years whose texts have four digits. -/
def PlainYear (ms : Int) : Prop :=
  0 ≤ year ms ∧ year ms ≤ 9999

instance (ms : Int) : Decidable (PlainYear ms) :=
  inferInstanceAs (Decidable (_ ∧ _))

/-- The characters behind the year. -/
def restChars (ms : Int) : List Char :=
  let time := timeWithinDay ms
  '-' :: digits 2 (month ms + 1) ++ '-' :: digits 2 (date ms) ++
    'T' :: digits 2 (time / 3600000) ++ ':' :: digits 2 (time / 60000 % 60) ++
    ':' :: digits 2 (time / 1000 % 60) ++ '.' :: digits 3 (time % 1000) ++
    ['Z']

theorem isoChars_eq (ms : Int) :
    isoChars ms = yearChars (year ms) ++ restChars ms := by
  rw [isoChars, restChars]
  simp only [List.append_assoc, List.cons_append]

theorem unitsLe_restChars {ms other : Int} (same : year ms = year other) :
    Text.unitsLe ((restChars ms).map Char.toNat)
      ((restChars other).map Char.toNat) = true ↔ ms ≤ other := by
  have fields : ∀ moment : Int,
      (month moment + 1) % 10 ^ 2 = month moment + 1 ∧
      date moment % 10 ^ 2 = date moment ∧
      timeWithinDay moment / 3600000 % 10 ^ 2 =
        timeWithinDay moment / 3600000 ∧
      timeWithinDay moment / 60000 % 60 % 10 ^ 2 =
        timeWithinDay moment / 60000 % 60 ∧
      timeWithinDay moment / 1000 % 60 % 10 ^ 2 =
        timeWithinDay moment / 1000 % 60 ∧
      timeWithinDay moment % 1000 % 10 ^ 3 =
        timeWithinDay moment % 1000 := by
    intro moment
    rcases month_spec moment with ⟨inYear, inMonth, _⟩
    have inDay : timeWithinDay moment < 86400000 := by
      rw [timeWithinDay]
      omega
    omega
  rcases fields ms with ⟨mo, d, h, mi, s, f⟩
  rcases fields other with ⟨mo', d', h', mi', s', f'⟩
  rw [restChars, restChars]
  simp only [List.append_assoc, List.cons_append, List.map_append,
    List.map_cons, unitsLe_digits, unitsLe_cons_self,
    List.map_nil, mo, d, h, mi, s, f, mo', d', h', mi', s', f',
    unitsLe_nil]
  rw [le_iff_fields, time_le_iff]
  simp only [and_true, Nat.le_iff_lt_or_eq, Nat.add_lt_add_iff_right,
    Nat.add_right_cancel_iff, same, Int.lt_irrefl, true_and, false_or]

/-- The place of the form of a year among the forms: signs come first. -/
def era (year : Int) : Nat :=
  if 0 ≤ year ∧ year ≤ 9999 then 2 else if year < 0 then 1 else 0

theorem era_cases (year : Int) :
    (0 ≤ year ∧ year ≤ 9999 ∧ era year = 2) ∨ (year < 0 ∧ era year = 1) ∨
      (9999 < year ∧ era year = 0) := by
  rw [era]
  split
  · omega
  · split
    · omega
    · omega

theorem year_mono {ms other : Int} (before : ms ≤ other) :
    year ms ≤ year other := by
  have fields := (le_iff_fields ms other).mp before
  omega

theorem unitsLe_isoChars_iff {ms : Int} (short : (year ms).natAbs < 10 ^ 6)
    (shortOther : (year other).natAbs < 10 ^ 6) :
    Text.unitsLe ((isoChars ms).map Char.toNat)
        ((isoChars other).map Char.toNat) = true ↔
      era (year ms) < era (year other) ∨
        era (year ms) = era (year other) ∧
          ((year ms).natAbs < (year other).natAbs ∨
            year ms = year other ∧ ms ≤ other) := by
  have rests := @unitsLe_restChars ms other
  rw [isoChars_eq, isoChars_eq, List.map_append, List.map_append]
  generalize (restChars ms).map Char.toNat = left at rests ⊢
  generalize (restChars other).map Char.toNat = right at rests ⊢
  generalize year ms = here at rests short ⊢
  generalize year other = there at rests shortOther ⊢
  have signs : '-'.toNat = 45 ∧ '+'.toNat = 43 := by decide
  have first : ∀ number, (digits 4 number).map Char.toNat =
      (48 + number / 10 ^ 3 % 10) :: (digits 3 number).map Char.toNat := by
    intro number
    rw [digits, List.map_cons, toNat_digitChar (Nat.mod_lt _ (by decide))]
  have tie : ∀ equal : Prop, (equal ↔ here = there) →
      (equal ∧ Text.unitsLe left right = true ↔
        here = there ∧ ms ≤ other) := fun _ same =>
    (and_congr_left' same).trans (and_congr_right rests)
  have mod : ∀ number, number < 10 ^ 6 → number % 10 ^ 6 = number :=
    fun number => Nat.mod_eq_of_lt
  rw [yearChars, yearChars, era, era]
  by_cases plain : 0 ≤ here ∧ here ≤ 9999
  · by_cases plainOther : 0 ≤ there ∧ there ≤ 9999
    · rw [if_pos plain, if_pos plainOther, if_pos plain, if_pos plainOther,
        unitsLe_digits, tie _ (by omega)]
      omega
    · rw [if_pos plain, if_neg plainOther, if_pos plain, if_neg plainOther,
        first, List.map_cons, List.cons_append, List.cons_append,
        Text.unitsLe]
      split
      · next negative =>
          rw [signs.1, if_neg (by omega), decide_eq_true_iff]
          omega
      · next positive =>
          rw [signs.2, if_neg (by omega), decide_eq_true_iff]
          omega
  · by_cases plainOther : 0 ≤ there ∧ there ≤ 9999
    · rw [if_neg plain, if_pos plainOther, if_neg plain, if_pos plainOther,
        first, List.map_cons, List.cons_append, List.cons_append,
        Text.unitsLe]
      split
      · next negative =>
          rw [signs.1, if_neg (by omega), decide_eq_true_iff]
          omega
      · next positive =>
          rw [signs.2, if_neg (by omega), decide_eq_true_iff]
          omega
    · rw [if_neg plain, if_neg plainOther, if_neg plain, if_neg plainOther,
        List.map_cons, List.map_cons, List.cons_append, List.cons_append]
      by_cases negative : here < 0
      · by_cases negativeOther : there < 0
        · rw [if_pos negative, if_pos negativeOther, if_pos negative,
            if_pos negativeOther, unitsLe_cons_self, unitsLe_digits,
            mod _ short, mod _ shortOther, tie _ (by omega)]
          omega
        · rw [if_pos negative, if_neg negativeOther, if_pos negative,
            if_neg negativeOther, Text.unitsLe, signs.1, signs.2,
            if_neg (by decide)]
          simp
      · by_cases negativeOther : there < 0
        · rw [if_neg negative, if_pos negativeOther, if_neg negative,
            if_pos negativeOther, Text.unitsLe, signs.1, signs.2,
            if_neg (by decide)]
          simp
        · rw [if_neg negative, if_neg negativeOther, if_neg negative,
            if_neg negativeOther, unitsLe_cons_self, unitsLe_digits,
            mod _ short, mod _ shortOther, tie _ (by omega)]
          omega

theorem unitsLe_isoChars {ms : Int} (plain : PlainYear ms)
    (plainOther : PlainYear other) :
    Text.unitsLe ((isoChars ms).map Char.toNat)
      ((isoChars other).map Char.toNat) = true ↔ ms ≤ other := by
  have forth := @year_mono ms other
  have back := @year_mono other ms
  rw [PlainYear] at plain plainOther
  rw [unitsLe_isoChars_iff (by omega) (by omega), era, era, if_pos plain,
    if_pos plainOther]
  omega

/-! ## Instants -/

/-- The milliseconds which a `Date` can hold. -/
structure Instant where
  ms : Int
  inRange : -8640000000000000 ≤ ms ∧ ms ≤ 8640000000000000
  deriving DecidableEq

namespace Instant

/-- `new Date(ms)`, where it is valid. -/
def ofMs? (ms : Int) : Option Instant :=
  if inRange : -8640000000000000 ≤ ms ∧ ms ≤ 8640000000000000 then
    some ⟨ms, inRange⟩
  else none

/-- `toISOString()`. -/
def text (instant : Instant) : String :=
  String.ofList (isoChars instant.ms)

/-- The comparison `left.text <= right.text` of texts. -/
def textLe (left right : Instant) : Bool :=
  Text.codeUnitLe left.text right.text

/-- The number which the characters of a field denote. -/
def fieldNumber (chars : List Char) : Int :=
  chars.foldl (fun sum char => 10 * sum + ((char.toNat : Int) - 48)) 0

/-- The milliseconds of a text with a year in front of the other fields. -/
def fieldsMs (year : Int) (rest : List Char) : Int :=
  let field := fun start width => fieldNumber ((rest.drop start).take width)
  (dayFromYear year +
      monthStart (leapDays year) ((field 1 2).toNat - 1) +
      field 4 2 - 1) * 86400000 +
    field 7 2 * 3600000 + field 10 2 * 60000 + field 13 2 * 1000 + field 16 3

/-- The milliseconds of a text of the form which `toISOString` writes. -/
def charsMs (chars : List Char) : Int :=
  if chars.head? = some '-' then
    fieldsMs (-fieldNumber ((chars.drop 1).take 6)) (chars.drop 7)
  else if chars.head? = some '+' then
    fieldsMs (fieldNumber ((chars.drop 1).take 6)) (chars.drop 7)
  else fieldsMs (fieldNumber (chars.take 4)) (chars.drop 4)

/-- The instant whose text by `toISOString` is the given one. -/
def parse? (text : String) : Option Instant :=
  match ofMs? (charsMs text.toList) with
  | some instant => if instant.text = text then some instant else none
  | none => none

theorem codeUnits_text (instant : Instant) :
    Text.codeUnits instant.text = (isoChars instant.ms).map Char.toNat := by
  rw [Text.codeUnits, text, String.toList_ofList,
    List.flatMap_def, List.map_congr_left fun char member => by
      rw [Text.utf16Units, if_pos (Nat.lt_trans
        (ascii_isoChars instant.ms char member) (by decide))],
    ← List.flatMap_def, List.map_eq_flatMap]

theorem textLe_iff {left right : Instant} (plain : PlainYear left.ms)
    (plainRight : PlainYear right.ms) :
    textLe left right = true ↔ left.ms ≤ right.ms := by
  rw [textLe, Text.codeUnitLe, codeUnits_text, codeUnits_text,
    unitsLe_isoChars plain plainRight]

theorem textLe_refl (instant : Instant) :
    instant.textLe instant = true := by
  have either := Text.unitsLe_total (Text.codeUnits instant.text)
    (Text.codeUnits instant.text)
  rw [or_self] at either
  rw [textLe, Text.codeUnitLe]
  exact either

theorem text_of_parse? {text : String} {instant : Instant}
    (parsed : parse? text = some instant) : instant.text = text := by
  rw [parse?] at parsed
  split at parsed
  · split at parsed
    · next same =>
        cases parsed
        exact same
    · cases parsed
  · cases parsed

theorem fieldNumber_digits (width number : Nat) :
    fieldNumber (digits width number) = (number % 10 ^ width : Nat) := by
  have behind : ∀ front : Int, (digits width number).foldl
      (fun sum char => 10 * sum + ((char.toNat : Int) - 48)) front =
        10 ^ width * front + (number % 10 ^ width : Nat) := by
    induction width with
    | zero =>
      intro front
      simp only [digits, List.foldl_nil, pow_zero, Nat.mod_one]
      omega
    | succ width inductionHypothesis =>
      intro front
      have small : number / 10 ^ width % 10 < 10 :=
        Nat.mod_lt _ (by decide)
      rw [digits, List.foldl_cons, inductionHypothesis,
        toNat_digitChar small, Nat.mod_pow_succ]
      push_cast
      ring
  rw [fieldNumber, behind, Int.mul_zero, Int.zero_add]

theorem fieldsMs_iso (ms : Int) (tail : List Char)
    (written : tail = '-' :: digits 2 (month ms + 1) ++
      '-' :: digits 2 (date ms) ++
      'T' :: digits 2 (timeWithinDay ms / 3600000) ++
      ':' :: digits 2 (timeWithinDay ms / 60000 % 60) ++
      ':' :: digits 2 (timeWithinDay ms / 1000 % 60) ++
      '.' :: digits 3 (timeWithinDay ms % 1000) ++ ['Z']) :
    fieldsMs (year ms) tail = ms := by
  have atMonth : (tail.drop 1).take 2 = digits 2 (month ms + 1) := by
    rw [written]
    rfl
  have atDate : (tail.drop 4).take 2 = digits 2 (date ms) := by
    rw [written]
    rfl
  have atHour : (tail.drop 7).take 2 =
      digits 2 (timeWithinDay ms / 3600000) := by
    rw [written]
    rfl
  have atMinute : (tail.drop 10).take 2 =
      digits 2 (timeWithinDay ms / 60000 % 60) := by
    rw [written]
    rfl
  have atSecond : (tail.drop 13).take 2 =
      digits 2 (timeWithinDay ms / 1000 % 60) := by
    rw [written]
    rfl
  have atMilli : (tail.drop 16).take 3 =
      digits 3 (timeWithinDay ms % 1000) := by
    rw [written]
    rfl
  rcases month_spec ms with ⟨inYear, inMonth, inDate⟩
  rw [fieldsMs]
  simp only [atMonth, atDate, atHour, atMinute, atSecond, atMilli,
    fieldNumber_digits]
  have monthIndex : ((((month ms + 1) % 10 ^ 2 : Nat) : Int).toNat - 1) =
      month ms := by omega
  rw [monthIndex]
  have toDay : dayFromYear (year ms) +
      monthStart (leapDays (year ms)) (month ms) + date ms - 1 = day ms := by
    rw [dayWithinYear] at inDate
    omega
  have time : timeWithinDay ms = ms % 86400000 := by
    rw [timeWithinDay]
    omega
  have toMs : ms = day ms * 86400000 + timeWithinDay ms := by
    rw [time, day]
    omega
  have inDay : timeWithinDay ms < 86400000 := by omega
  have dateText : ((date ms % 10 ^ 2 : Nat) : Int) = date ms := by omega
  rw [dateText, toDay]
  omega

theorem year_bounds (instant : Instant) :
    -1000000 < year instant.ms ∧ year instant.ms < 1000000 := by
  have inYear := yearFromDay_spec (day instant.ms)
  have inRange := instant.inRange
  have days : -100000000 ≤ day instant.ms ∧ day instant.ms ≤ 100000000 := by
    rw [day]
    omega
  have early : dayFromYear (-999998) < -100000000 := by decide
  have late : 100000000 < dayFromYear 1000000 := by decide
  constructor
  · by_contra before
    have next : year instant.ms + 1 ≤ -999998 := by omega
    have mono := dayFromYear_mono next
    rw [year] at mono
    omega
  · by_contra after
    have mono := dayFromYear_mono (Int.not_lt.mp after)
    rw [year] at mono
    omega

theorem charsMs_plain (number : Nat) (rest : List Char) :
    charsMs (digits 4 number ++ rest) =
      fieldsMs (number % 10 ^ 4 : Nat) rest := by
  have first : Nat.digitChar (number / 10 ^ 3 % 10) ∈ digits 4 number :=
    List.mem_cons_self
  have digit := ascii_digits first
  have leading : (digits 4 number ++ rest).head? =
      some (Nat.digitChar (number / 10 ^ 3 % 10)) := rfl
  have notSign : ∀ sign : Char, sign.toNat < 48 →
      (digits 4 number ++ rest).head? ≠ some sign := by
    intro sign low same
    rw [leading] at same
    rw [Option.some.inj same] at digit
    exact absurd low (Nat.not_lt.mpr digit.1)
  rw [charsMs, if_neg (notSign '-' (by decide)),
    if_neg (notSign '+' (by decide)), ← fieldNumber_digits]
  rfl

theorem charsMs_iso (instant : Instant) :
    charsMs (isoChars instant.ms) = instant.ms := by
  rcases year_bounds instant with ⟨lower, upper⟩
  have tail := fieldsMs_iso instant.ms _ rfl
  rw [isoChars, yearChars]
  split
  · next plain =>
      have yearText : ((year instant.ms).toNat % 10 ^ 4 : Nat) =
          year instant.ms := by omega
      rw [← yearText] at tail
      exact (charsMs_plain _ _).trans tail
  · next signed =>
      split
      · next negative =>
          have yearText : -((year instant.ms).natAbs % 10 ^ 6 : Nat) =
              year instant.ms := by omega
          rw [← yearText, ← fieldNumber_digits] at tail
          exact tail
      · next positive =>
          have yearText : ((year instant.ms).natAbs % 10 ^ 6 : Nat) =
              year instant.ms := by omega
          rw [← yearText, ← fieldNumber_digits] at tail
          exact tail

theorem parse?_text (instant : Instant) :
    parse? instant.text = some instant := by
  have read : ofMs? (charsMs instant.text.toList) = some instant := by
    rw [text, String.toList_ofList, charsMs_iso, ofMs?,
      dif_pos instant.inRange]
  rw [parse?, read]
  exact if_pos rfl

/-! ## Windows whose bounds are compared as texts -/

theorem textLe_iff_years (left right : Instant) :
    left.textLe right = true ↔
      era (year left.ms) < era (year right.ms) ∨
        era (year left.ms) = era (year right.ms) ∧
          ((year left.ms).natAbs < (year right.ms).natAbs ∨
            year left.ms = year right.ms ∧ left.ms ≤ right.ms) := by
  have here := year_bounds left
  have there := year_bounds right
  rw [textLe, Text.codeUnitLe, codeUnits_text, codeUnits_text,
    unitsLe_isoChars_iff (by omega) (by omega)]

/--
A window `first < last`, whose first bound comes before `high` and `high`
before its last bound as texts, is open at `high` as a time.
-/
theorem lt_of_textLe {first high last : Instant} (wide : first.ms < last.ms)
    (below : first.textLe high = true) (before : ¬ last.textLe high = true) :
    high.ms < last.ms := by
  rw [textLe_iff_years] at below before
  have years := year_mono (Int.le_of_lt wide)
  have forth := @year_mono high.ms last.ms
  have back := @year_mono last.ms high.ms
  have eraFirst := era_cases (year first.ms)
  have eraHigh := era_cases (year high.ms)
  have eraLast := era_cases (year last.ms)
  omega

section Inside

variable {first stop high last : Instant}

theorem le_of_textLe (wide : first.ms < stop.ms)
    (below : first.textLe high = true) (before : ¬ last.textLe high = true)
    (above : last.textLe stop = true) (positive : 0 ≤ year first.ms)
    (positiveHigh : 0 ≤ year high.ms) : first.ms ≤ high.ms := by
  rw [textLe_iff_years] at below before above
  have years := year_mono (Int.le_of_lt wide)
  have back := @year_mono high.ms first.ms
  have eraFirst := era_cases (year first.ms)
  have eraHigh := era_cases (year high.ms)
  have eraStop := era_cases (year stop.ms)
  omega

theorem last_le_of_textLe (wide : first.ms < stop.ms)
    (below : first.textLe high = true) (before : ¬ last.textLe high = true)
    (above : last.textLe stop = true) (positive : 0 ≤ year first.ms)
    (positiveHigh : 0 ≤ year high.ms) (positiveLast : 0 ≤ year last.ms) :
    last.ms ≤ stop.ms := by
  rw [textLe_iff_years] at below before above
  have years := year_mono (Int.le_of_lt wide)
  have back := @year_mono stop.ms last.ms
  have eraFirst := era_cases (year first.ms)
  have eraHigh := era_cases (year high.ms)
  have eraLast := era_cases (year last.ms)
  have eraStop := era_cases (year stop.ms)
  omega

end Inside

end Instant

end Mendpoint.Library.IsoTime
