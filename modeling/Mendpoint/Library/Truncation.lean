import Mathlib.Tactic.Linarith
import Mendpoint.Library.Counting

/-!
# Quotients which are rounded toward zero

The sum of the quotients of several numbers by one divisor, against the sum of
the numbers: every positive number which the divisor does not divide loses
less than one, and the first of them costs the sum nothing.
-/

namespace Mendpoint.Library.Truncation

open Mendpoint.Library.FilteredSum

/-- A quotient by which a positive number has lost something. -/
def Shortened (divisor number : Int) : Prop :=
  0 < number ∧ ¬ divisor ∣ number

instance (divisor number : Int) : Decidable (Shortened divisor number) :=
  inferInstanceAs (Decidable (_ ∧ _))

/-- The numbers whose quotients have lost something. -/
def shortened (divisor : Int) (numbers : List Int) : Nat :=
  numbers.countP fun number => decide (Shortened divisor number)

/-- The sum of the quotients. -/
def quotients (divisor : Int) (numbers : List Int) : Int :=
  (numbers.map fun number => number.tdiv divisor).sum

variable {divisor : Int} {numbers : List Int}

theorem number_le (positive : 0 < divisor) (number : Int) :
    number ≤ divisor * number.tdiv divisor +
      if Shortened divisor number then divisor - 1 else 0 := by
  have whole := Int.mul_tdiv_add_tmod number divisor
  split
  · have small := Int.tmod_lt_of_pos number positive
    omega
  · next kept =>
      have notMore : number.tmod divisor ≤ 0 := by
        by_cases above : 0 < number
        · have divides : divisor ∣ number :=
            not_not.mp fun not => kept ⟨above, not⟩
          exact Int.le_of_eq (Int.tmod_eq_zero_of_dvd divides)
        · have opposite := @Int.tmod_nonneg (-number) divisor
            (Int.neg_nonneg_of_nonpos (not_lt.mp above))
          rw [Int.neg_tmod] at opposite
          omega
      omega

theorem sum_le_quotients (positive : 0 < divisor) (numbers : List Int) :
    numbers.sum ≤ divisor * quotients divisor numbers +
      (divisor - 1) * shortened divisor numbers := by
  induction numbers with
  | nil =>
    rw [quotients, shortened, List.map_nil, List.sum_nil, List.countP_nil,
      Int.mul_zero, Nat.cast_zero, Int.mul_zero]
    exact Int.le_refl 0
  | cons number rest inductionHypothesis =>
    have first := number_le positive number
    have counted : ((shortened divisor (number :: rest) : Nat) : Int) =
        shortened divisor rest +
          if Shortened divisor number then 1 else 0 := by
      rw [shortened, List.countP_cons, shortened]
      by_cases short : Shortened divisor number
      · simp [short]
      · simp [short]
    have divided : quotients divisor (number :: rest) =
        number.tdiv divisor + quotients divisor rest := by
      rw [quotients, List.map_cons, List.sum_cons, quotients]
    rw [List.sum_cons, divided, counted]
    split at first
    · next short =>
        rw [if_pos short]
        linarith
    · next kept =>
        rw [if_neg kept]
        linarith

/-- The quotients of numbers whose sum is not negative miss little. -/
theorem quotients_ge (positive : 0 < divisor) (nonneg : 0 ≤ numbers.sum) :
    0 ≤ quotients divisor numbers +
      (shortened divisor numbers - 1 : Nat) := by
  have bound := sum_le_quotients positive numbers
  rcases Nat.eq_zero_or_pos (shortened divisor numbers) with none' | some'
  · rw [none', Nat.cast_zero, Int.mul_zero, Int.add_zero] at bound
    rw [none']
    have whole : 0 ≤ divisor * quotients divisor numbers :=
      nonneg.trans bound
    simpa using nonneg_of_mul_nonneg_right whole positive
  · rw [Nat.cast_sub some']
    by_contra below
    rw [not_le] at below
    have most : quotients divisor numbers ≤
        -(shortened divisor numbers : Int) := by
      omega
    have scaled := Int.mul_le_mul_of_nonneg_left most (Int.le_of_lt positive)
    have counted : (0 : Int) < shortened divisor numbers :=
      Int.natCast_pos.mpr some'
    linarith

theorem quotients_neg (divisor : Int) (numbers : List Int) :
    quotients divisor (numbers.map fun number => -number) =
      -quotients divisor numbers := by
  induction numbers with
  | nil => rfl
  | cons number rest inductionHypothesis =>
    rw [quotients] at inductionHypothesis ⊢
    rw [List.map_cons, List.map_cons, List.sum_cons, inductionHypothesis,
      quotients, quotients, List.map_cons, List.sum_cons, Int.neg_tdiv]
    omega

end Mendpoint.Library.Truncation
