import Mathlib.Algebra.CharP.Defs
import Mathlib.Algebra.Polynomial.Derivative
import Mathlib.Algebra.Polynomial.Eval.Degree
import Mathlib.Tactic.FieldSimp

/-! # The rules of the two schemes on polynomials

  Over one interval the trapezoidal rule integrates linear slopes exactly, Simpson's rule cubic
  ones, and Hermite interpolation finds the middle of a cubic polynomial. The degrees in the
  statements are those of the polynomial itself, of which the slope is the derivative. -/

namespace Collocation

open Polynomial

variable {K : Type} [Field K] {P : K[X]} {n : Nat}

/-- The derivative has one coefficient less. -/
theorem eval_derivative_eq_sum (h : P.natDegree ≤ n + 1) (x : K) :
    P.derivative.eval x = ∑ i ∈ Finset.range (n + 1), P.coeff (i + 1) * (i + 1) * x ^ i := by
  have hdegree : P.derivative.natDegree ≤ n := (natDegree_derivative_le P).trans (by omega)
  rw [eval_eq_sum_range' (Nat.lt_succ_of_le hdegree)]
  simp only [coeff_derivative]

/-! ## One interval -/

section Rules

variable [CharZero K]

/-- The trapezoidal rule is exact for quadratic polynomials. -/
theorem eval_sub_eval_eq_trapezoid (h : P.natDegree ≤ 2) (a b : K) :
    P.eval b - P.eval a = (b - a) / 2 * (P.derivative.eval a + P.derivative.eval b) := by
  simp only [eval_eq_sum_range' (Nat.lt_succ_of_le h), eval_derivative_eq_sum h,
    Finset.sum_range_succ, Finset.sum_range_zero]
  push_cast
  field_simp
  ring

/-- Simpson's rule is exact for quartic polynomials. -/
theorem eval_sub_eval_eq_simpson (h : P.natDegree ≤ 4) (a b : K) :
    P.eval b - P.eval a =
      (b - a) / 6 *
        (P.derivative.eval a + 4 * P.derivative.eval ((a + b) / 2) + P.derivative.eval b) := by
  simp only [eval_eq_sum_range' (Nat.lt_succ_of_le h), eval_derivative_eq_sum h,
    Finset.sum_range_succ, Finset.sum_range_zero]
  push_cast
  field_simp
  ring

/-- Hermite interpolation is exact for cubic polynomials. -/
theorem eval_middle_eq_hermite (h : P.natDegree ≤ 3) (a b : K) :
    P.eval ((a + b) / 2) =
      (P.eval a + P.eval b) / 2 + (b - a) / 8 * (P.derivative.eval a - P.derivative.eval b) := by
  simp only [eval_eq_sum_range' (Nat.lt_succ_of_le h), eval_derivative_eq_sum h,
    Finset.sum_range_succ, Finset.sum_range_zero]
  push_cast
  field_simp
  ring

end Rules
end Collocation
