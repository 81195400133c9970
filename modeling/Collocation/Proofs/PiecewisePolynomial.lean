import Collocation.Proofs.PolynomialRules
import Collocation.Proofs.Quadrature
import Mathlib.Analysis.Calculus.Deriv.Polynomial
import Mathlib.MeasureTheory.Integral.IntervalIntegral.FundThmCalculus
import Mathlib.Topology.Algebra.Polynomial

/-! # Integrals of piecewise polynomials

  A function that is a polynomial between every two neighbouring times, which may go forwards or
  backwards. The rules integrate it exactly if the degrees are low, over one interval and so over
  all of them: the integral is the sum with quadrature weights. -/

namespace Collocation

open Polynomial Finset

/-- Every polynomial is a derivative. -/
theorem exists_derivative_eq (P : ℝ[X]) :
    ∃ A : ℝ[X], derivative A = P ∧ A.natDegree ≤ P.natDegree + 1 := by
  refine ⟨∑ i ∈ range (P.natDegree + 1), C (P.coeff i / (i + 1)) * X ^ (i + 1), ?_, ?_⟩
  · conv_rhs => rw [P.as_sum_range_C_mul_X_pow]
    rw [derivative_sum]
    apply sum_congr rfl
    intro i _
    have hne : (i : ℝ) + 1 ≠ 0 := by positivity
    rw [derivative_C_mul_X_pow, Nat.add_sub_cancel, Nat.cast_succ, div_mul_cancel₀ _ hne]
  · apply natDegree_sum_le_of_forall_le
    intro i hi
    exact (natDegree_C_mul_X_pow_le _ _).trans (Nat.succ_le_succ (by
      rw [mem_range] at hi
      omega))

variable {q : ℝ → ℝ} {a b : ℝ}

/-- Where a function is a polynomial, its integral is the change of one with this derivative. -/
theorem integral_eq_eval_sub {A P : ℝ[X]} (hA : derivative A = P)
    (hq : ∀ t ∈ Set.uIcc a b, q t = P.eval t) :
    IntervalIntegrable q MeasureTheory.volume a b ∧ ∫ t in a..b, q t = A.eval b - A.eval a := by
  have hcontinuous : IntervalIntegrable (fun t => P.eval t) MeasureTheory.volume a b :=
    P.continuous.intervalIntegrable a b
  constructor
  · apply hcontinuous.congr
    intro t ht
    exact (hq t (Set.uIoc_subset_uIcc ht)).symm
  · rw [intervalIntegral.integral_congr hq]
    apply intervalIntegral.integral_eq_sub_of_hasDerivAt _ hcontinuous
    intro t _
    rw [← hA]
    exact A.hasDerivAt t

/-- On each of the first `n` intervals between the times, the function is a polynomial of at most
    the given degree. -/
def PiecewisePolynomial (degree n : Nat) (time : Nat → ℝ) (q : ℝ → ℝ) : Prop :=
  ∀ k < n, ∃ P : ℝ[X], P.natDegree ≤ degree ∧
    ∀ t ∈ Set.uIcc (time k) (time (k + 1)), q t = P.eval t

namespace PiecewisePolynomial

variable {degree n k : Nat} {time : Nat → ℝ}

theorem intervalIntegrable (h : PiecewisePolynomial degree n time q) (hk : k < n) :
    IntervalIntegrable q MeasureTheory.volume (time k) (time (k + 1)) := by
  obtain ⟨P, -, hq⟩ := h k hk
  obtain ⟨A, hA, -⟩ := exists_derivative_eq P
  exact (integral_eq_eval_sub hA hq).1

/-- The integral over one interval, by the trapezoidal rule. -/
theorem integral_eq_trapezoid (h : PiecewisePolynomial 1 n time q) (hk : k < n) :
    ∫ t in time k..time (k + 1), q t =
      (time (k + 1) - time k) / 2 * (q (time k) + q (time (k + 1))) := by
  obtain ⟨P, hdegree, hq⟩ := h k hk
  obtain ⟨A, hA, hdegree'⟩ := exists_derivative_eq P
  rw [(integral_eq_eval_sub hA hq).2, eval_sub_eval_eq_trapezoid (hdegree'.trans (by omega)), hA,
    hq _ Set.left_mem_uIcc, hq _ Set.right_mem_uIcc]

/-- The integral over one interval, by Simpson's rule. -/
theorem integral_eq_simpson (h : PiecewisePolynomial 3 n time q) (hk : k < n) :
    ∫ t in time k..time (k + 1), q t =
      (time (k + 1) - time k) / 6 *
        (q (time k) + 4 * q ((time k + time (k + 1)) / 2) + q (time (k + 1))) := by
  obtain ⟨P, hdegree, hq⟩ := h k hk
  obtain ⟨A, hA, hdegree'⟩ := exists_derivative_eq P
  have hmiddle : (time k + time (k + 1)) / 2 ∈ Set.uIcc (time k) (time (k + 1)) := by
    rw [Set.mem_uIcc]
    rcases le_total (time k) (time (k + 1)) with hle | hle
    · exact .inl ⟨by linarith, by linarith⟩
    · exact .inr ⟨by linarith, by linarith⟩
  rw [(integral_eq_eval_sub hA hq).2, eval_sub_eval_eq_simpson (hdegree'.trans (by omega)), hA,
    hq _ Set.left_mem_uIcc, hq _ hmiddle, hq _ Set.right_mem_uIcc]

/-- The integral up to a time grows by the integral over the next interval. -/
theorem integral_succ (h : PiecewisePolynomial degree n time q) (hk : k < n) :
    (∫ t in time 0..time (k + 1), q t) - ∫ t in time 0..time k, q t =
      ∫ t in time k..time (k + 1), q t := by
  have hupTo : ∀ m ≤ n, IntervalIntegrable q MeasureTheory.volume (time 0) (time m) := by
    intro m hm
    exact IntervalIntegrable.trans_iterate fun j hj => h.intervalIntegrable (by omega)
  exact intervalIntegral.integral_interval_sub_left (hupTo (k + 1) (by omega))
    (hupTo k (by omega))

variable {step value : Nat → ℝ} {duration : ℝ}

/-- The integral of a piecewise linear function, with the weights of the trapezoidal rule. -/
theorem integral_eq_sum_share (h : PiecewisePolynomial 1 n time q)
    (hstep : ∀ k < n, time (k + 1) - time k = duration * step k)
    (hvalue : ∀ k ≤ n, q (time k) = value k) :
    ∫ t in time 0..time n, q t =
      duration * ∑ i ∈ range (n + 1), share n (fun k => step k / 2) i * value i := by
  have hrule : ∀ k < n, (∫ t in time 0..time (k + 1), q t) - ∫ t in time 0..time k, q t =
      duration * (step k / 2) * (value k + value (k + 1)) := by
    intro k hk
    rw [h.integral_succ hk, h.integral_eq_trapezoid hk, hstep k hk, hvalue k (by omega),
      hvalue (k + 1) (by omega), mul_div_assoc]
  have hsum := trapezoidal_telescopes (x := fun k => ∫ t in time 0..time k, q t) hrule
  rw [intervalIntegral.integral_same, sub_zero] at hsum
  exact hsum

/-- The integral of a piecewise cubic function, with the weights of Simpson's rule. -/
theorem integral_eq_sum_simpsonShare (h : PiecewisePolynomial 3 n time q)
    (hstep : ∀ k < n, time (k + 1) - time k = duration * step k)
    (hvalue : ∀ k ≤ n, q (time k) = value (2 * k))
    (hmiddle : ∀ k < n, q ((time k + time (k + 1)) / 2) = value (2 * k + 1)) :
    ∫ t in time 0..time n, q t =
      duration * ∑ i ∈ range (2 * n + 1), simpsonShare n step i * value i := by
  have hhalf : ∀ k, 2 * k / 2 = k := by
    intro k
    omega
  have hrule : ∀ k < n,
      (∫ t in time 0..time ((2 * k + 2) / 2), q t) - ∫ t in time 0..time (2 * k / 2), q t =
        duration * step k / 6 * (value (2 * k) + 4 * value (2 * k + 1) + value (2 * k + 2)) := by
    intro k hk
    rw [show (2 * k + 2) / 2 = k + 1 by omega, hhalf, h.integral_succ hk,
      h.integral_eq_simpson hk, hstep k hk, hvalue k (by omega), hmiddle k hk,
      hvalue (k + 1) (by omega), show 2 * (k + 1) = 2 * k + 2 by ring]
  have hsum := simpson_telescopes (x := fun i => ∫ t in time 0..time (i / 2), q t) hrule
  simp only [hhalf, Nat.zero_div, intervalIntegral.integral_same, sub_zero] at hsum
  exact hsum

end PiecewisePolynomial
end Collocation
