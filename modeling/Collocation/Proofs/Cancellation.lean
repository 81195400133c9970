import Collocation.Proofs.Exact
import Mathlib.Tactic.FieldSimp
import Mathlib.Tactic.LinearCombination

/-! # Cancelling in exact arithmetic

  What two operations come to where the second takes back the first. The equations of a field hold
  wherever the result is finite, also if an intermediate value was an infinity: a finite number
  divided by it is zero. -/

namespace Collocation
namespace Extended

variable {K : Type} [Field K] [LinearOrder K] [FloorRing K] [Interpretation K]
  {a b c x y : Extended K} {z : K}

/-! ## Sums and differences -/

theorem sub_of_neg_add (h : -x + b = finite z) : b - x = finite z := by
  obtain ⟨p, q, hp, rfl, hz⟩ := add_eq_finite h
  rw [neg_eq_finite hp, finite_sub, ← hz]
  congr 1
  ring

theorem sub_of_add_neg (h : a + -y = finite z) : a - y = finite z := by
  rw [add_commutes] at h
  exact sub_of_neg_add h

theorem add_of_sub_neg (h : a - -y = finite z) : a + y = finite z := by
  obtain ⟨p, q, rfl, hq, hz⟩ := sub_eq_finite h
  rw [neg_eq_finite hq, finite_add, ← hz, sub_eq_add_neg]

theorem add_of_neg_sub (h : -x - b = finite z) : x + b = finite (-z) := by
  obtain ⟨p, q, hp, rfl, hz⟩ := sub_eq_finite h
  rw [neg_eq_finite hp, finite_add, ← hz]
  congr 1
  ring

theorem eq_of_sub_add (h : x - y + y = finite z) : x = finite z := by
  obtain ⟨_, q, hxy, rfl, hz⟩ := add_eq_finite h
  obtain ⟨p, q', rfl, hq, hpq⟩ := sub_eq_finite hxy
  cases hq
  rw [← hz, ← hpq, sub_add_cancel]

theorem eq_of_add_sub_left (h : x + y - x = finite z) : y = finite z := by
  obtain ⟨_, p, hxy, rfl, hz⟩ := sub_eq_finite h
  obtain ⟨p', q, hp, rfl, hpq⟩ := add_eq_finite hxy
  cases hp
  rw [← hz, ← hpq, add_sub_cancel_left]

theorem eq_of_add_sub_right (h : x + y - y = finite z) : x = finite z := by
  rw [add_commutes] at h
  exact eq_of_add_sub_left h

theorem neg_of_sub_sub (h : x - y - x = finite z) : -y = finite z := by
  obtain ⟨_, p, hxy, rfl, hz⟩ := sub_eq_finite h
  obtain ⟨p', q, hp, rfl, hpq⟩ := sub_eq_finite hxy
  cases hp
  rw [finite_neg, ← hz, ← hpq]
  congr 1
  ring

theorem neg_of_sub_add (h : a - (x + a) = finite z) : -x = finite z := by
  obtain ⟨p, _, rfl, hxy, hz⟩ := sub_eq_finite h
  obtain ⟨q, p', rfl, hp, hpq⟩ := add_eq_finite hxy
  cases hp
  rw [finite_neg, ← hz, ← hpq]
  congr 1
  ring

theorem eq_of_add_halves (h : Number.half * x + Number.half * x = finite z) : x = finite z := by
  obtain ⟨p, p', hp, -, hz⟩ := add_eq_finite h
  obtain ⟨c, q, hc, rfl, -⟩ := mul_eq_finite hp
  rw [half_eq, finite_mul, finite_add] at h
  rw [← Extended.finite.inj h]
  congr 1
  ring

theorem eq_of_add_halved (h : x / finite 2 + x / finite 2 = finite z) : x = finite z := by
  obtain ⟨p, p', hp, -, hz⟩ := add_eq_finite h
  obtain ⟨q, rfl, ⟨c, hc, htwo, -⟩ | ⟨⟨s, hs⟩, -⟩⟩ := div_eq_finite hp
  · cases htwo
    rw [finite_div _ hc, finite_add] at h
    rw [← Extended.finite.inj h]
    congr 1
    field_simp
    ring
  · cases hs

theorem eq_zero_of_sub_self (h : a - a = finite z) : z = 0 := by
  obtain ⟨p, q, rfl, hq, hz⟩ := sub_eq_finite h
  cases hq
  rw [← hz, sub_self]

theorem neg_of_zero_sub (h : finite 0 - b = finite z) : -b = finite z := by
  obtain ⟨p, q, hp, rfl, hz⟩ := sub_eq_finite h
  cases hp
  rw [finite_neg, ← hz, zero_sub]

theorem add_finite_zero (a : Extended K) : a + finite 0 = a := by
  rw [add_commutes, finite_zero_add]

/-! ## Zeros and ones -/

theorem eq_of_one_mul (h : finite 1 * b = finite z) : b = finite z := by
  obtain ⟨p, q, hp, rfl, hz⟩ := mul_eq_finite h
  cases hp
  rw [← hz, one_mul]

theorem add_self_of_two_mul (h : finite 2 * b = finite z) : b + b = finite z := by
  obtain ⟨p, q, hp, rfl, hz⟩ := mul_eq_finite h
  cases hp
  rw [finite_add, ← hz, two_mul]

theorem eq_zero_of_zero_mul (h : finite 0 * b = finite z) : z = 0 := by
  obtain ⟨p, q, hp, rfl, hz⟩ := mul_eq_finite h
  cases hp
  rw [← hz, zero_mul]

theorem eq_zero_of_zero_div (h : finite 0 / b = finite z) : z = 0 := by
  obtain ⟨p, hp, ⟨q, -, -, hz⟩ | ⟨-, hz⟩⟩ := div_eq_finite h
  · cases hp
    rw [← hz, zero_div]
  · exact hz

theorem div_zero_ne_finite : a / finite 0 ≠ finite z := by
  intro h
  obtain ⟨p, -, ⟨q, hq, hb, -⟩ | ⟨⟨s, hb⟩, -⟩⟩ := div_eq_finite h
  · cases hb
    exact hq rfl
  · cases hb

/-- Only zero is infinite as a divisor. -/
theorem eq_zero_of_div_eq_infinite {p : K} {s : Bool} (h : finite p / b = infinite s) :
    b = finite 0 := by
  cases b with
  | finite q =>
    by_cases hq : q = 0
    · rw [hq]
    · rw [finite_div p hq] at h
      cases h
  | infinite t => cases h
  | undefined => cases h

theorem eq_one_of_div_self (h : a / a = finite z) : z = 1 := by
  obtain ⟨p, rfl, ⟨q, hq, hb, hz⟩ | ⟨⟨s, hb⟩, -⟩⟩ := div_eq_finite h
  · cases hb
    rw [← hz, div_self hq]
  · cases hb

theorem div_one_eq (h : a / finite 1 = finite z) : a = finite z := by
  obtain ⟨p, rfl, ⟨q, -, hb, hz⟩ | ⟨⟨s, hb⟩, -⟩⟩ := div_eq_finite h
  · cases hb
    rw [← hz, div_one]
  · cases hb

/-- Half of what is doubled. -/
theorem add_self_of_div_half (h : a / Number.half = finite z) : a + a = finite z := by
  rw [half_eq] at h
  obtain ⟨p, rfl, ⟨q, -, hb, hz⟩ | ⟨⟨s, hb⟩, -⟩⟩ := div_eq_finite h
  · cases hb
    rw [finite_add, ← hz]
    congr 1
    field_simp
    ring
  · cases hb

/-! ## Signs -/

theorem neg_of_neg_one_mul (h : finite (-1) * b = finite z) : -b = finite z := by
  obtain ⟨p, q, hp, rfl, hz⟩ := mul_eq_finite h
  cases hp
  rw [finite_neg, ← hz, neg_one_mul]

theorem div_of_neg_one_div (h : finite (-1) / b = finite z) : finite 1 / b = finite (-z) := by
  obtain ⟨p, hp, ⟨q, hq, rfl, hz⟩ | ⟨⟨s, rfl⟩, rfl⟩⟩ := div_eq_finite h
  · cases hp
    rw [finite_div _ hq, ← hz, neg_div, neg_neg]
  · rw [neg_zero]
    rfl

theorem mul_of_mul_neg (h : a * -b = finite z) : a * b = finite (-z) := by
  obtain ⟨p, q, rfl, hq, hz⟩ := mul_eq_finite h
  rw [neg_eq_finite hq, finite_mul, ← hz, mul_neg]

theorem div_of_div_neg (h : a / -b = finite z) : a / b = finite (-z) := by
  obtain ⟨p, rfl, ⟨q, hq, hb, hz⟩ | ⟨⟨s, hb⟩, rfl⟩⟩ := div_eq_finite h
  · rw [neg_eq_finite hb, finite_div _ (neg_ne_zero.mpr hq), ← hz, div_neg]
  · -- the opposite of an infinity is one
    cases b with
    | finite q => cases hb
    | infinite t =>
      rw [neg_zero]
      rfl
    | undefined => cases hb

theorem eq_neg_one_of_div_neg_self (h : a / -a = finite z) : z = -1 := by
  obtain ⟨p, rfl, ⟨q, hq, hb, hz⟩ | ⟨⟨s, hb⟩, -⟩⟩ := div_eq_finite h
  · cases hb
    have hp : p ≠ 0 := neg_ne_zero.mp hq
    rw [← hz, div_neg, div_self hp]
  · cases hb

theorem neg_of_div_neg_one (h : a / finite (-1) = finite z) : -a = finite z := by
  obtain ⟨p, rfl, ⟨q, -, hb, hz⟩ | ⟨⟨s, hb⟩, -⟩⟩ := div_eq_finite h
  · cases hb
    rw [finite_neg, ← hz, div_neg, div_one]
  · cases hb

/-! ## Factors and divisors -/

theorem eq_of_inverse_inverse (h : finite 1 / (finite 1 / a) = finite z) : a = finite z := by
  obtain ⟨p, hp, ⟨q, hq, hb, hz⟩ | ⟨⟨s, hb⟩, rfl⟩⟩ := div_eq_finite h
  · cases hp
    obtain ⟨p', hp', ⟨r, hr, rfl, hqr⟩ | ⟨-, hzero⟩⟩ := div_eq_finite hb
    · cases hp'
      rw [← hz, ← hqr, one_div_one_div]
    · exact (hq hzero).elim
  · exact eq_zero_of_div_eq_infinite hb

theorem div_of_mul_inverse (h : a * (finite 1 / b) = finite z) : a / b = finite z := by
  obtain ⟨p, q, rfl, hq, hz⟩ := mul_eq_finite h
  obtain ⟨p', hp', ⟨r, hr, rfl, hqr⟩ | ⟨⟨s, rfl⟩, rfl⟩⟩ := div_eq_finite hq
  · cases hp'
    rw [finite_div _ hr, ← hz, ← hqr, mul_one_div]
  · rw [← hz, mul_zero]
    rfl

theorem mul_of_div_inverse (h : a / (finite 1 / b) = finite z) : a * b = finite z := by
  obtain ⟨p, rfl, ⟨q, hq, hb, hz⟩ | ⟨⟨s, hb⟩, rfl⟩⟩ := div_eq_finite h
  · obtain ⟨p', hp', ⟨r, hr, rfl, hqr⟩ | ⟨-, hzero⟩⟩ := div_eq_finite hb
    · cases hp'
      rw [finite_mul, ← hz, ← hqr, div_div_eq_mul_div, div_one]
    · exact (hq hzero).elim
  · rw [eq_zero_of_div_eq_infinite hb, finite_mul, mul_zero]

theorem eq_of_mul_mul (hab : a * b = finite 1) (h : a * (b * c) = finite z) : c = finite z := by
  obtain ⟨p, q, rfl, rfl, hpq⟩ := mul_eq_finite hab
  obtain ⟨p', q', hp', hbc, hz⟩ := mul_eq_finite h
  cases hp'
  obtain ⟨q'', r, hq'', rfl, hqr⟩ := mul_eq_finite hbc
  cases hq''
  rw [← hz, ← hqr, ← mul_assoc, hpq, one_mul]

theorem eq_of_mul_div (h : a * (c / a) = finite z) : c = finite z := by
  obtain ⟨p, q, rfl, hq, hz⟩ := mul_eq_finite h
  obtain ⟨r, rfl, ⟨p', hp, hp', hqr⟩ | ⟨⟨s, hs⟩, -⟩⟩ := div_eq_finite hq
  · cases hp'
    rw [← hz, ← hqr, mul_div_cancel₀ r hp]
  · cases hs

theorem inverse_of_div_mul (h : a / (c * a) = finite z) : finite 1 / c = finite z := by
  obtain ⟨p, rfl, ⟨q, hq, hb, hz⟩ | ⟨⟨s, hb⟩, rfl⟩⟩ := div_eq_finite h
  · obtain ⟨r, p', rfl, hp', hqr⟩ := mul_eq_finite hb
    cases hp'
    have hr : r ≠ 0 := by
      rintro rfl
      exact hq (by rw [← hqr, zero_mul])
    have hp : p ≠ 0 := by
      rintro rfl
      exact hq (by rw [← hqr, mul_zero])
    rw [finite_div _ hr, ← hz, ← hqr, div_mul_cancel_right₀ hp, one_div]
  · -- a finite factor leaves a finite product finite
    cases c with
    | finite r => cases hb
    | infinite t => rfl
    | undefined => cases hb

end Extended
end Collocation
