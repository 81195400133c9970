import Collocation.Number
import Mathlib.Algebra.Order.Field.Basic
import Mathlib.Algebra.Order.Floor.Ring
import Mathlib.Data.Rat.Floor
import Mathlib.Tactic.Linarith
import Mathlib.Tactic.Ring

/-! # Exact numbers

  The numbers of an ordered field without rounding, with two infinities and an undefined value
  around them. Operations on finite numbers are those of the field; next to an infinity they
  follow the limits, and where there is no limit the result is undefined. There is one zero, so a
  finite number divided by zero has the sign of the number.

  The field is any ordered one. Elementary functions, powers and written forms are left open:
  whatever is proved over exact numbers holds for every choice of them, so for the real numbers
  with the usual functions, and over the rational numbers it can be computed. -/

namespace Collocation

/-- A number of `K`, an infinity, or the undefined value. -/
inductive Extended (K : Type) where
  | finite (x : K)
  | infinite (negative : Bool)
  | undefined
  deriving DecidableEq

/-- What exact arithmetic leaves open. Nothing is assumed of it. -/
class Interpretation (K : Type) where
  apply : Elementary → Extended K → Extended K
  power : Extended K → Extended K → Extended K
  text : Extended K → String

namespace Extended

/-! ## Operations -/

section Operations

variable {K : Type} [Field K] [LinearOrder K]

def add : Extended K → Extended K → Extended K
  | finite x, finite y => finite (x + y)
  | undefined, _ | _, undefined => undefined
  | infinite s, infinite t => if s = t then infinite s else undefined
  | infinite s, finite _ | finite _, infinite s => infinite s

def neg : Extended K → Extended K
  | finite x => finite (-x)
  | infinite s => infinite (!s)
  | undefined => undefined

def sub (x y : Extended K) : Extended K := add x (neg y)

/-- An infinity times a finite number; times zero it is undefined. -/
def scale (negative : Bool) (x : K) : Extended K :=
  if x = 0 then undefined else infinite (negative != decide (x < 0))

def mul : Extended K → Extended K → Extended K
  | finite x, finite y => finite (x * y)
  | undefined, _ | _, undefined => undefined
  | infinite s, infinite t => infinite (s != t)
  | infinite s, finite x | finite x, infinite s => scale s x

def div : Extended K → Extended K → Extended K
  | finite x, finite y =>
    if y = 0 then if x = 0 then undefined else infinite (decide (x < 0)) else finite (x / y)
  | undefined, _ | _, undefined => undefined
  | infinite _, infinite _ => undefined
  | infinite s, finite y => infinite (s != decide (y < 0))
  | finite _, infinite _ => finite 0

/-- Strictly below; the undefined value is not comparable. -/
def below : Extended K → Extended K → Bool
  | finite x, finite y => decide (x < y)
  | infinite s, infinite t => s && !t
  | infinite s, finite _ => s
  | finite _, infinite t => !t
  | _, _ => false

def equal (x y : Extended K) : Bool := decide (x ≠ undefined ∧ x = y)

/-- The integer part, toward zero. -/
def truncate? [FloorRing K] : Extended K → Option Int
  | finite x => some (if x < 0 then ⌈x⌉ else ⌊x⌋)
  | _ => none

end Operations

instance {K : Type} [Field K] [LinearOrder K] [FloorRing K] [Interpretation K] :
    Number (Extended K) where
  add := add
  sub := sub
  mul := mul
  div := div
  neg := neg
  ofInt n := finite n
  ofDecimal digits exponent := finite (digits * 10 ^ exponent)
  infinity := infinite false
  undefined := undefined
  below := below
  equal := equal
  truncate? := truncate?
  apply := Interpretation.apply
  power := Interpretation.power
  text := Interpretation.text

/-- Of the elementary functions only the absolute value stays within the rational numbers. -/
instance : Interpretation ℚ where
  apply
    | .abs, finite x => finite |x|
    | .abs, infinite _ => infinite false
    | _, _ => undefined
  power _ _ := undefined
  text
    | finite x => toString x
    | infinite s => if s then "-inf" else "inf"
    | undefined => "nan"

variable {K : Type} [Field K] [LinearOrder K] [FloorRing K] [Interpretation K]

/-! ## Finite numbers -/

@[simp] theorem finite_add (x y : K) : (finite x + finite y : Extended K) = finite (x + y) := rfl

@[simp] theorem finite_sub (x y : K) : (finite x - finite y : Extended K) = finite (x - y) := by
  show finite (x + -y) = finite (x - y)
  rw [sub_eq_add_neg]

@[simp] theorem finite_mul (x y : K) : (finite x * finite y : Extended K) = finite (x * y) := rfl

@[simp] theorem finite_neg (x : K) : (-finite x : Extended K) = finite (-x) := rfl

theorem finite_div {y : K} (x : K) (h : y ≠ 0) :
    (finite x / finite y : Extended K) = finite (x / y) := by
  show div (finite x) (finite y) = _
  simp [div, h]

@[simp] theorem ofInt_eq (n : Int) : (Number.ofInt n : Extended K) = finite (n : K) := rfl

@[simp] theorem zero_eq : (Number.zero : Extended K) = finite 0 := by simp [Number.zero]

@[simp] theorem one_eq : (Number.one : Extended K) = finite 1 := by simp [Number.one]

theorem half_eq : (Number.half : Extended K) = finite (1 / 2) := by
  have htwo : ((2 : Int) : K) ≠ 0 := by norm_num
  rw [Number.half, ofInt_eq, ofInt_eq, finite_div _ htwo]
  norm_num

@[simp] theorem infinity_eq : (Number.infinity : Extended K) = infinite false := rfl

@[simp] theorem default_eq : (default : Extended K) = finite 0 := zero_eq

theorem sub_finite_zero (a : Extended K) : a - finite 0 = a := by
  show add a (neg (finite 0)) = a
  cases a <;> simp [add, neg]

theorem finite_zero_add (a : Extended K) : finite 0 + a = a := by
  show add (finite 0) a = a
  cases a <;> simp [add]

/-- What adds up to a finite number is finite. -/
theorem add_eq_finite {a b : Extended K} {z : K} (h : a + b = finite z) :
    ∃ x y, a = finite x ∧ b = finite y ∧ x + y = z := by
  change add a b = finite z at h
  cases a <;> cases b <;> simp [add] at h
  · exact ⟨_, _, rfl, rfl, h⟩
  · split at h <;> cases h

/-- A finite difference is one of finite numbers. -/
theorem sub_eq_finite {a b : Extended K} {z : K} (h : a - b = finite z) :
    ∃ x y, a = finite x ∧ b = finite y ∧ x - y = z := by
  -- a difference is the sum with the opposite number
  obtain ⟨x, y, ha, hb, hz⟩ := add_eq_finite (a := a) (b := neg b) h
  cases b with
  | finite w =>
    cases hb
    exact ⟨x, w, ha, rfl, by rw [sub_eq_add_neg, hz]⟩
  | infinite => cases hb
  | undefined => cases hb

/-- A finite product has finite factors. -/
theorem mul_eq_finite {a b : Extended K} {z : K} (h : a * b = finite z) :
    ∃ x y, a = finite x ∧ b = finite y ∧ x * y = z := by
  change mul a b = finite z at h
  -- an infinite factor makes the product infinite, or undefined next to zero
  cases a <;> cases b <;> simp [mul, scale] at h
  · exact ⟨_, _, rfl, rfl, h⟩
  · split at h <;> cases h
  · split at h <;> cases h

theorem neg_eq_finite {a : Extended K} {z : K} (h : -a = finite z) : a = finite (-z) := by
  change neg a = finite z at h
  cases a with
  | finite x =>
    cases h
    rw [neg_neg]
  | infinite => cases h
  | undefined => cases h

/-- A finite quotient has a finite dividend; the divisor is a finite number other than zero, or it
    is infinite and the quotient is zero. -/
theorem div_eq_finite {a b : Extended K} {z : K} (h : a / b = finite z) :
    ∃ x, a = finite x ∧
      ((∃ y, y ≠ 0 ∧ b = finite y ∧ x / y = z) ∨ (∃ s, b = infinite s) ∧ z = 0) := by
  change div a b = finite z at h
  cases a with
  | finite x =>
    refine ⟨x, rfl, ?_⟩
    cases b with
    | finite y =>
      simp only [div] at h
      split_ifs at h with hy
      exact .inl ⟨y, hy, rfl, Extended.finite.inj h⟩
    | infinite s => exact .inr ⟨⟨s, rfl⟩, (Extended.finite.inj h).symm⟩
    | undefined => cases h
  | infinite => cases b <;> cases h
  | undefined => cases b <;> cases h

theorem add_commutes (a b : Extended K) : a + b = b + a := by
  change add a b = add b a
  cases a <;> cases b <;> simp [add, add_comm, eq_comm]
  -- of two infinities, one remains where they are the same
  grind

theorem mul_commutes (a b : Extended K) : a * b = b * a := by
  change mul a b = mul b a
  cases a <;> cases b <;> simp [mul, mul_comm, Bool.xor_comm]

/-! ## Order and equality -/

theorem equal_iff {a b : Extended K} : Number.equal a b = true ↔ a ≠ undefined ∧ a = b := by
  show decide _ = true ↔ _
  simp

theorem isUndefined_iff {a : Extended K} : Number.isUndefined a = true ↔ a = undefined := by
  show (!decide (a ≠ undefined ∧ a = a)) = true ↔ _
  simp

@[simp] theorem isZero_iff {a : Extended K} : Number.isZero a = true ↔ a = finite 0 := by
  rw [Number.isZero, equal_iff]
  constructor
  · rintro ⟨-, rfl⟩
    simp
  · rintro rfl
    simp

theorem below_finite {x y : K} : Number.below (finite x) (finite y) = true ↔ x < y := by
  show decide _ = true ↔ _
  rw [decide_eq_true_iff]

theorem atMost_finite {x y : K} : Number.atMost (finite x) (finite y) = true ↔ x ≤ y := by
  have hbelow : Number.below (finite x) (finite y) = decide (x < y) := rfl
  rw [Number.atMost, hbelow, Bool.or_eq_true, equal_iff, le_iff_lt_or_eq]
  simp

theorem atMost_trans {a b c : Extended K} (hab : Number.atMost a b) (hbc : Number.atMost b c) :
    Number.atMost a c := by
  cases a <;> cases b <;> cases c <;>
    simp_all [Number.atMost, Number.below, below, Number.equal, equal]
  -- three finite numbers, and three infinities
  · grind
  · grind

/-- A finite number is the sum of a finite one and the rest. -/
theorem finite_sub_eq_iff {x y : K} {b : Extended K} :
    finite (x - y) = b ↔ (finite x : Extended K) = finite y + b := by
  cases b with
  | finite z => simp [sub_eq_iff_eq_add']
  | infinite s =>
    constructor
    · intro h
      cases h
    · intro h
      cases h
  | undefined =>
    constructor
    · intro h
      cases h
    · intro h
      cases h

/-- A difference from a finite number is zero where the two are the same. -/
theorem finite_sub_eq_zero_iff {x : K} {b : Extended K} :
    (finite x - b : Extended K) = finite 0 ↔ finite x = b := by
  constructor
  · intro h
    obtain ⟨x', y, hx, rfl, hz⟩ := sub_eq_finite h
    cases hx
    rw [sub_eq_zero.mp hz]
  · rintro rfl
    simp

end Extended
end Collocation
