import Collocation.Proofs.Exact

/-! # Laws of comparison

  What the comparisons of a number type must satisfy for bounds to be in order. Defined numbers
  are ordered linearly, an undefined one is not comparable, and an integer is rounded past no
  number. Doubles are compared like this, and so are exact numbers. -/

namespace Collocation

/-- The comparisons of a number type are those of a linear order next to which there is an
    undefined value. -/
class LawfulComparison (α : Type) [Number α] : Prop where
  /-- Of two defined numbers one is at most the other. -/
  atMost_of_not_below {x y : α} : Number.isUndefined x = false → Number.isUndefined y = false →
    Number.below y x = false → Number.atMost x y
  not_below_of_atMost {x y : α} : Number.atMost x y → Number.below y x = false
  defined_of_atMost {x y : α} : Number.atMost x y →
    Number.isUndefined x = false ∧ Number.isUndefined y = false
  atMost_infinities : Number.atMost (-Number.infinity : α) Number.infinity
  atMost_ofInt_ofInt {m n : Int} : m ≤ n → Number.atMost (Number.ofInt m : α) (Number.ofInt n)
  /-- A number that is not above an integer is not above the number nearest to the integer. -/
  atMost_ofInt {x : α} {n : Int} : Number.isUndefined x = false →
    Number.compareInt? x n ≠ some .gt → Number.atMost x (Number.ofInt n)
  ofInt_atMost {x : α} {n : Int} : Number.isUndefined x = false →
    Number.compareInt? x n ≠ some .lt → Number.atMost (Number.ofInt n) x

/-- Comparisons that agree with differences. Rounding may not turn the sign of a difference, and
    between zero and one the difference of two numbers that are not the same may not vanish. -/
class LawfulDifference (α : Type) [Number α] : Prop extends LawfulComparison α where
  equal_symm {x y : α} : Number.equal x y → Number.equal y x
  atMost_trans {x y z : α} : Number.atMost x y → Number.atMost y z → Number.atMost x z
  sub_atMost_zero {x y : α} : Number.below x y → Number.atMost (x - y) Number.zero
  sub_atMost_zero_iff {x y : α} : Number.atMost Number.zero x → Number.atMost x Number.one →
    Number.atMost Number.zero y → Number.atMost y Number.one →
      (Number.atMost (x - y) Number.zero ↔ Number.atMost x y)

namespace Extended

variable {K : Type} [Field K] [LinearOrder K] [FloorRing K] [Interpretation K]

theorem atMost_iff_not_below {a b : Extended K} (ha : a ≠ undefined) (hb : b ≠ undefined) :
    Number.atMost a b ↔ Number.below b a = false := by
  cases a with
  | undefined => exact absurd rfl ha
  | finite x =>
    cases b with
    | undefined => exact absurd rfl hb
    | finite y =>
      rw [atMost_finite, ← Bool.not_eq_true, below_finite, not_lt]
    | infinite t => cases t <;> simp [Number.atMost, Number.below, below, Number.equal, equal]
  | infinite s =>
    cases b with
    | undefined => exact absurd rfl hb
    | finite y => cases s <;> simp [Number.atMost, Number.below, below, Number.equal, equal]
    | infinite t =>
      cases s <;> cases t <;> simp [Number.atMost, Number.below, below, Number.equal, equal]

theorem defined_of_atMost {a b : Extended K} (h : Number.atMost a b) :
    a ≠ undefined ∧ b ≠ undefined := by
  constructor
  · rintro rfl
    simp [Number.atMost, Number.below, below, Number.equal, equal] at h
  · rintro rfl
    cases a <;> simp [Number.atMost, Number.below, below, Number.equal, equal] at h

theorem isUndefined_eq_false {a : Extended K} : Number.isUndefined a = false ↔ a ≠ undefined := by
  rw [← Bool.not_eq_true, isUndefined_iff]

theorem compareInt?_infinite (s : Bool) (n : Int) :
    Number.compareInt? (infinite s : Extended K) n = some (if s then .lt else .gt) := by
  cases s <;> rfl

variable [IsStrictOrderedRing K]

/-- The order of a finite number and an integer is that of the field. -/
theorem compareInt?_finite (x : K) (n : Int) :
    Number.compareInt? (finite x) n =
      some (if x < n then .lt else if (n : K) < x then .gt else .eq) := by
  show (if _ < n then _ else _ : Option Ordering) = _
  set t : Int := if x < 0 then ⌈x⌉ else ⌊x⌋ with ht
  have hlt : t < n → x < n := by
    intro h
    rw [ht] at h
    split_ifs at h
    · exact (Int.le_ceil x).trans_lt (by exact_mod_cast h)
    · exact Int.floor_lt.mp h
  have hgt : n < t → (n : K) < x := by
    intro h
    rw [ht] at h
    split_ifs at h
    · exact Int.lt_ceil.mp h
    · exact lt_of_lt_of_le (by exact_mod_cast h) (Int.floor_le x)
  by_cases h₁ : t < n
  · rw [if_pos h₁, if_pos (hlt h₁)]
  rw [if_neg h₁]
  by_cases h₂ : n < t
  · rw [if_pos h₂, if_neg (not_lt.mpr (hgt h₂).le), if_pos (hgt h₂)]
  rw [if_neg h₂, ofInt_eq]
  by_cases h₃ : x < n
  · rw [if_pos h₃, if_pos (below_finite.mpr h₃)]
  · rw [if_neg h₃, if_neg (below_finite.not.mpr h₃)]
    by_cases h₄ : (n : K) < x
    · rw [if_pos h₄, if_pos (below_finite.mpr h₄)]
    · rw [if_neg h₄, if_neg (below_finite.not.mpr h₄)]

instance : LawfulComparison (Extended K) where
  atMost_of_not_below hx hy h :=
    (atMost_iff_not_below (isUndefined_eq_false.mp hx) (isUndefined_eq_false.mp hy)).mpr h
  not_below_of_atMost h :=
    have hdefined := defined_of_atMost h
    (atMost_iff_not_below hdefined.1 hdefined.2).mp h
  defined_of_atMost h :=
    have hdefined := defined_of_atMost h
    ⟨isUndefined_eq_false.mpr hdefined.1, isUndefined_eq_false.mpr hdefined.2⟩
  atMost_infinities := rfl
  atMost_ofInt_ofInt h := atMost_finite.mpr (Int.cast_le.mpr h)
  atMost_ofInt {x n} hx h := by
    cases x with
    | undefined => exact absurd rfl (isUndefined_eq_false.mp hx)
    | infinite s =>
      rw [compareInt?_infinite] at h
      cases s
      · exact absurd rfl h
      · rfl
    | finite x =>
      rw [compareInt?_finite] at h
      refine atMost_finite.mpr (not_lt.mp fun hlt => h ?_)
      rw [if_neg (not_lt.mpr hlt.le), if_pos hlt]
  ofInt_atMost {x n} hx h := by
    cases x with
    | undefined => exact absurd rfl (isUndefined_eq_false.mp hx)
    | infinite s =>
      rw [compareInt?_infinite] at h
      cases s
      · rfl
      · exact absurd rfl h
    | finite x =>
      rw [compareInt?_finite] at h
      refine atMost_finite.mpr (not_lt.mp fun hlt => h ?_)
      rw [if_pos hlt]

omit [IsStrictOrderedRing K] in
theorem eq_finite_of_unit {a : Extended K} (hlower : Number.atMost Number.zero a)
    (hupper : Number.atMost a Number.one) : ∃ x, a = finite x := by
  cases a with
  | finite x => exact ⟨x, rfl⟩
  | infinite s =>
    cases s
    · cases hupper
    · cases hlower
  | undefined => cases hlower

/-- A number less a higher one is not above zero, next to the infinities as well. -/
theorem sub_atMost_zero_of_below {a b : Extended K} (h : Number.below a b) :
    Number.atMost (a - b) Number.zero := by
  rcases a with x | s | _
  · rcases b with y | t | _
    · rw [finite_sub, zero_eq, atMost_finite]
      exact (sub_neg.mpr (below_finite.mp h)).le
    · cases t
      · rfl
      · cases h
    · cases h
  · cases s
    · cases b <;> cases h
    · rcases b with y | t | _
      · rfl
      · cases t
        · rfl
        · cases h
      · cases h
  · cases b <;> cases h

instance : LawfulDifference (Extended K) where
  equal_symm h := by
    rw [equal_iff] at h ⊢
    obtain ⟨hdefined, rfl⟩ := h
    exact ⟨hdefined, rfl⟩
  atMost_trans := atMost_trans
  sub_atMost_zero := sub_atMost_zero_of_below
  sub_atMost_zero_iff {x y} hx hx' hy hy' := by
    obtain ⟨x, rfl⟩ := eq_finite_of_unit hx hx'
    obtain ⟨y, rfl⟩ := eq_finite_of_unit hy hy'
    rw [finite_sub, zero_eq, atMost_finite, atMost_finite, sub_nonpos]

end Extended
end Collocation
