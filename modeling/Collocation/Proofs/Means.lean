import Collocation.Proofs.Interpolation
import Mathlib.Analysis.Convex.Segment

/-! # Means of two numbers

  The interpolation has a mean of two values between two neighbouring knots. Next to an infinite
  value, or an undefined one, every proper mean is the same: it is the sum of the two. So a mean of
  two means of the same numbers is a mean of these numbers, whatever they are. -/

namespace Collocation

/-! ## Means of numbers -/

section Numbers

variable {K : Type} [Field K] [LinearOrder K] [IsStrictOrderedRing K]

/-- A mean of two numbers lies between them. -/
theorem mean_between {w : K} (hw : 0 ≤ w) (hw' : w ≤ 1) (x y : K) :
    min x y ≤ x + w * (y - x) ∧ x + w * (y - x) ≤ max x y := by
  have hcombo : x + w * (y - x) = (1 - w) • x + w • y := by
    rw [smul_eq_mul, smul_eq_mul]
    ring
  rw [hcombo]
  exact ⟨Convex.min_le_combo x y (sub_nonneg.mpr hw') hw (sub_add_cancel 1 w),
    Convex.combo_le_max x y (sub_nonneg.mpr hw') hw (sub_add_cancel 1 w)⟩

/-- The share of the way at which a number lies between two others. -/
theorem share_between {a b z : K} (hab : a < b) (haz : a ≤ z) (hzb : z ≤ b) :
    0 ≤ (z - a) / (b - a) ∧ (z - a) / (b - a) ≤ 1 := by
  have hpos : 0 < b - a := sub_pos.mpr hab
  refine ⟨div_nonneg (sub_nonneg.mpr haz) hpos.le, ?_⟩
  rw [div_le_one hpos]
  linarith

end Numbers

namespace Extended

variable {K : Type} [Field K] [LinearOrder K] [FloorRing K] [Interpretation K]

/-- The number at a share of the way from `a` to `b`. At either end the other number does not
    count. -/
def mean (w : K) (a b : Extended K) : Extended K :=
  if w = 0 then a else if w = 1 then b else finite (1 - w) * a + finite w * b

@[simp] theorem mean_zero (a b : Extended K) : mean 0 a b = a := if_pos rfl

@[simp] theorem mean_one (a b : Extended K) : mean 1 a b = b := by simp [mean]

theorem mean_finite (w x y : K) : mean w (finite x) (finite y) = finite (x + w * (y - x)) := by
  unfold mean
  split_ifs with hzero hone
  · rw [hzero, zero_mul, add_zero]
  · rw [hone, one_mul, add_sub_cancel]
  · rw [finite_mul, finite_mul, finite_add]
    congr 1
    ring

/-! ## Next to numbers that are not finite -/

/-- One of the two numbers is infinite or undefined. -/
def Beyond (a b : Extended K) : Prop := ∀ x y, a = finite x → b ≠ finite y

omit [Field K] [LinearOrder K] [FloorRing K] [Interpretation K] in
theorem finite_or_beyond (a b : Extended K) :
    (∃ x y, a = finite x ∧ b = finite y) ∨ Beyond a b := by
  by_cases h : ∃ x y, a = finite x ∧ b = finite y
  · exact .inl h
  · exact .inr fun x y hx hy => h ⟨x, y, hx, hy⟩

variable {w s r : K} {a b : Extended K}

theorem Beyond.add_right (h : Beyond a b) : Beyond a (a + b) := by
  intro x z hx hz
  obtain ⟨-, y, -, hy, -⟩ := add_eq_finite hz
  exact h x y hx hy

theorem Beyond.add_left (h : Beyond a b) : Beyond (a + b) b := by
  intro z y hz hy
  obtain ⟨x, -, hx, -, -⟩ := add_eq_finite hz
  exact h x y hx hy

/-- A sum beyond the finite numbers does not change when one of its parts is added again. -/
theorem Beyond.add_absorbs (h : Beyond a b) : a + (a + b) = a + b ∧ a + b + b = a + b := by
  change add a (add a b) = add a b ∧ add (add a b) b = add a b
  cases a with
  | finite x =>
    cases b with
    | finite y => exact absurd rfl (h x y rfl)
    | infinite | undefined => simp [add]
  | infinite s =>
    cases b with
    | infinite t => by_cases hst : s = t <;> simp [add, hst]
    | finite | undefined => simp [add]
  | undefined => simp [add]

theorem infinite_div (hw : 0 < w) (s : Bool) :
    (infinite s / finite w : Extended K) = infinite s := by
  show infinite (s != decide (w < 0)) = infinite s
  simp [not_lt.mpr hw.le]

theorem infinite_mul_of_pos (hw : 0 < w) (s : Bool) :
    (infinite s * finite w : Extended K) = infinite s := by
  show scale s w = infinite s
  simp [scale, hw.ne', not_lt.mpr hw.le]

theorem infinite_mul_of_neg (hw : w < 0) (s : Bool) :
    (infinite s * finite w : Extended K) = infinite (!s) := by
  show scale s w = infinite (!s)
  simp [scale, hw.ne, hw]

variable [IsStrictOrderedRing K]

/-- A proper mean beyond the finite numbers is the sum. -/
theorem Beyond.mean_eq (h : Beyond a b) (hw : 0 < w) (hw' : w < 1) : mean w a b = a + b := by
  have hrest : 0 < 1 - w := sub_pos.mpr hw'
  unfold mean
  rw [if_neg hw.ne', if_neg hw'.ne, mul_commutes, mul_commutes (finite w)]
  cases a with
  | finite x =>
    cases b with
    | finite y => exact absurd rfl (h x y rfl)
    | infinite t =>
      rw [infinite_mul_of_pos hw]
      rfl
    | undefined => rfl
  | infinite s =>
    rw [infinite_mul_of_pos hrest]
    cases b with
    | infinite t => rw [infinite_mul_of_pos hw]
    | finite | undefined => rfl
  | undefined => rfl

/-! ## Means of means -/

theorem mean_self (hw : 0 ≤ w) (hw' : w ≤ 1) (a : Extended K) : mean w a a = a := by
  rcases hw.eq_or_lt with rfl | hpos
  · exact mean_zero a a
  rcases hw'.eq_or_lt with rfl | hlt
  · exact mean_one a a
  cases a with
  | finite x => rw [mean_finite, sub_self, mul_zero, add_zero]
  | infinite s =>
    rw [Beyond.mean_eq (by simp [Beyond]) hpos hlt]
    exact if_pos rfl
  | undefined => exact Beyond.mean_eq (by simp [Beyond]) hpos hlt

/-- A mean of two means of the same numbers is at the share of the way that lies between theirs. -/
theorem mean_mean (hs : 0 ≤ s) (hsr : s ≤ r) (hr : r ≤ 1) (hw : 0 ≤ w) (hw' : w ≤ 1) :
    mean w (mean s a b) (mean r a b) = mean (s + w * (r - s)) a b := by
  rcases finite_or_beyond a b with ⟨x, y, rfl, rfl⟩ | hbeyond
  · simp only [mean_finite]
    congr 1
    ring
  rcases hw.eq_or_lt with rfl | hpos
  · simp
  rcases hw'.eq_or_lt with rfl | hlt
  · simp
  rcases hsr.eq_or_lt with rfl | hstep
  · rw [mean_self hw hw', sub_self, mul_zero, add_zero]
  -- between two different shares every proper mean is the sum
  have hmore : 0 < w * (r - s) := mul_pos hpos (sub_pos.mpr hstep)
  have hless : w * (r - s) < r - s := mul_lt_of_lt_one_left (sub_pos.mpr hstep) hlt
  rw [hbeyond.mean_eq (w := s + w * (r - s)) (by linarith) (by linarith)]
  rcases hs.eq_or_lt with rfl | hspos <;> rcases hr.eq_or_lt with rfl | hrlt
  · rw [mean_zero, mean_one, hbeyond.mean_eq hpos hlt]
  · rw [mean_zero, hbeyond.mean_eq hstep hrlt, hbeyond.add_right.mean_eq hpos hlt,
      hbeyond.add_absorbs.1]
  · rw [mean_one, hbeyond.mean_eq hspos hstep, hbeyond.add_left.mean_eq hpos hlt,
      hbeyond.add_absorbs.2]
  · rw [hbeyond.mean_eq hspos (hstep.trans hrlt), hbeyond.mean_eq (hspos.trans hstep) hrlt,
      mean_self hw hw']

end Extended

/-! ## Between two knots -/

open Extended

variable {K : Type} [Field K] [LinearOrder K] [FloorRing K] [Interpretation K]
  {knots values : Array (Extended K)} {q : Nat → K}

/-- The line between two values that are not both finite is level at their sum. -/
theorem lineAt_beyond {j : Nat} {a b u v x : Extended K} (ha : knots.getD j default = a)
    (hb : knots.getD (j + 1) default = b) (hu : values.getD j default = u)
    (hv : values.getD (j + 1) default = v) (huv : Beyond u v) {d e e' : K} (hd : b - a = finite d)
    (he : x - a = finite e) (he' : x - b = finite e') (hpos : 0 < d) (hleft : 0 < e)
    (hright : e' < 0) : lineAt knots values j x = u + v := by
  unfold lineAt
  simp only [ha, hb, hu, hv, hd, he, he']
  cases u with
  | finite y =>
    cases v with
    | finite z => exact absurd rfl (huv y z rfl)
    | infinite t =>
      have hrise : (infinite t - finite y : Extended K) = infinite t := rfl
      rw [hrise, infinite_div hpos, infinite_mul_of_pos hleft]
      cases t <;> rfl
    | undefined => rfl
  | infinite s =>
    cases v with
    | finite z =>
      -- undefined from the left knot, so the right one counts
      have hrise : (finite z - infinite s : Extended K) = infinite (!s) := rfl
      rw [hrise, infinite_div hpos, infinite_mul_of_pos hleft, infinite_mul_of_neg hright]
      cases s <;> rfl
    | infinite t =>
      by_cases hst : s = t
      · subst hst
        cases s <;> rfl
      · obtain rfl : t = !s := by cases s <;> cases t <;> simp_all
        have hrise : (infinite (!s) - infinite s : Extended K) = infinite (!s) := if_pos rfl
        rw [hrise, infinite_div hpos, infinite_mul_of_pos hleft, infinite_mul_of_neg hright]
        cases s <;> rfl
    | undefined => cases s <;> rfl
  | undefined => cases v <;> rfl

variable [IsStrictOrderedRing K]

/-- Strictly between two knots the line has a mean of their values. -/
theorem lineAt_eq_mean {j : Nat} {a b x : K} (ha : knots.getD j default = finite a)
    (hb : knots.getD (j + 1) default = finite b) (hax : a < x) (hxb : x < b) :
    lineAt knots values j (finite x) =
      mean ((x - a) / (b - a)) (values.getD j default) (values.getD (j + 1) default) := by
  have hpos : 0 < b - a := sub_pos.mpr (hax.trans hxb)
  generalize hu : values.getD j default = u
  generalize hv : values.getD (j + 1) default = v
  rcases finite_or_beyond u v with ⟨y, z, rfl, rfl⟩ | hbeyond
  · rw [lineAt_eq ha hb hu hv (hax.trans hxb).ne, mean_finite]
    congr 1
    ring
  · have hshare : (x - a) / (b - a) < 1 := by
      rw [div_lt_one hpos]
      linarith
    rw [lineAt_beyond ha hb hu hv hbeyond (finite_sub _ _) (finite_sub _ _) (finite_sub _ _) hpos
      (sub_pos.mpr hax) (sub_neg.mpr hxb), hbeyond.mean_eq (div_pos (sub_pos.mpr hax) hpos) hshare]

/-- From one knot to the next, both included, the interpolation has the means of their values. -/
theorem interpolate_eq_mean (h : Climbs knots q) {j : Nat} (hj : j + 1 < knots.size) {z : K}
    (hleft : q j ≤ z) (hright : z ≤ q (j + 1)) :
    interpolate knots values (finite z) = mean ((z - q j) / (q (j + 1) - q j))
      (values.getD j default) (values.getD (j + 1) default) := by
  have hlt := h.climb j (by omega)
  rcases hleft.eq_or_lt with rfl | hafter
  · rw [sub_self, zero_div, mean_zero, interpolate_knot h (by omega)]
  rcases hright.eq_or_lt with rfl | hbefore
  · rw [div_self (sub_ne_zero.mpr hlt.ne'), mean_one, interpolate_knot h hj]
  -- strictly between the two
  have hcount := knotsUpTo_eq h (show j < knots.size by omega) hleft fun _ => hbefore
  have hdefined : Number.isUndefined (finite z) = false := by
    rw [← Bool.not_eq_true, isUndefined_iff]
    simp
  have hequal : Number.equal (knots.getD j default) (finite z) = false := by
    rw [← Bool.not_eq_true, equal_iff, h.get j (by omega)]
    simpa using hafter.ne
  unfold interpolate
  simp only [hdefined, hcount, Nat.add_sub_cancel, hequal, Bool.false_eq_true, if_false,
    Nat.succ_ne_zero, hj.ne]
  exact lineAt_eq_mean (h.get j (by omega)) (h.get (j + 1) hj) hafter hbefore

end Collocation
