import Collocation.Mesh
import Collocation.Proofs.Exact
import Collocation.Proofs.Outcome

/-! # Finite meshes

  An accepted mesh may hold an undefined point, which no comparison notices; without one, all its
  points are finite in exact arithmetic. It starts at a finite point and never goes down, so it can
  only leave the finite numbers upwards, and from there it does not come back to one. -/

namespace Collocation

open Extended

variable {K : Type} [Field K] [LinearOrder K] [FloorRing K] [Interpretation K]

/-! ## Steps that do not descend -/

/-- A finite number or the upper infinity. -/
def Extended.IsUpper (a : Extended K) : Prop := (∃ x, a = finite x) ∨ a = infinite false

theorem isUpper_of_step {a b : Extended K} (ha : a.IsUpper) (hb : b ≠ undefined)
    (h : Number.atMost (b - a) Number.zero = false) : b.IsUpper := by
  cases b with
  | finite x => exact .inl ⟨x, rfl⟩
  | infinite negative =>
    cases negative with
    | false => exact .inr rfl
    | true =>
      -- down to the lower infinity, which is a descent
      rcases ha with ⟨x, rfl⟩ | rfl
      · cases h
      · cases h
  | undefined => exact absurd rfl hb

/-- From the upper infinity there is no way down. -/
theorem eq_infinite_of_step {b : Extended K} (hb : b ≠ undefined)
    (h : Number.atMost (b - infinite false) Number.zero = false) : b = infinite false := by
  cases b with
  | finite x => cases h
  | infinite negative =>
    cases negative with
    | false => rfl
    | true => cases h
  | undefined => exact absurd rfl hb

section Differences

variable {α : Type} [Number α] {points : Array α} {i : Nat}

theorem getD_differences (h : i + 1 < points.size) :
    (differences points).getD i default = points.getD (i + 1) default - points.getD i default := by
  have hi : i < points.size - 1 := by omega
  simp [differences, Array.getD, hi]

/-- There is no descent exactly if no difference is at most zero. -/
theorem hasDescent_eq_false_iff : hasDescent points = false ↔
    ∀ i, i + 1 < points.size →
      Number.atMost (points.getD (i + 1) default - points.getD i default) Number.zero = false := by
  have hsize : (differences points).size = points.size - 1 := by simp [differences]
  have hget : ∀ (i : Nat) (hi : i < (differences points).size),
      (differences points)[i] = points.getD (i + 1) default - points.getD i default := by
    intro i hi
    rw [← getD_differences (by omega)]
    simp [Array.getD, hi]
  rw [hasDescent, Array.any_eq_false]
  constructor
  · intro h i hi
    have hi' : i < (differences points).size := by omega
    rw [← hget i hi']
    exact Bool.eq_false_iff.mpr (h i hi')
  · intro h i hi
    rw [hget i hi, h i (by omega)]
    exact Bool.false_ne_true

theorem step_of_hasDescent (h : hasDescent points = false) (hi : i + 1 < points.size) :
    Number.atMost (points.getD (i + 1) default - points.getD i default) Number.zero = false :=
  hasDescent_eq_false_iff.mp h i hi

end Differences

section Climb

variable {points : Array (Extended K)} (hdescent : hasDescent points = false)
  (hdefined : ∀ i < points.size, points.getD i default ≠ undefined)

include hdescent hdefined

/-- From a start that is not the lower infinity every point is reached upwards. -/
theorem isUpper_of_climb (hfirst : (points.getD 0 default).IsUpper) :
    ∀ i < points.size, (points.getD i default).IsUpper := by
  intro i
  induction i with
  | zero =>
    intro _
    exact hfirst
  | succ i ih =>
    intro hi
    exact isUpper_of_step (ih (by omega)) (hdefined _ hi) (step_of_hasDescent hdescent hi)

/-- Once infinite, infinite to the end. -/
theorem infinite_of_climb {i : Nat} (hi : points.getD i default = infinite false) :
    ∀ j, i + j < points.size → points.getD (i + j) default = infinite false := by
  intro j
  induction j with
  | zero =>
    intro _
    exact hi
  | succ j ih =>
    intro hj
    have hstep := step_of_hasDescent hdescent (i := i + j) (by omega)
    rw [ih (by omega)] at hstep
    exact eq_infinite_of_step (hdefined _ hj) hstep

/-- What does not end in infinity is finite throughout. -/
theorem getD_finite_of_climb (hfirst : (points.getD 0 default).IsUpper)
    (hlast : points.getD (points.size - 1) default ≠ infinite false) (i : Nat) :
    ∃ x, points.getD i default = finite x := by
  by_cases hi : i < points.size
  · rcases isUpper_of_climb hdescent hdefined hfirst i hi with hfinite | hinfinite
    · exact hfinite
    · have hend := infinite_of_climb hdescent hdefined hinfinite (points.size - 1 - i) (by omega)
      rw [show i + (points.size - 1 - i) = points.size - 1 by omega] at hend
      exact absurd hend hlast
  · exact ⟨0, by simp [Array.getD, hi]⟩

end Climb

theorem getD_ne_undefined {points : Array (Extended K)} (h : ∀ x ∈ points, x ≠ undefined) :
    ∀ i < points.size, points.getD i default ≠ undefined := by
  intro i hi
  simpa [Array.getD, hi] using h points[i] (Array.getElem_mem hi)

/-! ## Accepted meshes -/

theorem getD_finite_of_points {points mesh : Array (Extended K)}
    (h : Mesh.ofPoints points = .ok mesh) (hdefined : ∀ x ∈ mesh, x ≠ undefined) (i : Nat) :
    ∃ x, mesh.getD i default = finite x := by
  unfold Mesh.ofPoints at h
  split_ifs at h with hsize hrefused
  cases h
  simp only [Bool.or_eq_true, Bool.not_eq_true', not_or, Bool.not_eq_false] at hrefused
  obtain ⟨⟨hfirst, hlast⟩, hdescent⟩ := hrefused
  rw [Bool.not_eq_true] at hdescent
  have hstart : points.getD 0 default = finite 0 := (equal_iff.mp hfirst).2.trans zero_eq
  refine getD_finite_of_climb hdescent (getD_ne_undefined hdefined) (.inl ⟨0, hstart⟩) ?_ i
  rw [(equal_iff.mp hlast).2, one_eq]
  simp

theorem size_of_points {α : Type} [Number α] {points mesh : Array α}
    (h : Mesh.ofPoints points = .ok mesh) : 2 ≤ mesh.size := by
  unfold Mesh.ofPoints at h
  split_ifs at h with hsize hrefused
  cases h
  omega

@[simp] theorem size_evenPoints {α : Type} [Number α] (n : Nat) :
    (evenPoints n : Array α).size = n := Array.size_ofFn

theorem eq_of_even {α : Type} [Number α] {n : Nat} {mesh : Array α} (h : Mesh.even n = .ok mesh) :
    2 ≤ n ∧ mesh = evenPoints n := by
  unfold Mesh.even at h
  by_cases hfew : n < 2
  · rw [if_pos hfew] at h
    cases h
  rw [if_neg hfew] at h
  by_cases hmany : 0x8000000000000000 < n
  · rw [if_pos hmany] at h
    cases h
  rw [if_neg hmany] at h
  obtain ⟨-, -, h⟩ := bind_eq_ok h
  cases h
  exact ⟨by omega, rfl⟩

/-- Every accepted mesh has at least two points. -/
theorem Mesh.two_le_size {α : Type} [Number α] {l : Literal α} {mesh : Array α}
    (h : Mesh.ofLiteral l = .ok mesh) : 2 ≤ mesh.size := by
  unfold Mesh.ofLiteral at h
  split at h
  · cases h
  · split_ifs at h
    obtain ⟨hn, rfl⟩ := eq_of_even h
    rwa [size_evenPoints]
  · obtain ⟨points, -, h⟩ := bind_eq_ok h
    exact size_of_points h

/-- Evenly spread points are multiples of their distance. -/
theorem getD_evenPoints {n i : Nat} (hn : 2 ≤ n) (hi : i < n) :
    (evenPoints n : Array (Extended K)).getD i default = finite ((i : K) / ((n : K) - 1)) := by
  have hne : ((n - 1 : Int) : K) ≠ 0 := by
    rw [Int.cast_ne_zero]
    omega
  have hcast : ((n - 1 : Int) : K) = (n : K) - 1 := by push_cast; rfl
  have hstep : (Number.one / Number.ofInt (n - 1) : Extended K) = finite (1 / ((n : K) - 1)) := by
    rw [one_eq, ofInt_eq, finite_div _ hne, hcast]
  rw [hcast] at hne
  simp only [evenPoints, Array.getD, Array.size_ofFn, hi, dif_pos, Array.getInternal_eq_getElem,
    Array.getElem_ofFn, hstep]
  split_ifs with hzero hlast
  · rw [zero_eq, hzero, Nat.cast_zero, zero_div]
  · have hone : (i : K) = (n : K) - 1 := by rw [← hlast, Nat.cast_succ, add_sub_cancel_right]
    rw [one_eq, hone, div_self hne]
  · rw [ofInt_eq, finite_mul, Int.cast_natCast, mul_one_div]

theorem getD_finite_of_evenPoints {n : Nat} (hn : 2 ≤ n) (i : Nat) :
    ∃ x : K, (evenPoints n).getD i default = finite x := by
  by_cases hi : i < n
  · exact ⟨_, getD_evenPoints hn hi⟩
  · exact ⟨0, by simp [evenPoints, Array.getD, hi]⟩

/-- An accepted mesh without an undefined point has at least two points, all of them finite. -/
theorem Mesh.finite_of_literal {l : Literal (Extended K)}
    {mesh : Array (Extended K)} (h : Mesh.ofLiteral l = .ok mesh)
    (hdefined : ∀ x ∈ mesh, x ≠ undefined) :
    2 ≤ mesh.size ∧ ∀ i, ∃ x, mesh.getD i default = finite x := by
  refine ⟨Mesh.two_le_size h, ?_⟩
  unfold Mesh.ofLiteral at h
  split at h
  · cases h
  · split_ifs at h
    obtain ⟨hn, rfl⟩ := eq_of_even h
    exact getD_finite_of_evenPoints hn
  · obtain ⟨points, -, h⟩ := bind_eq_ok h
    exact getD_finite_of_points h hdefined

/-! ## Midpoints -/

section Midpoints

variable {α : Type} [Number α] {mesh : Array α} {k : Nat}

theorem size_withMidpoints : (withMidpoints mesh).size = 2 * mesh.size - 1 := by
  simp [withMidpoints]

theorem getD_withMidpoints_even (h : k < mesh.size) :
    (withMidpoints mesh).getD (2 * k) default = mesh.getD k default := by
  have hk : 2 * k < 2 * mesh.size - 1 := by omega
  simp [withMidpoints, Array.getD, hk]

theorem getD_withMidpoints_odd (h : k + 1 < mesh.size) :
    (withMidpoints mesh).getD (2 * k + 1) default =
      Number.half * (mesh.getD k default + mesh.getD (k + 1) default) := by
  have hk : 2 * k + 1 < 2 * mesh.size - 1 := by omega
  have hdiv : (2 * k + 1) / 2 = k := by omega
  have hmod : (2 * k + 1) % 2 = 1 := by omega
  simp [withMidpoints, hk, hdiv, hmod]

end Midpoints

theorem getD_finite_withMidpoints {mesh : Array (Extended K)}
    (h : ∀ i, ∃ x, mesh.getD i default = finite x) (i : Nat) :
    ∃ x, (withMidpoints mesh).getD i default = finite x := by
  by_cases hi : i < 2 * mesh.size - 1
  · obtain ⟨x, hx⟩ := h (i / 2)
    obtain ⟨y, hy⟩ := h (i / 2 + 1)
    simp only [withMidpoints, Array.getD, Array.size_ofFn, hi, dif_pos,
      Array.getInternal_eq_getElem, Array.getElem_ofFn]
    split
    · exact ⟨x, hx⟩
    · refine ⟨1 / 2 * (x + y), ?_⟩
      show Number.half * (mesh.getD _ default + mesh.getD _ default) = _
      rw [hx, hy, half_eq, finite_add, finite_mul]
  · exact ⟨0, by simp [withMidpoints, Array.getD, hi]⟩

/-! ## Meshes as numbers -/

section Order

variable [IsStrictOrderedRing K] {points mesh : Array (Extended K)}

/-- The points are finite numbers, each above the one before it. -/
structure Climbs (points : Array (Extended K)) (q : Nat → K) : Prop where
  get : ∀ i < points.size, points.getD i default = finite (q i)
  climb : ∀ k < points.size - 1, q k < q (k + 1)

theorem climbs_of_hasDescent {q : Nat → K} (h : hasDescent points = false)
    (hq : ∀ i, points.getD i default = finite (q i)) : Climbs points q := by
  refine ⟨fun i _ => hq i, ?_⟩
  intro k hk
  have hstep := step_of_hasDescent h (i := k) (by omega)
  rw [hq, hq, finite_sub, zero_eq, ← Bool.not_eq_true, atMost_finite, sub_nonpos] at hstep
  exact lt_of_not_ge hstep

/-- The points climb from zero to one. -/
structure IsMesh (points : Array (Extended K)) (q : Nat → K) : Prop extends Climbs points q where
  two_le : 2 ≤ points.size
  first : q 0 = 0
  last : q (points.size - 1) = 1

theorem isMesh_of_points {q : Nat → K} (h : Mesh.ofPoints points = .ok mesh)
    (hq : ∀ i, mesh.getD i default = finite (q i)) : IsMesh mesh q := by
  have hsize := size_of_points h
  unfold Mesh.ofPoints at h
  split_ifs at h with hfew hrefused
  cases h
  simp only [Bool.or_eq_true, Bool.not_eq_true', not_or, Bool.not_eq_false] at hrefused
  obtain ⟨⟨hfirst, hlast⟩, hdescent⟩ := hrefused
  rw [Bool.not_eq_true] at hdescent
  have hfirst' := (equal_iff.mp hfirst).2
  have hlast' := (equal_iff.mp hlast).2
  rw [hq, zero_eq] at hfirst'
  rw [hq, one_eq] at hlast'
  exact ⟨climbs_of_hasDescent hdescent hq, hsize, Extended.finite.inj hfirst',
    Extended.finite.inj hlast'⟩

theorem isMesh_evenPoints {n : Nat} {q : Nat → K} (hn : 2 ≤ n)
    (hq : ∀ i, (evenPoints n).getD i default = finite (q i)) : IsMesh (evenPoints n) q := by
  have hsize : (evenPoints n : Array (Extended K)).size = n := size_evenPoints n
  have hvalue : ∀ i < n, q i = (i : K) / ((n : K) - 1) := by
    intro i hi
    exact Extended.finite.inj ((hq i).symm.trans (getD_evenPoints hn hi))
  have hpos : (0 : K) < (n : K) - 1 := by
    rw [sub_pos]
    exact_mod_cast hn
  refine ⟨⟨fun i _ => hq i, ?_⟩, by omega, ?_, ?_⟩
  · intro k hk
    rw [hsize] at hk
    rw [hvalue k (by omega), hvalue (k + 1) (by omega)]
    exact div_lt_div_of_pos_right (by exact_mod_cast Nat.lt_succ_self k) hpos
  · rw [hvalue 0 (by omega), Nat.cast_zero, zero_div]
  · rw [hsize, hvalue (n - 1) (by omega), Nat.cast_sub (by omega), Nat.cast_one,
      div_self hpos.ne']

/-- Points that are evenly spread from zero to one are a mesh. -/
theorem exists_isMesh_evenPoints {n : Nat} (hn : 2 ≤ n) :
    ∃ q : Nat → K, IsMesh (evenPoints n) q := by
  choose q hq using getD_finite_of_evenPoints (K := K) hn
  exact ⟨q, isMesh_evenPoints hn hq⟩

/-- An accepted mesh without an undefined point climbs from zero to one. -/
theorem Mesh.exists_isMesh {l : Literal (Extended K)} (h : Mesh.ofLiteral l = .ok mesh)
    (hdefined : ∀ x ∈ mesh, x ≠ undefined) :
    ∃ q, IsMesh mesh q ∧ ∀ i, mesh.getD i default = finite (q i) := by
  obtain ⟨-, hfinite⟩ := Mesh.finite_of_literal h hdefined
  choose q hq using hfinite
  refine ⟨q, ?_, hq⟩
  unfold Mesh.ofLiteral at h
  split at h
  · cases h
  · split_ifs at h
    obtain ⟨hn, rfl⟩ := eq_of_even h
    exact isMesh_evenPoints hn hq
  · obtain ⟨points, -, h⟩ := bind_eq_ok h
    exact isMesh_of_points h hq

end Order

/-! ### Midpoints -/

section MidpointNumbers

variable {mesh : Array (Extended K)} {q : Nat → K}

/-- Numbers with the means of neighbours between them. -/
def midpointed (q : Nat → K) (i : Nat) : K :=
  if i % 2 = 0 then q (i / 2) else 1 / 2 * (q (i / 2) + q (i / 2 + 1))

/-- Half of the distance from a number to the next. -/
def halfStep (q : Nat → K) (k : Nat) : K :=
  (q (k + 1) - q k) / 2

omit [LinearOrder K] [FloorRing K] [Interpretation K] in
@[simp] theorem midpointed_even (q : Nat → K) (k : Nat) : midpointed q (2 * k) = q k := by
  simp [midpointed]

omit [LinearOrder K] [FloorRing K] [Interpretation K] in
@[simp] theorem midpointed_odd (q : Nat → K) (k : Nat) :
    midpointed q (2 * k + 1) = 1 / 2 * (q k + q (k + 1)) := by
  have hhalf : (2 * k + 1) / 2 = k := by omega
  simp [midpointed, hhalf]

theorem getD_withMidpoints (h : ∀ k < mesh.size, mesh.getD k default = finite (q k)) {i : Nat}
    (hi : i < 2 * mesh.size - 1) :
    (withMidpoints mesh).getD i default = finite (midpointed q i) := by
  rcases Nat.even_or_odd' i with ⟨k, rfl | rfl⟩
  · rw [getD_withMidpoints_even (by omega), h k (by omega), midpointed_even]
  · rw [getD_withMidpoints_odd (by omega), h k (by omega), h (k + 1) (by omega), midpointed_odd,
      half_eq, finite_add, finite_mul]

/-- The points of a mesh with their midpoints are a mesh too. -/
theorem IsMesh.withMidpoints [IsStrictOrderedRing K] (h : IsMesh mesh q) :
    IsMesh (withMidpoints mesh) (midpointed q) := by
  have hsize : (Collocation.withMidpoints mesh).size = 2 * mesh.size - 1 := size_withMidpoints
  have htwo := h.two_le
  refine ⟨⟨fun i hi => getD_withMidpoints h.get (hsize ▸ hi), ?_⟩, by omega, ?_, ?_⟩
  · intro i hi
    -- a midpoint is above the mesh point before it and below the one behind it
    rcases Nat.even_or_odd' i with ⟨k, rfl | rfl⟩
    · have hclimb := h.climb k (by omega)
      rw [midpointed_even, midpointed_odd]
      linarith
    · have hclimb := h.climb k (by omega)
      rw [midpointed_odd, show 2 * k + 1 + 1 = 2 * (k + 1) by ring, midpointed_even]
      linarith
  · exact (midpointed_even q 0).trans h.first
  · rw [hsize, show 2 * mesh.size - 1 - 1 = 2 * (mesh.size - 1) by omega, midpointed_even, h.last]

end MidpointNumbers
end Collocation
