import Collocation.Proofs.Mesh
import Collocation.Quadrature
import Mathlib.Algebra.BigOperators.Intervals
import Mathlib.Algebra.BigOperators.Ring.Finset
import Mathlib.Tactic.Positivity

/-! # Sums with quadrature weights

  What the weights of the two built-in rules make of values at the grid points: the sum over all
  intervals of what the rule says about one interval. A point between two intervals has a share
  in both of them. -/

namespace Collocation

open Finset

/-! ## Shares -/

section Shares

variable {K : Type} [Field K]

/-- The share of point `i` in the intervals beside it, of `n` intervals: it is the left end of one
    and the right end of another. -/
def share (n : Nat) (weight : Nat → K) (i : Nat) : K :=
  (if i < n then weight i else 0) + if 0 < i then weight (i - 1) else 0

/-- The share of a point of Simpson's rule, whose midpoints are at odd indices. -/
def simpsonShare (n : Nat) (step : Nat → K) (i : Nat) : K :=
  if i % 2 = 0 then share n (fun k => step k / 6) (i / 2) else 4 * step (i / 2) / 6

/-- Weighting the points by their shares is weighting the two ends of every interval. -/
theorem sum_share (n : Nat) (weight value : Nat → K) :
    ∑ i ∈ range (n + 1), share n weight i * value i =
      ∑ k ∈ range n, weight k * (value k + value (k + 1)) := by
  have hright : ∑ i ∈ range (n + 1), (if i < n then weight i else 0) * value i =
      ∑ k ∈ range n, weight k * value k := by
    -- the last point is the left end of no interval
    rw [sum_range_succ, if_neg (lt_irrefl n), zero_mul, add_zero]
    apply sum_congr rfl
    intro i hi
    rw [if_pos (mem_range.mp hi)]
  have hleft : ∑ i ∈ range (n + 1), (if 0 < i then weight (i - 1) else 0) * value i =
      ∑ k ∈ range n, weight k * value (k + 1) := by
    -- the first point is the right end of no interval
    rw [sum_range_succ', if_neg (lt_irrefl 0), zero_mul, add_zero]
    apply sum_congr rfl
    intro i _
    rw [if_pos (Nat.succ_pos i), Nat.add_sub_cancel]
  calc ∑ i ∈ range (n + 1), share n weight i * value i
      = ∑ i ∈ range (n + 1), ((if i < n then weight i else 0) * value i +
          (if 0 < i then weight (i - 1) else 0) * value i) :=
        sum_congr rfl fun i _ => add_mul _ _ _
    _ = ∑ k ∈ range n, weight k * value k + ∑ k ∈ range n, weight k * value (k + 1) := by
        rw [sum_add_distrib, hright, hleft]
    _ = ∑ k ∈ range n, weight k * (value k + value (k + 1)) := by
        rw [← sum_add_distrib]
        exact sum_congr rfl fun k _ => (mul_add _ _ _).symm

/-- Points with midpoints between them: first the points, then the midpoints. -/
theorem sum_range_midpoints (n : Nat) (value : Nat → K) :
    ∑ i ∈ range (2 * n + 1), value i =
      ∑ k ∈ range (n + 1), value (2 * k) + ∑ k ∈ range n, value (2 * k + 1) := by
  induction n with
  | zero => simp
  | succ n ih =>
    calc ∑ i ∈ range (2 * (n + 1) + 1), value i
        = ∑ i ∈ range (2 * n + 1), value i + value (2 * n + 1) + value (2 * (n + 1)) := by
          rw [mul_add, mul_one, sum_range_succ, sum_range_succ]
      _ = ∑ k ∈ range (n + 2), value (2 * k) + ∑ k ∈ range (n + 1), value (2 * k + 1) := by
          rw [ih, sum_range_succ (fun k => value (2 * k)) (n + 1),
            sum_range_succ (fun k => value (2 * k + 1)) n]
          ring

/-! ### Shares in another field -/

theorem map_share {L : Type} [Field L] (f : K →+* L) (n : Nat) (weight : Nat → K) (i : Nat) :
    f (share n weight i) = share n (fun k => f (weight k)) i := by
  unfold share
  split_ifs <;> simp

theorem map_simpsonShare {L : Type} [Field L] (f : K →+* L) (n : Nat) (step : Nat → K) (i : Nat) :
    f (simpsonShare n step i) = simpsonShare n (fun k => f (step k)) i := by
  have hfour : f 4 = 4 := map_ofNat f 4
  have hsix : f 6 = 6 := map_ofNat f 6
  unfold simpsonShare
  split_ifs
  · simp [map_share, hsix]
  · simp [hfour, hsix]

/-! ### Positive shares -/

section Positive

variable [LinearOrder K] [IsStrictOrderedRing K] {n i : Nat}

/-- Every point has a share in an interval beside it, of which there is at least one. -/
theorem share_pos {weight : Nat → K} (hn : 0 < n) (hweight : ∀ k < n, 0 < weight k) (hi : i ≤ n) :
    0 < share n weight i := by
  have hright : 0 ≤ if i < n then weight i else 0 := by
    split_ifs with hlt
    · exact (hweight i hlt).le
    · rfl
  unfold share
  by_cases hpos : 0 < i
  · rw [if_pos hpos]
    exact add_pos_of_nonneg_of_pos hright (hweight (i - 1) (by omega))
  · rw [if_neg hpos, if_pos (show i < n by omega), add_zero]
    exact hweight i (by omega)

theorem simpsonShare_pos {step : Nat → K} (hn : 0 < n) (hstep : ∀ k < n, 0 < step k)
    (hi : i < 2 * n + 1) : 0 < simpsonShare n step i := by
  unfold simpsonShare
  split_ifs with heven
  · refine share_pos hn (fun k hk => ?_) (by omega)
    have := hstep k hk
    positivity
  · have := hstep (i / 2) (by omega)
    positivity

end Positive

/-! ### Telescoping -/

/-- Changes by the trapezoidal rule over all intervals add up to the weighted sum of the slopes. -/
theorem trapezoidal_telescopes {n : Nat} {x slope half : Nat → K} {duration : K}
    (h : ∀ k < n, x (k + 1) - x k = duration * half k * (slope k + slope (k + 1))) :
    x n - x 0 = duration * ∑ i ∈ range (n + 1), share n half i * slope i :=
  calc x n - x 0
      = ∑ k ∈ range n, (x (k + 1) - x k) := (sum_range_sub x n).symm
    _ = ∑ k ∈ range n, duration * (half k * (slope k + slope (k + 1))) :=
        sum_congr rfl fun k hk => by
          rw [h k (mem_range.mp hk)]
          ring
    _ = duration * ∑ i ∈ range (n + 1), share n half i * slope i := by
        rw [← mul_sum, sum_share]

/-- Changes by Simpson's rule over all intervals add up to the weighted sum of the slopes. -/
theorem simpson_telescopes {n : Nat} {x slope step : Nat → K} {duration : K}
    (h : ∀ k < n, x (2 * k + 2) - x (2 * k) = duration * step k / 6 *
      (slope (2 * k) + 4 * slope (2 * k + 1) + slope (2 * k + 2))) :
    x (2 * n) - x 0 =
      duration * ∑ i ∈ range (2 * n + 1), simpsonShare n step i * slope i := by
  -- the mesh points are shared as in the trapezoidal rule, the midpoints are not shared
  have heven : ∑ k ∈ range (n + 1), simpsonShare n step (2 * k) * slope (2 * k) =
      ∑ k ∈ range n, step k / 6 * (slope (2 * k) + slope (2 * k + 2)) := by
    have hshare : ∀ k, simpsonShare n step (2 * k) = share n (fun k => step k / 6) k := by
      intro k
      simp [simpsonShare]
    simp only [hshare]
    exact sum_share n (fun k => step k / 6) fun k => slope (2 * k)
  have hodd : ∀ k, simpsonShare n step (2 * k + 1) = 4 * step k / 6 := by
    intro k
    have hhalf : (2 * k + 1) / 2 = k := by omega
    simp [simpsonShare, hhalf]
  calc x (2 * n) - x 0
      = ∑ k ∈ range n, (x (2 * (k + 1)) - x (2 * k)) :=
        (sum_range_sub (fun k => x (2 * k)) n).symm
    _ = ∑ k ∈ range n, (duration * (step k / 6 * (slope (2 * k) + slope (2 * k + 2))) +
          duration * (4 * step k / 6 * slope (2 * k + 1))) :=
        sum_congr rfl fun k hk => by
          rw [mul_add 2 k 1, mul_one, h k (mem_range.mp hk)]
          ring
    _ = duration * ∑ i ∈ range (2 * n + 1), simpsonShare n step i * slope i := by
        rw [sum_add_distrib, ← mul_sum, ← mul_sum, ← mul_add, sum_range_midpoints, heven]
        simp only [hodd]

end Shares

open Extended

variable {K : Type} [Field K] [LinearOrder K] [FloorRing K] [Interpretation K]
  {points mesh weights : Array (Extended K)} {q : Nat → K}

/-! ## Slopes -/

section Slopes

variable {n : Nat} {x c : Nat → K} {φ : Nat → Extended K}

/-- If all changes by the trapezoidal rule are finite, so are the slopes. -/
theorem slopes_of_trapezoidal (hn : 0 < n)
    (h : ∀ k < n, (finite (x (k + 1) - x k) : Extended K) = finite (c k) * (φ k + φ (k + 1))) :
    ∃ slope : Nat → K, (∀ k < n + 1, φ k = finite (slope k)) ∧
      ∀ k < n, x (k + 1) - x k = c k * (slope k + slope (k + 1)) := by
  have hends : ∀ k < n, ∃ y z, φ k = finite y ∧ φ (k + 1) = finite z := by
    intro k hk
    obtain ⟨_, _, -, hsum, -⟩ := mul_eq_finite (h k hk).symm
    obtain ⟨y, z, hy, hz, -⟩ := add_eq_finite hsum
    exact ⟨y, z, hy, hz⟩
  -- every point is an end of some interval
  have hfinite : ∀ k < n + 1, ∃ y, φ k = finite y := by
    intro k hk
    by_cases hlast : k < n
    · obtain ⟨y, _, hy, -⟩ := hends k hlast
      exact ⟨y, hy⟩
    · obtain ⟨_, z, -, hz⟩ := hends (k - 1) (by omega)
      rw [Nat.sub_add_cancel (by omega)] at hz
      exact ⟨z, hz⟩
  choose! slope hslope using hfinite
  refine ⟨slope, hslope, ?_⟩
  intro k hk
  have hchange := h k hk
  rw [hslope k (by omega), hslope (k + 1) (by omega), finite_add, finite_mul] at hchange
  exact Extended.finite.inj hchange

/-- If all changes by Simpson's rule are finite, so are the slopes. -/
theorem slopes_of_simpson (hn : 0 < n)
    (h : ∀ k < n, (finite (x (2 * k + 2) - x (2 * k)) : Extended K) =
      finite (c k) * (φ (2 * k) + finite 4 * φ (2 * k + 1) + φ (2 * k + 2))) :
    ∃ slope : Nat → K, (∀ i < 2 * n + 1, φ i = finite (slope i)) ∧
      ∀ k < n, x (2 * k + 2) - x (2 * k) =
        c k * (slope (2 * k) + 4 * slope (2 * k + 1) + slope (2 * k + 2)) := by
  have hinterval : ∀ k < n, ∃ y z w, φ (2 * k) = finite y ∧ φ (2 * k + 1) = finite z ∧
      φ (2 * k + 2) = finite w := by
    intro k hk
    obtain ⟨_, _, -, hsum, -⟩ := mul_eq_finite (h k hk).symm
    obtain ⟨_, w, hpair, hw, -⟩ := add_eq_finite hsum
    obtain ⟨y, _, hy, hfour, -⟩ := add_eq_finite hpair
    obtain ⟨_, z, -, hz, -⟩ := mul_eq_finite hfour
    exact ⟨y, z, w, hy, hz, hw⟩
  -- every point is an end or the midpoint of some interval
  have hfinite : ∀ i < 2 * n + 1, ∃ y, φ i = finite y := by
    intro i hi
    by_cases hlast : i / 2 < n
    · obtain ⟨y, z, _, hy, hz, -⟩ := hinterval (i / 2) hlast
      rcases Nat.mod_two_eq_zero_or_one i with heven | hodd
      · rw [show 2 * (i / 2) = i by omega] at hy
        exact ⟨y, hy⟩
      · rw [show 2 * (i / 2) + 1 = i by omega] at hz
        exact ⟨z, hz⟩
    · obtain ⟨_, _, w, -, -, hw⟩ := hinterval (i / 2 - 1) (by omega)
      rw [show 2 * (i / 2 - 1) + 2 = i by omega] at hw
      exact ⟨w, hw⟩
  choose! slope hslope using hfinite
  refine ⟨slope, hslope, ?_⟩
  intro k hk
  have hchange := h k hk
  rw [hslope (2 * k) (by omega), hslope (2 * k + 1) (by omega), hslope (2 * k + 2) (by omega),
    finite_mul, finite_add, finite_add, finite_mul] at hchange
  exact Extended.finite.inj hchange

end Slopes

/-! ## Sums of numbers -/

/-- Values at the grid points, each as often as its weight says. -/
def weightedSum {α : Type} [Number α] (weights : Array α) (value : Nat → α) : α :=
  Number.sum ((List.range weights.size).map fun i => weights.getD i default * value i)

theorem sum_finite (n : Nat) (value : Nat → K) :
    Number.sum ((List.range n).map fun i => (finite (value i) : Extended K)) =
      finite (∑ i ∈ range n, value i) := by
  unfold Number.sum
  induction n with
  | zero => simp
  | succ n ih =>
    rw [List.range_succ, List.map_append, List.foldl_append, ih, sum_range_succ]
    simp

theorem weightedSum_finite {n : Nat} {weight value : Nat → K} {g : Nat → Extended K}
    (hsize : weights.size = n) (hweights : ∀ i < n, weights.getD i default = finite (weight i))
    (hg : ∀ i < n, g i = finite (value i)) :
    weightedSum weights g = finite (∑ i ∈ range n, weight i * value i) := by
  rw [← sum_finite, weightedSum, hsize]
  refine congrArg Number.sum (List.map_congr_left ?_)
  intro i hi
  rw [List.mem_range] at hi
  rw [hweights i hi, hg i hi, finite_mul]

/-! ## The weights of the rules -/

theorem getD_differences_finite (hpoints : ∀ i, points.getD i default = finite (q i)) {k : Nat}
    (hk : k < points.size - 1) :
    (differences points).getD k default = finite (q (k + 1) - q k) := by
  rw [getD_differences (by omega), hpoints, hpoints, finite_sub]

/-- What a rule adds up for a point, from a finite weight for every interval. -/
theorem finite_share {n i : Nat} {interval : Nat → Extended K} {weight : Nat → K}
    (hinterval : ∀ k < n, interval k = finite (weight k)) (hi : i ≤ n) :
    ((if i < n then interval i else Number.zero) +
        if 0 < i then interval (i - 1) else Number.zero) = finite (share n weight i) := by
  have hright : (if i < n then interval i else Number.zero) =
      finite (if i < n then weight i else 0) := by
    by_cases hlt : i < n
    · rw [if_pos hlt, if_pos hlt, hinterval i hlt]
    · rw [if_neg hlt, if_neg hlt, zero_eq]
  have hleft : (if 0 < i then interval (i - 1) else Number.zero) =
      finite (if 0 < i then weight (i - 1) else 0) := by
    by_cases hpos : 0 < i
    · rw [if_pos hpos, if_pos hpos, hinterval (i - 1) (by omega)]
    · rw [if_neg hpos, if_neg hpos, zero_eq]
  rw [hright, hleft, finite_add, share]

/-- The trapezoidal rule weights each point with half of the intervals beside it. -/
theorem trapezoidalWeights_eq_ok (hpoints : ∀ i, points.getD i default = finite (q i))
    (h : trapezoidalWeights points.size [points.size - 1] (differences points) = .ok weights) :
    weights.size = points.size ∧ ∀ i < points.size, weights.getD i default =
      finite (share (points.size - 1) (halfStep q) i) := by
  have hsize : (differences points).size = points.size - 1 := by simp [differences]
  have hsteps : repeatTo? (points.size - 1) (differences points) = some (differences points) := by
    rw [← hsize, repeatTo?_size]
  unfold trapezoidalWeights at h
  -- there is a step for every interval, so none has to be repeated
  simp only [stretch?_self, if_true, hsteps, Option.getD_some] at h
  cases h
  refine ⟨by simp, ?_⟩
  intro i hi
  have hhalf : ∀ k < points.size - 1, Number.half * (differences points).getD k default =
      finite (halfStep q k) := by
    intro k hk
    rw [getD_differences_finite hpoints hk, half_eq, finite_mul, halfStep]
    congr 1
    ring
  rw [← finite_share hhalf (by omega)]
  have hlast : i + 1 < points.size ↔ i < points.size - 1 := by omega
  simp [trapezoidalWeight, hi, hlast]

/-- Simpson's rule weights each mesh point with a sixth of the intervals beside it, and each
    midpoint with four sixths of its own interval. -/
theorem getD_simpsonWeights (hmesh : ∀ i, mesh.getD i default = finite (q i)) {i : Nat}
    (hi : i < 2 * mesh.size - 1) :
    (simpsonWeights mesh).getD i default =
      finite (simpsonShare (mesh.size - 1) (fun k => q (k + 1) - q k) i) := by
  have hsize : (differences mesh).size = mesh.size - 1 := by simp [differences]
  have hsix : ((6 : Int) : K) ≠ 0 := by norm_num
  have hget : (simpsonWeights mesh).getD i default = simpsonWeight (differences mesh) i := by
    simp [simpsonWeights, hi]
  rw [hget, simpsonWeight, simpsonShare]
  by_cases hodd : i % 2 = 1
  · -- a midpoint
    rw [if_pos hodd, if_neg (by omega), getD_differences_finite hmesh (by omega), ofInt_eq,
      ofInt_eq, finite_mul, finite_div _ hsix]
    norm_num
  · -- a mesh point, which is an end of two intervals
    have hsixth : ∀ k < mesh.size - 1,
        (differences mesh).getD k default / Number.ofInt 6 = finite ((q (k + 1) - q k) / 6) := by
      intro k hk
      rw [getD_differences_finite hmesh hk, ofInt_eq, finite_div _ hsix]
      norm_num
    have heven : i % 2 = 0 := by omega
    have hpos : 0 < i ↔ 0 < i / 2 := by omega
    have hlt : i / 2 ≤ mesh.size - 1 := by omega
    rw [if_neg hodd, if_pos heven, ← finite_share hsixth hlt, hsize]
    simp only [hpos]

end Collocation
