import Collocation.Proofs.Exact
import Collocation.Scheme
import Mathlib.Tactic.FieldSimp

/-! # Times of grid points

  The times between two ends, as numbers. The law is linear in the grid, so distances are scaled by
  the duration and middles stay middles; with a negative duration the times run backwards. -/

namespace Collocation

open Extended

section Law

variable {K : Type} [Field K]

/-- The times at grid points that are given, between two ends. -/
def timeLaw (q : Nat → K) (initial final : K) (i : Nat) : K := initial + q i * (final - initial)

theorem timeLaw_sub (q : Nat → K) (initial final : K) (i j : Nat) :
    timeLaw q initial final j - timeLaw q initial final i = (final - initial) * (q j - q i) := by
  unfold timeLaw
  ring

/-- In the middle of two grid points is the middle of their times. -/
theorem timeLaw_middle [CharZero K] {q : Nat → K} {i j k : Nat}
    (h : q j = 1 / 2 * (q i + q k)) (initial final : K) :
    timeLaw q initial final j = (timeLaw q initial final i + timeLaw q initial final k) / 2 := by
  unfold timeLaw
  rw [h]
  field_simp
  ring

theorem timeLaw_of_zero {q : Nat → K} {i : Nat} (h : q i = 0) (initial final : K) :
    timeLaw q initial final i = initial := by
  rw [timeLaw, h, zero_mul, add_zero]

theorem timeLaw_of_one {q : Nat → K} {i : Nat} (h : q i = 1) (initial final : K) :
    timeLaw q initial final i = final := by
  rw [timeLaw, h, one_mul, add_sub_cancel]

end Law

theorem Scheme.createTimes_eq {α : Type} [Number α] {s : Scheme α} {grid : Array α}
    (h : s.gridVector = .ok grid) (initial final : α) :
    s.createTimes initial final = .ok (timesBetween grid initial final) := by
  unfold createTimes
  rw [h]
  rfl

theorem size_timesBetween {α : Type} [Number α] (grid : Array α) (initial final : α) :
    (Scheme.timesBetween grid initial final).size = grid.size := by
  simp [Scheme.timesBetween]

variable {K : Type} [Field K] [LinearOrder K] [FloorRing K] [Interpretation K]
  {points : Array (Extended K)}

theorem getD_timesBetween {q : Nat → K} {i : Nat} (hi : i < points.size)
    (hpoint : points.getD i default = finite (q i)) (initial final : K) :
    (Scheme.timesBetween points (finite initial) (finite final)).getD i default =
      finite (timeLaw q initial final i) := by
  have hget : (Scheme.timesBetween points (finite initial) (finite final)).getD i default =
      finite initial + points.getD i default * (finite final - finite initial) := by
    simp [Scheme.timesBetween, hi]
  rw [hget, hpoint, finite_sub, finite_mul, finite_add, timeLaw]

end Collocation
