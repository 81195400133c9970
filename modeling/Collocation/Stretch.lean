import Collocation.Tensor

/-! # Stretching

  Arrays of different shapes side by side. Sizes are matched from the last axis to the first,
  and along an axis of size one the only element is repeated; so a single element meets every
  element of a vector. -/

namespace Collocation

/-- Two shapes stretched to a common one, given from the last size to the first. -/
def stretchReversed? : List Nat → List Nat → Option (List Nat)
  | [], t => some t
  | s, [] => some s
  | m :: s, n :: t =>
    if m = n ∨ n = 1 then (m :: ·) <$> stretchReversed? s t
    else if m = 1 then (n :: ·) <$> stretchReversed? s t
    else none

/-- Two shapes stretched to a common one. -/
def stretch? (s t : List Nat) : Option (List Nat) :=
  List.reverse <$> stretchReversed? s.reverse t.reverse

theorem stretchReversed?_self (s : List Nat) : stretchReversed? s s = some s := by
  induction s with
  | nil => rfl
  | cons n s ih => simp [stretchReversed?, ih]

@[simp] theorem stretch?_self (s : List Nat) : stretch? s s = some s := by
  simp [stretch?, stretchReversed?_self]

/-- A vector with `n` elements, or a single element repeated `n` times. -/
def repeatTo? {α : Type} [Inhabited α] (n : Nat) (v : Array α) : Option (Array α) :=
  if v.size = n then some v
  else if v.size = 1 then some (Array.replicate n (v.getD 0 default))
  else none

@[simp] theorem repeatTo?_size {α : Type} [Inhabited α] (v : Array α) :
    repeatTo? v.size v = some v := by
  simp [repeatTo?]

theorem size_of_repeatTo? {α : Type} [Inhabited α] {n : Nat} {v w : Array α}
    (h : repeatTo? n v = some w) : w.size = n := by
  unfold repeatTo? at h
  split at h
  · cases h; assumption
  · split at h
    · cases h; simp
    · cases h

end Collocation
