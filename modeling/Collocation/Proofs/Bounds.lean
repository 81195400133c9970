import Collocation.Bounds
import Collocation.Proofs.Comparison
import Collocation.Proofs.Outcome

/-! # Bounds in order

  Bounds that can be written are in order: the lower number is at most the upper one, and neither
  is undefined. The two are compared as they are written, so integers are compared exactly, and
  they keep their order when they are rounded. -/

namespace Collocation

variable {α : Type} [Number α]

/-- The lower number is at most the upper one. -/
def Bounds.InOrder (b : Bounds α) : Prop := Number.atMost b.toPair.1 b.toPair.2

variable [LawfulComparison α]

/-! ## Scalars -/

/-- Of two defined scalars the one that does not exceed the other has at most its value. -/
theorem Scalar.atMost_value {s t : Scalar α} (hs : Number.isUndefined s.value = false)
    (ht : Number.isUndefined t.value = false) (h : s.exceeds t = false) :
    Number.atMost s.value t.value := by
  have hcompare : s.compare? t ≠ some .gt := by
    unfold exceeds at h
    intro hgt
    rw [hgt] at h
    cases h
  have hwhole : ∀ {m n : Int}, (some (compare m n) : Option Ordering) ≠ some .gt →
      Number.atMost (Number.ofInt m : α) (Number.ofInt n) := by
    intro m n hgt
    refine LawfulComparison.atMost_ofInt_ofInt (not_lt.mp fun hlt => hgt ?_)
    rw [compare_gt_iff_gt.mpr hlt]
  have hswap : ∀ {y : α} {n : Int}, Number.isUndefined y = false →
      (Number.compareInt? y n).map Ordering.swap ≠ some .gt → Number.atMost (Number.ofInt n) y := by
    intro y n hy hgt
    refine LawfulComparison.ofInt_atMost hy fun hlt => hgt ?_
    rw [hlt]
    rfl
  cases s with
  | real x =>
    cases t with
    | real y =>
      refine LawfulComparison.atMost_of_not_below hs ht ?_
      rw [← Bool.not_eq_true]
      intro hbelow
      change Number.below y x = true at hbelow
      have hnot : Number.below x y = false := by
        rw [← Bool.not_eq_true]
        intro hxy
        have hatMost : Number.atMost x y := by simp [Number.atMost, hxy]
        rw [LawfulComparison.not_below_of_atMost hatMost] at hbelow
        cases hbelow
      exact hcompare (by simp [compare?, hnot, hbelow])
    | whole n => exact LawfulComparison.atMost_ofInt hs hcompare
    | truth b => exact LawfulComparison.atMost_ofInt hs hcompare
  | whole m =>
    cases t with
    | real y => exact hswap ht hcompare
    | whole n => exact hwhole hcompare
    | truth b => exact hwhole hcompare
  | truth a =>
    cases t with
    | real y => exact hswap ht hcompare
    | whole n => exact hwhole hcompare
    | truth b => exact hwhole hcompare

omit [LawfulComparison α] in
/-- A literal that is read as a number has the value of its scalar. -/
theorem Scalar.value_of_toNumber {l : Literal α} {s : Scalar α} {x : α} (h : l.toNumber = .ok x)
    (hs : Scalar.ofLiteral? l = some s) : s.value = x := by
  cases l with
  | truth b =>
    cases hs
    cases h
    rfl
  | whole n =>
    cases hs
    change realOfInt n = _ at h
    unfold realOfInt at h
    simp only at h
    split_ifs at h
    cases h
    rfl
  | real y =>
    cases hs
    cases h
    rfl
  | _ => cases hs

/-! ## Bounds that can be written -/

namespace Bounds

theorem inOrder_unset : (unset : Bounds α).InOrder := LawfulComparison.atMost_infinities

theorem inOrder_of_make {lower upper : Literal α} {b : Bounds α} (h : make lower upper = .ok b) :
    b.InOrder := by
  unfold make at h
  obtain ⟨low, hlow, h⟩ := bind_eq_ok h
  by_cases hlowDefined : Number.isUndefined low = true
  · rw [if_pos hlowDefined] at h
    cases h
  rw [if_neg hlowDefined] at h
  obtain ⟨high, hhigh, h⟩ := bind_eq_ok h
  by_cases hhighDefined : Number.isUndefined high = true
  · rw [if_pos hhighDefined] at h
    cases h
  rw [if_neg hhighDefined] at h
  simp only at h
  split at h
  · next s t hs ht =>
    by_cases hexceeds : s.exceeds t = true
    · rw [if_pos hexceeds] at h
      cases h
    rw [if_neg hexceeds] at h
    cases h
    rw [Bool.not_eq_true] at hexceeds hlowDefined hhighDefined
    refine Scalar.atMost_value ?_ ?_ hexceeds
    · rwa [Scalar.value_of_toNumber hlow hs]
    · rwa [Scalar.value_of_toNumber hhigh ht]
  · cases h

/-- Bounds that are constructed at all are in order. -/
theorem inOrder_of_ofArguments {args : List (Literal α)} {names : List (String × Literal α)}
    {b : Bounds α} (h : ofArguments args names = .ok b) : b.InOrder := by
  unfold ofArguments at h
  obtain ⟨_, -, h⟩ := bind_eq_ok h
  by_cases htoo : 2 < args.length
  · rw [if_pos htoo] at h
    cases h
  rw [if_neg htoo] at h
  simp only at h
  unfold ofOptional at h
  split at h
  · cases h
    exact inOrder_unset
  · cases h
  · exact inOrder_of_make h
  · exact inOrder_of_make h

end Bounds
end Collocation
