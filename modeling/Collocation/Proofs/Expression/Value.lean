import Collocation.Proofs.Cancellation
import Collocation.Proofs.Expression.Rules
import Collocation.Proofs.Expression.Same

/-! # Values of single numbers

  What a sized expression of one element is at given values of the symbols, read off its outermost
  operation: that of its parts, put together, or that of a constant. Operations on one number are
  simplified where they undo each other, which changes no finite value. -/

namespace Collocation

open Extended

variable {σ K : Type} [Field K] [LinearOrder K] [FloorRing K] [Interpretation K]
  {env : σ → Matrix (Extended K)} {a b : Sized σ (Extended K)} {f : BinaryOp}
  {x y : Expr σ (Extended K)} {z : K}

namespace Sized

/-- The expression is a single number. -/
abbrev Single (env : σ → Matrix (Extended K)) (a : Sized σ (Extended K)) : Prop :=
  a.Fits (fun i => (env i).extent) .unit

/-- The value of a single number. -/
def value (env : σ → Matrix (Extended K)) (a : Sized σ (Extended K)) : Extended K :=
  (a.expr.eval env).get 0

/-! ## Values of parts -/

theorem Fits.unit_eq (ha : a.Single env) : a.extent = .unit := or_self_iff.mp ha.extent

theorem Fits.unit_size (ha : a.Single env) : a.expr.HasSize (fun i => (env i).extent) .unit := by
  rw [← ha.unit_eq]
  exact ha.size

theorem Fits.unit_eval (ha : a.Single env) : (a.expr.eval env).extent = .unit :=
  ha.unit_size.extent_eval fun _ => rfl

theorem Fits.pos_size (ha : a.Single env) : 0 < (a.expr.eval env).extent.size := by
  rw [ha.unit_eval, Extent.size_unit]
  exact Nat.one_pos

/-- The value of an expression is the only element that it has. -/
theorem Fits.eval_eq (ha : a.Single env) : a.expr.eval env = .unit (a.value env) := by
  apply Matrix.ext_elements ha.unit_eval
  apply List.ext_getElem?
  intro k
  by_cases hk : k < (a.expr.eval env).extent.size
  · rw [Matrix.getElem?_elements hk]
    rw [ha.unit_eval, Extent.size_unit] at hk
    obtain rfl : k = 0 := by omega
    rfl
  · rw [List.getElem?_eq_none (by rw [Matrix.length_elements]; omega), List.getElem?_eq_none]
    rw [Matrix.length_elements]
    rw [ha.unit_eval] at hk
    exact Nat.le_of_not_lt hk

theorem value_of_map {g : UnaryOp} (ha : a.Single env) (he : a.expr = .map g x) :
    a.value env = g.apply ((a.part x).value env) := by
  rw [value, he, Expr.eval]
  exact Matrix.get_map (ha.of_map he).pos_size

theorem value_of_zip (ha : a.Single env) (he : a.expr = .zip f x y) :
    a.value env = f.apply ((a.part x).value env) ((a.part y).value env) := by
  obtain ⟨hx, hy⟩ := ha.of_zip he
  rw [value, he, Expr.eval]
  exact Matrix.get_zip (hx.unit_eval.trans hy.unit_eval.symm) hx.pos_size

theorem value_of_same [DecidableEq σ] (ha : a.Single env) (hb : b.Single env)
    (h : Expr.same a.expr b.expr) : a.value env = b.value env := by
  rw [value, Expr.eval_of_same h ha.unit_size hb.unit_size, value]

/-! ## Values of constants -/

theorem value_of_matrix? {m : Matrix (Extended K)} (h : a.expr.matrix? = some m) :
    a.value env = m.get 0 := by
  rw [value, Expr.eval_of_matrix? h]

theorem value_of_constant? {c : Extended K} (ha : a.Single env) (h : a.expr.constant? = some c) :
    a.value env = c := by
  obtain ⟨m, hm, hc⟩ := Option.bind_eq_some_iff.mp h
  rw [value_of_matrix? hm]
  apply Expr.get_of_uniform? hc
  rw [Expr.extent_of_matrix? ha.unit_size hm, Extent.size_unit]
  exact Nat.one_pos

theorem value_of_isConstant {c : Extended K} (ha : a.Single env) (h : a.expr.isConstant c) :
    a.value env = c := by
  unfold Expr.isConstant at h
  split at h
  · next d hd => rw [value_of_constant? ha hd, (equal_iff.mp h).2]
  · cases h

theorem value_of_isZero (ha : a.Single env) (h : a.isZero) : a.value env = finite 0 := by
  rw [value_of_isConstant ha h, zero_eq]

theorem value_constant (c : Extended K) : (constant .unit c : Sized σ _).value env = c := by
  have hget : (constant .unit c : Sized σ _).value env =
      if Number.isZero c then Number.zero else c := rfl
  rw [hget]
  split
  · next hzero => rw [isZero_iff.mp hzero, zero_eq]
  · rfl

theorem value_ofMatrix {m : Matrix (Extended K)} (hm : m.extent = .unit) :
    (ofMatrix m : Sized σ _).value env = m.get 0 := by
  have hpos : 0 < m.extent.size := by
    rw [hm, Extent.size_unit]
    exact Nat.one_pos
  unfold ofMatrix Expr.ofMatrix
  cases hu : m.uniform? with
  | none => rfl
  | some c =>
    rw [Expr.get_of_uniform? hu hpos, hm]
    exact value_constant c

theorem value_hollow : (hollow .unit : Sized σ _).value env = (finite 0 : Extended K) := by
  have hsum : (hollow .unit : Sized σ _).value env = (Number.zero : Extended K) := rfl
  rw [hsum, zero_eq]

theorem value_of_isHollow (ha : a.Single env) (h : a.expr.isHollow) : a.value env = finite 0 := by
  have hsize := ha.unit_size
  unfold Expr.isHollow at h
  split at h
  · next m n he =>
    rw [Bool.and_eq_true, decide_eq_true_iff, decide_eq_true_iff] at h
    have hextent := ha.unit_eval
    rw [he, Expr.eval, Expr.eval, Expr.eval] at hextent
    -- neither factor is a single number, so the product is a sum of nothing
    have hne : ¬(m.extent = .unit ∨ n.extent = .unit) := by
      rintro (hm | hn)
      · have := h.1
        rw [Matrix.cols, hm] at this
        cases this
      · have := h.2
        rw [Matrix.rows, hn] at this
        cases this
    rw [value, he, Expr.eval, Expr.eval, Expr.eval]
    unfold Matrix.product at hextent ⊢
    rw [if_neg hne] at hextent ⊢
    rw [Matrix.ofFn, Matrix.get_ofColumnMajor _ _ (by
      rw [Matrix.extent_ofFn] at hextent
      rw [hextent, Extent.size_unit]
      exact Nat.one_pos), h.1, List.range_zero, List.map_nil]
    exact zero_eq
  · cases h

/-! ## Operations on one number -/

theorem value_unsimplified (g : UnaryOp) (ha : a.Single env) :
    ((Expr.map g a.expr).eval env).get 0 = g.apply (a.value env) :=
  Matrix.get_map ha.pos_size

/-- A constant is mapped at once. -/
theorem value_map_of_matrix? {g : UnaryOp} (ha : a.Single env)
    {m : Matrix (Extended K)} (hm : a.expr.matrix? = some m)
    (h : g.apply (a.value env) = finite z) : (a.map g).value env = finite z := by
  have hmap : a.expr.simpleMap g =
      if a.expr.isHollow && Number.isZero (g.apply (Number.zero : Extended K)) then a.expr
      else .ofMatrix (m.map g.apply) := by
    unfold Expr.simpleMap
    split
    · next he =>
      rw [he] at hm
      cases hm
    · rw [hm]
  have hextent := Expr.extent_of_matrix? ha.unit_size hm
  rw [value, map, hmap]
  split
  · next hhollow =>
    -- nothing was added up, and the operation leaves zero as it is
    rw [Bool.and_eq_true, isZero_iff, zero_eq] at hhollow
    have hzero := value_of_isHollow ha hhollow.1
    rw [hzero, hhollow.2] at h
    rw [← h]
    exact hzero
  · have hget : (ofMatrix (m.map g.apply)).value env = (m.map g.apply).get 0 :=
      value_ofMatrix hextent
    rw [← h, value_of_matrix? hm]
    refine hget.trans (Matrix.get_map ?_)
    rw [hextent, Extent.size_unit]
    exact Nat.one_pos

/-- Changing the sign, doubling and inverting, the operations that the rules for sums and for
    constant factors ask for. -/
def changesScale : UnaryOp → Bool
  | .neg | .twice | .inverse => true
  | _ => false

theorem value_map {g : UnaryOp} (ha : a.Single env) (hg : changesScale g)
    (h : g.apply (a.value env) = finite z) : (a.map g).value env = finite z := by
  cases hm : a.expr.matrix? with
  | some m => exact value_map_of_matrix? ha hm h
  | none =>
    by_cases hmap : ∃ k e, a.expr = .map k e
    · obtain ⟨k, e, he⟩ := hmap
      have hk := value_of_map ha he
      have hboth := value_unsimplified g ha
      rw [h, he] at hboth
      rw [value, map, he, Expr.simpleMap]
      -- an operation may undo the same one before it
      cases g with
      | neg =>
        cases k with
        | neg =>
          rw [hk] at h
          have hx := neg_eq_finite (neg_eq_finite h)
          rw [neg_neg] at hx
          exact hx
        | _ => exact hboth
      | inverse =>
        cases k with
        | inverse =>
          rw [hk] at h
          simp only [UnaryOp.apply, one_eq] at h
          exact eq_of_inverse_inverse h
        | _ => exact hboth
      | twice => cases k <;> exact hboth
      | square | elementary => cases hg
    · have hplain : a.expr.simpleMap g = .map g a.expr := by
        unfold Expr.simpleMap
        split
        · next he => exact (hmap ⟨_, _, he⟩).elim
        · rw [hm]
      rw [value, map, hplain, value_unsimplified g ha, h]

end Sized
end Collocation
