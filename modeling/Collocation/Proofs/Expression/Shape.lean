import Collocation.Proofs.Expression.Column

/-! # Changes of shape

  An expression in another shape has the same elements in the same order, whichever way the change
  is written: as the constant in that shape, as a slice of everything, or as the expression that
  was sliced before. Turning a vector is such a change. -/

namespace Collocation

/-! ## Matrices -/

namespace Matrix

variable {α : Type} [Number α] {a : Matrix α} {extent : Extent}

/-- A slice of everything keeps the elements. -/
theorem data_slice (h : extent.size = a.extent.size) : (a.slice extent 0).data = a.data := by
  apply Array.ext
  · simp [slice, ofColumnMajor, a.size_data, h]
  · intro k hk hk'
    simp [slice, ofColumnMajor, get, hk']

/-- A vector that is turned keeps its elements. -/
theorem data_transpose (h : a.extent.rows = 1 ∨ a.extent.cols = 1) :
    a.transpose.data = a.data := by
  have hsize : a.data.size = a.extent.rows * a.extent.cols := a.size_data
  apply Array.ext
  · simp [transpose, ofFn, ofColumnMajor, Extent.size, Extent.transpose, hsize, Nat.mul_comm]
  · intro k hk hk'
    -- along a vector the place is one of the two indices, and the other one is zero
    rcases h with h | h
    · rw [h, Nat.one_mul] at hsize
      have hlt : k < a.extent.cols := by omega
      simp [transpose, ofFn, ofColumnMajor, Extent.transpose, entry, get, rows, h,
        Nat.mod_eq_of_lt hlt, Nat.div_eq_of_lt hlt, hk']
      omega
    · rw [h, Nat.mul_one] at hsize
      have hlt : k < a.extent.rows := by omega
      simp [transpose, ofFn, ofColumnMajor, Extent.transpose, entry, get, rows, h, Nat.mod_one,
        hlt, hk']

end Matrix

/-! ## Expressions -/

/-- What a change of shape is taken from has the same elements. -/
theorem Sized.data_reshaped? {σ α : Type} [Number α] {env : σ → Matrix α} {e whole : Expr σ α}
    {s : Extent} (h : e.HasSize (fun i => (env i).extent) s) (hwhole : reshaped? e = some whole) :
    (e.eval env).data = (whole.eval env).data := by
  unfold reshaped? at hwhole
  split at hwhole
  · next extent e =>
    cases h with
    | slice _ _ he _ =>
      rw [he.extent?_eq] at hwhole
      simp only at hwhole
      split_ifs at hwhole with hsize
      cases hwhole
      refine Matrix.data_slice ?_
      rw [he.extent_eval fun _ => rfl, hsize.1]
  · cases hwhole

/-- All elements of a symbol as one column. -/
theorem Sized.eval_vec_symbol {σ α : Type} [Number α] {env : σ → Matrix α} {i : σ} {extent : Extent}
    (h : (env i).extent = extent) :
    (Sized.symbol i extent : Sized σ α).vec.expr.eval env = (env i).vec := by
  subst h
  have hvec : (env i).vec.extent = ⟨(env i).extent.size, 1⟩ :=
    congrArg (fun n => (⟨n, 1⟩ : Extent)) (env i).size_data
  unfold Sized.vec Sized.reshape
  split_ifs with hcolumn
  -- a column stays as it is
  · exact Matrix.ext (hcolumn.trans hvec.symm) rfl
  · have hslice : (env i).slice ⟨(env i).extent.size, 1⟩ 0 = (env i).vec :=
      Matrix.ext hvec.symm (Matrix.data_slice (by simp [Extent.size]))
    show (Sized.expr (if _ then _ else _)).eval env = _
    split_ifs with hsame
    · exact absurd (Option.some.inj hsame) hcolumn
    · exact hslice

open Extended

variable {σ K : Type} [Field K] [LinearOrder K] [FloorRing K] [Interpretation K]
  {env : σ → Matrix (Extended K)}

/-- A constant has the elements that it is made from, also where all of them are the same. -/
theorem Expr.eval_ofMatrix (m : Matrix (Extended K)) :
    (Expr.ofMatrix m : Expr σ (Extended K)).eval env = m := by
  unfold Expr.ofMatrix
  cases hm : m.uniform? with
  | none => rfl
  | some x =>
    -- zero has no sign
    have hx : (if Number.isZero x then Number.zero else x) = x := by
      split
      · next hzero => rw [isZero_iff.mp hzero, zero_eq]
      · rfl
    show Matrix.fill m.extent (if Number.isZero x then Number.zero else x) = m
    rw [hx]
    refine Matrix.ext rfl (Array.ext (by simp [Matrix.fill, Matrix.ofColumnMajor, m.size_data]) ?_)
    intro k hk hk'
    have hget := get_of_uniform? hm (m.size_data ▸ hk')
    rw [Matrix.get_eq_getElem hk'] at hget
    simp [Matrix.fill, Matrix.ofColumnMajor, hget]

namespace Sized

variable {a : Sized σ (Extended K)} {extent : Extent}

/-- All elements in another shape are the same elements. -/
theorem data_reshape (h : a.expr.HasSize (fun i => (env i).extent) a.extent)
    (hextent : extent.size = a.extent.size) :
    ((a.reshape extent).expr.eval env).data = (a.expr.eval env).data := by
  have hvalue : (a.expr.eval env).extent = a.extent := h.extent_eval fun _ => rfl
  unfold reshape
  split
  · rfl
  · cases hm : a.expr.matrix? with
    | some m =>
      rw [Expr.eval_of_matrix? hm] at hvalue ⊢
      show ((Expr.ofMatrix (m.slice extent 0)).eval env).data = _
      rw [Expr.eval_ofMatrix, Matrix.data_slice (hextent.trans (congrArg Extent.size hvalue.symm))]
    | none =>
      -- either way the elements are those of what the change is taken from
      have hwhole : (((reshaped? a.expr).getD a.expr).eval env).data = (a.expr.eval env).data := by
        cases hr : reshaped? a.expr with
        | some whole => exact (data_reshaped? h hr).symm
        | none => rfl
      simp only
      split
      · exact hwhole
      · rw [← hwhole]
        refine Matrix.data_slice ?_
        rw [hextent, ← congrArg Extent.size hvalue, ← Matrix.size_data, ← hwhole,
          Matrix.size_data]

end Sized
end Collocation
