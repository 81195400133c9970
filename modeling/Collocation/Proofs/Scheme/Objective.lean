import Collocation.Proofs.Quadrature
import Collocation.Proofs.Scheme.Defects

/-! # The objective

  What the objective of a prepared scheme means where the integrand is finite at every grid point:
  the costs at the two ends, and added to them the duration times the weighted sum of the
  integrand. The sum is left out only where it is zero. -/

namespace Collocation

/-! ## Sums of products -/

namespace Matrix

variable {α : Type} [Number α] {a b : Matrix α} {n : Nat}

/-- A row times a column, neither of which is a single number. -/
theorem get_product (hn : n ≠ 1) (ha : a.extent = ⟨1, n⟩) (hb : b.extent = ⟨n, 1⟩) :
    (product a b).get 0 = Number.sum ((List.range n).map fun k => a.get k * b.get k) := by
  have hunit : ¬(a.extent = .unit ∨ b.extent = .unit) := by
    simp [ha, hb, Extent.unit, hn]
  -- so it is the product of matrices, not the elementwise one
  unfold product
  rw [if_neg hunit, ofFn, get_ofColumnMajor _ _ (by simp [rows, cols, ha, hb, Extent.size])]
  have hcols : a.cols = n := by rw [cols, ha]
  rw [hcols]
  refine congrArg Number.sum (List.map_congr_left ?_)
  intro k hk
  rw [List.mem_range] at hk
  simp [entry, rows, ha, hb, hk]

/-- A column turned into a row keeps its elements. -/
theorem get_transpose (ha : a.extent = ⟨n, 1⟩) {k : Nat} (hk : k < n) :
    a.transpose.get k = a.get k := by
  unfold transpose
  rw [ofFn, get_ofColumnMajor _ _ (by simp [ha, Extent.transpose, Extent.size, hk])]
  simp [entry, rows, ha, Extent.transpose, hk, Nat.mod_one]

end Matrix

namespace Expr.IsColumn

variable {σ α : Type} [Number α] {env : σ → Matrix α} {e : Expr σ α} {g : Nat → α}

/-- Single numbers one above the other. -/
theorem stacked {es : List (Expr σ α)}
    (h : ∀ k (hk : k < es.length), es[k].IsColumn env 1 fun _ => g k) :
    (Expr.stacked es).IsColumn env es.length g := by
  induction es generalizing g with
  | nil =>
    refine ⟨.const _, ?_⟩
    intro k hk
    cases hk
  | cons e es ih =>
    have hfirst : e.IsColumn env 1 fun _ => g 0 := h 0 (Nat.succ_pos _)
    have hrest := ih (g := fun k => g (k + 1)) fun k hk => h (k + 1) (Nat.succ_lt_succ hk)
    -- a single one stands alone, without an empty matrix below it
    cases es with
    | nil =>
      apply hfirst.congr
      intro k hk
      obtain rfl : k = 0 := by omega
      rfl
    | cons e' es =>
      have habove := hfirst.above hrest
      rw [Nat.add_comm] at habove
      apply habove.congr
      intro k _
      by_cases hk : k < 1
      · obtain rfl : k = 0 := by omega
        rfl
      · rw [if_neg hk, Nat.sub_add_cancel (by omega)]

/-- The weighted sum of a column. -/
theorem weightedSum {weights : Array α} (hn : weights.size ≠ 1)
    (he : e.IsColumn env weights.size g) :
    (Expr.product (.transpose (.const (.column weights))) e).IsColumn env 1 fun _ =>
      weightedSum weights g := by
  have hrow : (Expr.transpose (.const (.column weights)) : Expr σ α).HasSize
      (fun i => (env i).extent) ⟨1, weights.size⟩ := .transpose (.const _)
  refine ⟨.product hrow he.size ?_, ?_⟩
  · simp [productExtent?, sizeIf, Extent.unit, hn]
  · intro k hk
    obtain rfl : k = 0 := by omega
    have hextent : (Matrix.column weights).transpose.extent = ⟨1, weights.size⟩ := rfl
    rw [eval, eval, eval, Matrix.get_product hn hextent he.extent_eval, Collocation.weightedSum]
    refine congrArg Number.sum (List.map_congr_left ?_)
    intro i hi
    rw [List.mem_range] at hi
    rw [Matrix.get_transpose rfl hi, he.get i hi, Matrix.get_column]

end Expr.IsColumn

open Extended Finset

variable {K : Type} [Field K] [LinearOrder K] [FloorRing K] [Interpretation K]
  {p : Problem (Extended K)} {points weights : Array (Extended K)}
  {env : Kind → Matrix (Extended K)} {s : Scheme (Extended K)}

namespace Ready

/-! ## The integral -/

/-- The integrand at a grid point, where its value is known. -/
theorem isSlope_integrand (hs : Ready p points env s) {f : PointFunction (Extended K)}
    (hf : p.integrandFunction = .ok f) {i : Nat} (hi : i < points.size) {y : Extended K}
    (hvalue : f.evaluate (pointValues points env i) = .ok [.unit y]) {e : Sized Kind (Extended K)}
    (he : s.callAt f i = .ok e) : e.expr.IsSlope env 1 fun _ => y := by
  obtain ⟨hsound, hinputs⟩ := Problem.integrandFunction_sound hf
  have hfits := hs.pointValues_fit hinputs i
  have hbody : f.body.eval (pointValues points env i) = .unit y := by
    rw [Function.evaluate_of_fits hfits, Except.ok.injEq, List.cons.injEq] at hvalue
    exact hvalue.1
  -- its one value is a single number, so the function gives single numbers
  have hextent : f.extent = ⟨1, 1⟩ := by
    rw [← hsound.size.extent_eval hfits, hbody]
    rfl
  have hslope := hs.isSlope_of_callAt hsound hinputs hextent hi he
  rw [hbody] at hslope
  constructor
  · apply hslope.toIsColumn.congr
    intro r hr
    obtain rfl : r = 0 := by omega
    rfl
  · intro hv r hr
    obtain rfl : r = 0 := by omega
    exact hslope.vanishing hv 0 hr

variable {f : PointFunction (Extended K)} {weight value : Nat → K} {d : K}
  {values : List (Sized Kind (Extended K))}

/-- The integrand at all grid points. -/
theorem isSlope_integrands (hs : Ready p points env s) (hf : p.integrandFunction = .ok f)
    (hvalues : ∀ k < points.size,
      f.evaluate (pointValues points env k) = .ok [.unit (finite (value k))])
    (h : (List.range s.gridPoints).mapM (fun (i : Nat) => s.callAt f i) = .ok values) :
    values.length = points.size ∧ ∀ k (hk : k < values.length),
      values[k].expr.IsSlope env 1 fun _ => finite (value k) := by
  obtain ⟨hlength, hcalls⟩ := mapM_range_eq_ok h
  rw [hs.gridPoints] at hlength
  refine ⟨hlength, ?_⟩
  intro k hk
  exact hs.isSlope_integrand hf (hlength ▸ hk) (hvalues k (hlength ▸ hk)) (hcalls k hk)

/-- The duration times the weighted sum of the integrand. -/
theorem integral_isColumn (hs : Ready p points env s) (hsize : weights.size = points.size)
    (hweights : ∀ k < points.size, weights.getD k default = finite (weight k))
    (hlength : values.length = points.size)
    (hslope : ∀ k (hk : k < values.length),
      values[k].expr.IsSlope env 1 fun _ => finite (value k))
    (hd : durationBetween env = finite d) :
    (s.durationOf * Expr.product (.transpose (.const (.column weights)))
        (.stacked (values.map (·.expr)))).IsColumn env 1
      fun _ => finite (d * ∑ k ∈ range points.size, weight k * value k) := by
  have hstacked : (Expr.stacked (values.map (·.expr))).IsColumn env (values.map (·.expr)).length
      fun k => finite (value k) := by
    refine .stacked ?_
    intro k hk
    rw [List.getElem_map]
    exact (hslope k (by simpa using hk)).toIsColumn
  rw [List.length_map, hlength, ← hsize] at hstacked
  have hwide : weights.size ≠ 1 := by
    have htwo := hs.two_le
    omega
  apply (hs.durationOf_isColumn.zip .mul (hstacked.weightedSum hwide)).congr
  intro _ _
  show durationBetween env * weightedSum weights (fun k => finite (value k)) = _
  rw [hd, weightedSum_finite hsize hweights fun _ _ => rfl, finite_mul]

/-- The integral is left out only where it is zero. -/
theorem sum_eq_zero (hsize : weights.size = points.size)
    (hweights : ∀ k < points.size, weights.getD k default = finite (weight k))
    (hlength : values.length = points.size)
    (hslope : ∀ k (hk : k < values.length),
      values[k].expr.IsSlope env 1 fun _ => finite (value k))
    (h : (weights.all Number.isZero || values.all (·.expr.vanishes)) = true) :
    ∑ k ∈ range points.size, weight k * value k = 0 := by
  apply Finset.sum_eq_zero
  intro k hk
  rw [mem_range] at hk
  rcases Bool.or_eq_true_iff.mp h with hzero | hvanishes
  · -- all weights are zero
    have hk' : k < weights.size := by omega
    have hget := Array.all_eq_true.mp hzero k hk'
    have hweight := hweights k hk
    rw [isZero_iff] at hget
    rw [Array.getD_eq_getD_getElem?, Array.getElem?_eq_getElem hk', Option.getD_some,
      hget] at hweight
    rw [← Extended.finite.inj hweight, zero_mul]
  · -- the integrand vanishes
    have hk' : k < values.length := by omega
    have hget := List.all_eq_true.mp hvanishes values[k] (List.getElem_mem hk')
    have hvalue := (hslope k hk').vanishing hget 0 Nat.one_pos
    rw [Extended.finite.inj hvalue, mul_zero]

/-! ## The whole objective -/

/-- The objective of a scheme whose integrand is finite at the grid points: the costs at the ends,
    each with the integral added to it. -/
theorem costExpr_eq_ok (hs : Ready p points env s) (hsize : weights.size = points.size)
    (hweights : ∀ k < points.size, weights.getD k default = finite (weight k))
    (hf : p.integrandFunction = .ok f)
    (hvalues : ∀ k < points.size,
      f.evaluate (pointValues points env k) = .ok [.unit (finite (value k))])
    (hd : durationBetween env = finite d) {objective : Expr Kind (Extended K)}
    (h : s.costExpr p weights = .ok objective) :
    ∃ ends E, p.endpointCostFunction = .ok ends ∧
      ends.evaluate (endValues env (points.size - 1)) = .ok [E] ∧
      objective.eval env =
        E.map (finite (d * ∑ k ∈ range points.size, weight k * value k) + ·) := by
  obtain ⟨f', hf', h₁⟩ := bind_eq_ok h
  cases hf.symm.trans hf'
  obtain ⟨values, hmap, h₂⟩ := bind_eq_ok h₁
  obtain ⟨integral, hintegral, h₃⟩ := bind_eq_ok h₂
  obtain ⟨ends, hends, h₄⟩ := bind_eq_ok h₃
  obtain ⟨args, hargs, h₅⟩ := bind_eq_ok h₄
  obtain ⟨cost, hcost, h₆⟩ := bind_eq_ok h₅
  obtain ⟨sum, hsum, h₇⟩ := bind_eq_ok h₆
  obtain ⟨hlength, hslope⟩ := hs.isSlope_integrands hf hvalues hmap
  have hcolumn := hs.integral_isColumn hsize hweights hlength hslope hd
  cases hintegral.symm.trans (Scheme.ofExpr_of_hasSize hcolumn.size)
  -- the costs at the ends
  obtain ⟨hsound, hinputs⟩ := Problem.endpointCostFunction_sound hends
  have hcall := hs.isCall_of_endpointCall hsound hinputs hargs hcost
  refine ⟨ends, _, hends, Function.evaluate_of_fits (hs.endValues_fit hinputs), ?_⟩
  rw [← hcall.eval]
  -- a single number is added to each of them
  have hsumSize := hcolumn.size.zip_unit_left .add hcall.size
  cases hsum.symm.trans (Scheme.ofExpr_of_hasSize hsumSize)
  by_cases hnone : (weights.all Number.isZero || values.all (·.expr.vanishes)) = true
  · rw [if_pos hnone] at h₇
    cases h₇
    have hspread : cost.spread cost.extent = cost := by
      unfold Sized.spread
      rw [if_pos rfl]
    rw [hspread, sum_eq_zero hsize hweights hlength hslope hnone, mul_zero]
    exact Matrix.ext rfl (by simp [Matrix.map, finite_zero_add])
  · rw [if_neg hnone] at h₇
    cases h₇
    show Matrix.zip _ _ _ = _
    rw [Matrix.zip_eq_map hcolumn.extent_eval, hcolumn.get 0 Nat.one_pos]
    rfl

end Ready
end Collocation
