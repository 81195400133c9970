import Collocation.Proofs.Expression.RuleValues
import Collocation.Proofs.Problem

/-! # Values of costs

  What the costs of a problem are worth at given values of their inputs: the components of each are
  added up, the sum is multiplied by the weight of the cost, and the products are added up, of
  which there may be none. The function that the costs become gives this number wherever it is
  finite, although it is built of simplified expressions. -/

namespace Collocation

section Worth

variable {ι α : Type} [Number α] [Inputs ι] [DecidableEq ι]

/-- The sum of the components of a cost, times its weight, which must be a single number. -/
def Cost.worth? (c : Cost α) (v : ι → Matrix α) : Option α :=
  match Function.columnOf (fun i => (v i).extent) c.body, Problem.readWeight c.weight with
  | .ok column, .ok weight =>
    if weight.extent = .unit then
      some (weight.get 0 * Number.sum (column.expr.eval v).elements)
    else none
  | _, _ => none

/-- The sum of what the costs are worth, from the first to the last. -/
def worth? (costs : List (Cost α)) (v : ι → Matrix α) : Option α :=
  (costs.mapM (Cost.worth? · v)).map Number.sum

end Worth

open Extended

variable {ι K : Type} [Field K] [LinearOrder K] [FloorRing K] [Interpretation K]

/-! ## Sums of rows -/

namespace Matrix

variable {α : Type} [Number α] {a : Matrix α}

theorem toList_columnArray {n : Nat} (ha : a.extent = ⟨n, 1⟩) :
    (a.columnArray 0).toList = a.elements := by
  have hrows : a.rows = a.extent.size := by rw [rows, ha, Extent.size_column]
  apply List.ext_getElem?
  intro k
  by_cases hk : k < a.extent.size
  · rw [getElem?_elements hk]
    simp [columnArray, hrows, hk]
  · rw [List.getElem?_eq_none, List.getElem?_eq_none]
    · rw [length_elements]
      omega
    · simp only [columnArray, Array.length_toList, Array.size_ofFn]
      omega

/-- The sum of all rows of a column is the sum of its elements. -/
theorem get_sumRows {n : Nat} (ha : a.extent = ⟨n, 1⟩) :
    a.sumRows.get 0 = Number.sum a.elements := by
  have hpos : 0 < Extent.size ⟨1, a.cols⟩ := by simp [cols, ha]
  unfold sumRows
  rw [ofFn, get_ofColumnMajor _ _ hpos, Nat.zero_div, toList_columnArray ha]

end Matrix

variable {v : ι → Matrix (Extended K)}

/-- The sum of a column that an expression is. -/
theorem Sized.value_sumRows {a : Sized ι (Extended K)} (ha : a.Sound fun i => (v i).extent)
    (hcols : a.extent.cols = 1) :
    a.sumRows.Single v ∧ a.sumRows.value v = Number.sum (a.expr.eval v).elements := by
  have hextent : (a.expr.eval v).extent = a.extent := ha.size.extent_eval fun _ => rfl
  have hcolumn : a.extent = ⟨a.extent.rows, 1⟩ := by rw [← hcols]
  have hsound := ha.sumRows
  unfold Sized.sumRows at hsound ⊢
  simp only at hsound ⊢
  by_cases hone : a.extent.rows = 1
  · -- a single element is its own sum
    rw [if_pos hone] at hsound ⊢
    have hunit : a.extent = .unit := by rw [hcolumn, hone, Extent.unit]
    have hsingle : a.Single v := ⟨hsound, .inl hunit⟩
    refine ⟨hsingle, ?_⟩
    rw [hsingle.eval_eq]
    show a.value v = Number.zero + a.value v
    rw [zero_eq, finite_zero_add]
  rw [if_neg hone] at hsound ⊢
  by_cases hzero : a.extent.rows = 0
  · rw [if_pos hzero, hcols] at hsound ⊢
    refine ⟨⟨hsound, .inl rfl⟩, ?_⟩
    have hnone : (a.expr.eval v).elements = [] := by
      rw [← List.length_eq_zero_iff, Matrix.length_elements, hextent, Extent.size, hzero, zero_mul]
    rw [hnone]
    exact value_hollow.trans zero_eq.symm
  rw [if_neg hzero] at hsound ⊢
  cases hm : a.expr.matrix? with
  | some m =>
    rw [hm] at hsound
    have hm' : m.extent = ⟨a.extent.rows, 1⟩ :=
      (Expr.extent_of_matrix? ha.size hm).trans hcolumn
    have hsum : m.sumRows.extent = .unit := by
      unfold Matrix.sumRows
      rw [Matrix.extent_ofFn, Matrix.cols, hm', Extent.unit]
    refine ⟨⟨hsound, .inl hsum⟩, ?_⟩
    rw [Expr.eval_of_matrix? hm]
    exact (value_ofMatrix hsum).trans (Matrix.get_sumRows hm')
  | none =>
    rw [hm] at hsound
    refine ⟨⟨hsound, .inl (by rw [hcols, Extent.unit])⟩, ?_⟩
    exact Matrix.get_sumRows (hextent.trans hcolumn)

/-! ## Sums of costs -/

theorem isConst_ofMatrix (m : Matrix (Extended K)) :
    (Sized.ofMatrix m : Sized ι (Extended K)).expr.isConst := by
  unfold Sized.ofMatrix Expr.ofMatrix
  cases m.uniform? <;> rfl

/-- What is added up to a finite number was finite before. -/
theorem finite_of_foldl {ys : List (Extended K)} {y : Extended K} {z : K}
    (h : ys.foldl (· + ·) y = finite z) : ∃ x, y = finite x := by
  induction ys generalizing y with
  | nil => exact ⟨z, h⟩
  | cons x ys ih =>
    obtain ⟨_, hsum⟩ := ih h
    obtain ⟨w, _, hw, -⟩ := add_eq_finite hsum
    exact ⟨w, hw⟩

variable [Inputs ι] [DecidableEq ι]

namespace Problem

theorem value_costTerm (hcircle : Circular K) {c : Cost (Extended K)} {e : Sized ι (Extended K)}
    {z : K} (h : costTerm (fun i => (v i).extent) c = .ok e)
    (hworth : c.worth? v = some (finite z)) :
    e.Single v ∧ e.value v = finite z := by
  obtain ⟨column, hcolumn, h⟩ := bind_eq_ok h
  obtain ⟨weight, hweight, h⟩ := bind_eq_ok h
  cases h
  unfold Cost.worth? at hworth
  rw [hcolumn, hweight] at hworth
  simp only at hworth
  split_ifs at hworth with hunit
  obtain ⟨hsound, hcols⟩ := Function.columnOf_sound hcolumn
  obtain ⟨hsum, hsumValue⟩ := Sized.value_sumRows hsound hcols
  have hfactor : (Sized.ofMatrix weight : Sized ι (Extended K)).Single v :=
    ⟨Sized.sound_ofMatrix _, .inl hunit⟩
  apply Sized.value_zip (f := .mul) hcircle hfactor hsum (isConst_ofMatrix weight)
  rw [Sized.value_ofMatrix hunit, hsumValue]
  exact Option.some.inj hworth

theorem value_costSum (hcircle : Circular K) {costs : List (Cost (Extended K))}
    {e : Sized ι (Extended K)} {z : K} (h : costSum (fun i => (v i).extent) costs = .ok e)
    (hworth : worth? costs v = some (finite z)) : e.Single v ∧ e.value v = finite z := by
  obtain ⟨ys, hys, hsum⟩ := Option.map_eq_some_iff.mp hworth
  clear hworth
  unfold costSum at h
  unfold Number.sum at hsum
  -- the sum so far, which starts at zero, is a single number
  have hstart : (Sized.number Number.zero : Sized ι (Extended K)).Single v :=
    ⟨Sized.sound_constant _ _, .inl rfl⟩
  have hzero : (Sized.number Number.zero : Sized ι (Extended K)).value v = Number.zero :=
    Sized.value_constant _
  generalize (Sized.number Number.zero : Sized ι (Extended K)) = acc at h hstart hzero
  generalize (Number.zero : Extended K) = y at hsum hzero
  induction costs generalizing acc y ys with
  | nil =>
    cases h
    cases hys
    exact ⟨hstart, hzero.trans hsum⟩
  | cons c costs ih =>
    rw [List.mapM_cons] at hys
    obtain ⟨w, hw, hys⟩ := Option.bind_eq_some_iff.mp hys
    obtain ⟨ys', hys', hcons⟩ := Option.bind_eq_some_iff.mp hys
    cases hcons
    rw [List.foldlM_cons] at h
    obtain ⟨acc', hacc, h⟩ := bind_eq_ok h
    obtain ⟨term, hterm, hacc⟩ := bind_eq_ok hacc
    -- the sum up to this cost is finite, since the whole sum is
    rw [List.foldl_cons] at hsum
    obtain ⟨x, hx⟩ := finite_of_foldl hsum
    obtain ⟨_, w', -, rfl, -⟩ := add_eq_finite hx
    obtain ⟨hsingle, hvalue⟩ := value_costTerm hcircle hterm hw
    have hzip : Sized.zip? .add acc term = some (Sized.zip .add acc term) := by
      unfold Sized.zip?
      simp only
      rw [if_pos (.inl (hstart.unit_eq.trans hsingle.unit_eq.symm))]
    cases (Term.fitting_eq_ok hacc).symm.trans hzip
    obtain ⟨hsingle', hvalue'⟩ := Sized.value_zip (f := .add) hcircle hstart hsingle trivial
      (show acc.value v + term.value v = finite x by rw [hzero, hvalue, hx])
    exact ih ys' hys' _ h hsingle' _ hsum (hvalue'.trans hx.symm)

variable {p : Problem (Extended K)}

/-- The integrand at values for which its costs have a finite sum. -/
theorem evaluate_integrandFunction (hcircle : Circular K) {f : PointFunction (Extended K)}
    {v : PointInput → Matrix (Extended K)} {z : K}
    (hinputs : p.pointInputs = .ok fun i => (v i).extent) (h : p.integrandFunction = .ok f)
    (hworth : worth? p.integralCosts v = some (finite z)) :
    f.evaluate v = .ok [.unit (finite z)] := by
  obtain ⟨inputs, hinputs', h⟩ := bind_eq_ok h
  cases hinputs.symm.trans hinputs'
  obtain ⟨e, he, h⟩ := bind_eq_ok h
  obtain ⟨hsingle, hvalue⟩ := value_costSum hcircle he hworth
  cases Function.make_eq_ok h
  rw [Function.evaluate_of_fits fun _ => rfl, ← hvalue, ← hsingle.eval_eq]

/-- The costs at the two ends, where they have a finite sum. -/
theorem evaluate_endpointCostFunction (hcircle : Circular K) {f : EndpointFunction (Extended K)}
    {v : EndpointInput → Matrix (Extended K)} {z : K}
    (hinputs : p.endpointInputs = fun i => (v i).extent) (h : p.endpointCostFunction = .ok f)
    (hworth : worth? p.endpointCosts v = some (finite z)) :
    f.evaluate v = .ok [.unit (finite z)] := by
  obtain ⟨e, he, h⟩ := bind_eq_ok h
  rw [hinputs] at he
  obtain ⟨hsingle, hvalue⟩ := value_costSum hcircle he hworth
  cases Function.make_eq_ok h
  rw [Function.evaluate_of_fits fun i => by rw [hinputs], ← hvalue, ← hsingle.eval_eq]

end Problem
end Collocation
