import Collocation.Proofs.Comparison
import Collocation.Proofs.Mesh
import Collocation.Proofs.Scheme.Phases

/-! # Valid grids

  The checks of meshes and grids ask whether some difference is at most zero and look at the first
  and the last point. If no point is undefined, that is as good as comparing neighbours and
  looking at every point: what passes climbs strictly within the unit interval, and what does not
  is refused. -/

namespace Collocation

variable {α : Type} [Number α]

/-- No point is undefined. -/
def AllDefined (points : Array α) : Prop := ∀ x ∈ points, Number.isUndefined x = false

/-- There are points, each lies above the one before it, and all lie between zero and one. -/
structure ValidGrid (points : Array α) : Prop where
  pos : 1 ≤ points.size
  increases : ∀ i, i + 1 < points.size →
    Number.below (points.getD i default) (points.getD (i + 1) default)
  unit : ∀ i < points.size, Number.atMost Number.zero (points.getD i default) ∧
    Number.atMost (points.getD i default) Number.one

/-- A valid grid of at least two points from zero to one. -/
structure ValidMesh (points : Array α) : Prop extends ValidGrid points where
  two_le : 2 ≤ points.size
  first : Number.equal (points.getD 0 default) Number.zero
  last : Number.equal (points.getD (points.size - 1) default) Number.one

variable {points : Array α}

instance (points : Array α) : Decidable (AllDefined points) :=
  inferInstanceAs (Decidable (∀ x ∈ points, Number.isUndefined x = false))

theorem AllDefined.getD (h : AllDefined points) {i : Nat} (hi : i < points.size) :
    Number.isUndefined (points.getD i default) = false := by
  simpa [Array.getD, hi] using h points[i] (Array.getElem_mem hi)

/-! ## Comparisons -/

section Comparison

variable [LawfulDifference α] {x y : α}

theorem atMost_zero_one : Number.atMost (Number.zero : α) Number.one :=
  LawfulComparison.atMost_ofInt_ofInt (by decide)

theorem below_of_not_atMost (hx : Number.isUndefined x = false) (hy : Number.isUndefined y = false)
    (h : Number.atMost y x = false) : Number.below x y := by
  by_contra hbelow
  have hyx := LawfulComparison.atMost_of_not_below hy hx (Bool.not_eq_true _ ▸ hbelow)
  rw [hyx] at h
  cases h

omit [LawfulDifference α] in
theorem atMost_of_equal (h : Number.equal x y) : Number.atMost x y := by
  rw [Number.atMost, h, Bool.or_true]

/-- A number equal to another is not below it. -/
theorem not_below_of_equal (h : Number.equal x y) :
    Number.below x y = false ∧ Number.below y x = false :=
  ⟨LawfulComparison.not_below_of_atMost (atMost_of_equal (LawfulDifference.equal_symm h)),
    LawfulComparison.not_below_of_atMost (atMost_of_equal h)⟩

end Comparison

/-! ## What the checks amount to -/

section Checks

variable [LawfulDifference α]

/-- Without a descent every point is at most the next one. -/
theorem atMost_next (hdefined : AllDefined points) (hdescent : hasDescent points = false) {i : Nat}
    (hi : i + 1 < points.size) :
    Number.atMost (points.getD i default) (points.getD (i + 1) default) := by
  apply LawfulComparison.atMost_of_not_below (hdefined.getD (by omega)) (hdefined.getD hi)
  by_contra hbelow
  have hstep := LawfulDifference.sub_atMost_zero (Bool.not_eq_false _ ▸ hbelow)
  rw [step_of_hasDescent hdescent hi] at hstep
  cases hstep

/-- Without a descent every point is at least the first one. -/
theorem atMost_of_first {low : α} (hdefined : AllDefined points)
    (hdescent : hasDescent points = false) (hfirst : Number.atMost low (points.getD 0 default)) :
    ∀ i < points.size, Number.atMost low (points.getD i default) := by
  intro i
  induction i with
  | zero =>
    intro _
    exact hfirst
  | succ i ih =>
    intro hi
    exact LawfulDifference.atMost_trans (ih (by omega)) (atMost_next hdefined hdescent hi)

/-- Without a descent every point is at most the last one. -/
theorem atMost_of_last {high : α} (hdefined : AllDefined points)
    (hdescent : hasDescent points = false)
    (hlast : Number.atMost (points.getD (points.size - 1) default) high) :
    ∀ i < points.size, Number.atMost (points.getD i default) high := by
  -- from the end downwards
  have hback : ∀ k < points.size,
      Number.atMost (points.getD (points.size - 1 - k) default) high := by
    intro k
    induction k with
    | zero =>
      intro _
      exact hlast
    | succ k ih =>
      intro hk
      have hnext := atMost_next hdefined hdescent (i := points.size - 1 - (k + 1)) (by omega)
      rw [show points.size - 1 - (k + 1) + 1 = points.size - 1 - k by omega] at hnext
      exact LawfulDifference.atMost_trans hnext (ih (by omega))
  intro i hi
  have h := hback (points.size - 1 - i) (by omega)
  rwa [show points.size - 1 - (points.size - 1 - i) = i by omega] at h

/-- The check of a grid accepts the valid ones. -/
theorem validGrid_iff (hdefined : AllDefined points) : ValidGrid points ↔
    0 < points.size ∧ hasDescent points = false ∧
      Number.below (points.getD 0 default) Number.zero = false ∧
      Number.below Number.one (points.getD (points.size - 1) default) = false := by
  have hbounds := LawfulComparison.defined_of_atMost (atMost_zero_one (α := α))
  constructor
  · intro h
    have hpos := h.pos
    refine ⟨hpos, hasDescent_eq_false_iff.mpr fun i hi => ?_,
      LawfulComparison.not_below_of_atMost (h.unit 0 hpos).1,
      LawfulComparison.not_below_of_atMost (h.unit _ (by omega)).2⟩
    have hthis := h.unit i (by omega)
    have hnext := h.unit (i + 1) hi
    by_contra hstep
    have hback := (LawfulDifference.sub_atMost_zero_iff hnext.1 hnext.2 hthis.1 hthis.2).mp
      (Bool.not_eq_false _ ▸ hstep)
    have hbelow := LawfulComparison.not_below_of_atMost hback
    rw [h.increases i hi] at hbelow
    cases hbelow
  · rintro ⟨hpos, hdescent, hfirst, hlast⟩
    have hlow := atMost_of_first hdefined hdescent
      (LawfulComparison.atMost_of_not_below hbounds.1 (hdefined.getD hpos) hfirst)
    have hhigh := atMost_of_last hdefined hdescent
      (LawfulComparison.atMost_of_not_below (hdefined.getD (by omega)) hbounds.2 hlast)
    refine ⟨hpos, fun i hi => ?_, fun i hi => ⟨hlow i hi, hhigh i hi⟩⟩
    -- in the unit interval no difference is lost
    apply below_of_not_atMost (hdefined.getD (by omega)) (hdefined.getD hi)
    have hthis : i < points.size := by omega
    have hiff := LawfulDifference.sub_atMost_zero_iff (hlow (i + 1) hi) (hhigh (i + 1) hi)
      (hlow i hthis) (hhigh i hthis)
    rw [step_of_hasDescent hdescent hi] at hiff
    exact Bool.eq_false_iff.mpr fun hback => Bool.false_ne_true (hiff.mpr hback)

/-- The points of a mesh are accepted exactly if they are valid. -/
theorem Mesh.ofPoints_eq_ok_iff (hdefined : AllDefined points) {mesh : Array α} :
    Mesh.ofPoints points = .ok mesh ↔ mesh = points ∧ ValidMesh points := by
  unfold Mesh.ofPoints
  constructor
  · intro h
    split_ifs at h with hfew hrefused
    cases h
    simp only [Bool.or_eq_true, Bool.not_eq_true', not_or, Bool.not_eq_false,
      Bool.not_eq_true] at hrefused
    obtain ⟨⟨hfirst, hlast⟩, hdescent⟩ := hrefused
    have hvalid : ValidGrid points := (validGrid_iff hdefined).mpr
      ⟨by omega, hdescent, (not_below_of_equal hfirst).1, (not_below_of_equal hlast).2⟩
    exact ⟨rfl, hvalid, by omega, hfirst, hlast⟩
  · rintro ⟨rfl, h⟩
    have hdescent := ((validGrid_iff hdefined).mp h.toValidGrid).2.1
    have htwo := h.two_le
    rw [if_neg (by omega), h.first, h.last, hdescent]
    rfl

end Checks

/-- Points are refused as a mesh for their values. -/
theorem Mesh.category_of_ofPoints {fault : Fault α} (h : Mesh.ofPoints points = .error fault) :
    fault.category = .value := by
  unfold Mesh.ofPoints at h
  split_ifs at h
  · cases h
    rfl
  · cases h
    rfl

namespace Scheme

variable {s : Scheme α} {p : Problem α}

/-- No point of the grid is undefined. -/
def GridDefined (s : Scheme α) : Prop := ∀ points, s.gridVector = .ok points → AllDefined points

theorem gridDefined_of_gridVector (h : s.gridVector = .ok points) (hdefined : AllDefined points) :
    s.GridDefined := by
  intro points' h'
  cases h.symm.trans h'
  exact hdefined

/-- The grid has as many points as are declared, and it is valid. -/
def HasValidGrid (s : Scheme α) : Prop :=
  ∃ points, s.gridVector = .ok points ∧ points.size = s.gridPoints ∧ ValidGrid points

theorem gridVector_eq_ok_iff :
    s.gridVector = .ok points ↔ s.grid.map Tensor.written = some points := by
  unfold gridVector
  cases s.grid <;> simp

/-- A grid is accepted exactly if it is valid. -/
theorem hasValidGrid_iff [LawfulDifference α] (hdefined : s.GridDefined) :
    s.HasValidGrid ↔ ∃ points, s.checkedGrid = .ok points := by
  constructor
  · rintro ⟨points, hgrid, hsize, hvalid⟩
    obtain ⟨hpos, hrest⟩ := (validGrid_iff (hdefined points hgrid)).mp hvalid
    exact ⟨points, checkedGrid_eq_ok_iff.mpr ⟨gridVector_eq_ok_iff.mp hgrid, hsize, hpos, hrest⟩⟩
  · rintro ⟨points, h⟩
    obtain ⟨hwritten, hsize, hrest⟩ := checkedGrid_eq_ok_iff.mp h
    have hgrid := gridVector_eq_ok_iff.mpr hwritten
    exact ⟨points, hgrid, hsize, (validGrid_iff (hdefined points hgrid)).mpr hrest⟩

/-- A grid is refused as a broken precondition, but for an empty one: its first point is asked
    for. -/
theorem category_of_checkedGrid {fault : Fault α} (h : s.checkedGrid = .error fault) :
    fault.category = .contract ∨
      fault.category = .index ∧ s.gridVector = .ok #[] ∧ s.gridPoints = 0 := by
  unfold checkedGrid at h
  cases hgrid : s.grid with
  | none =>
    rw [hgrid] at h
    cases h
    exact .inl rfl
  | some grid =>
    rw [hgrid] at h
    simp only at h
    split_ifs at h with hsize hempty hrefused
    · cases h
      exact .inl rfl
    · cases h
      have hpoints : grid.written = #[] := by simpa using hempty
      refine .inr ⟨rfl, gridVector_eq_ok_iff.mpr (by rw [hgrid, Option.map_some, hpoints]), ?_⟩
      rw [← not_not.mp hsize, hpoints]
      rfl
    · cases h
      exact .inl rfl

/-- Nothing is written to a scheme whose grid is refused. -/
theorem transcribe_of_checkedGrid {fault : Fault α} (hs : s.transcribed = false)
    (h : s.checkedGrid = .error fault) : transcribe p s = .error fault s := by
  have hprepare : prepare p s = .error fault s := by
    unfold prepare
    rw [run_get_bind, if_neg (by simp [hs]), h]
    rfl
  exact run_error_bind hprepare

end Scheme
end Collocation
