import Collocation.Proofs.Mesh
import Collocation.Proofs.Scheme.Defects

/-! # Decision vectors

  What a transcribed scheme says about a decision vector, in terms of the matrices that the vector
  is cut into. A fresh scheme, once prepared, is ready for finite values of its variables. -/

namespace Collocation

open Extended

section Vectors

variable {α : Type} [Number α] {s : Scheme α} {x : Array α}

/-- The values of the decision variables in a decision vector. -/
def Scheme.valuesOf (s : Scheme α) (x : Array α) : Kind → Matrix α :=
  (Layout.cut s.extents x).values

theorem Scheme.expand_eq (hx : x.size = Layout.length s.extents) :
    s.expand x = .ok (Layout.cut s.extents x) := by
  unfold expand Layout.expand
  rw [if_pos hx]

theorem Scheme.extents_eq {Γ : Kind → Extent} (h : s.extents = .full Γ) :
    s.extents = .full fun k => (s.valuesOf x k).extent := by
  rw [h]
  congr 1
  funext k
  simp [valuesOf, Table.values, Layout.cut, h]

omit [Number α] in
/-- A scheme with all its variables has those that an expression may ask for. -/
theorem Scheme.checkSymbols_eq {Γ : Kind → Extent} (h : s.extents = .full Γ)
    (es : List (Expr Kind α)) : s.checkSymbols es = .ok () := by
  unfold checkSymbols
  rw [if_pos]
  simp [h, Table.contains]

theorem Scheme.environments_eq (hx : x.size = Layout.length s.extents) :
    s.environments (.column x) = .ok [s.valuesOf x] := by
  have hfit : (Matrix.column x).fit? ⟨Layout.length s.extents, 1⟩ = some [.column x] := by
    unfold Matrix.fit?
    rw [if_pos]
    rw [← hx]
    rfl
  unfold environments
  rw [hfit]
  rfl

/-- An expression has a value at every decision vector. -/
theorem Scheme.evaluate_eq {Γ : Kind → Extent} (h : s.extents = .full Γ)
    (hx : x.size = Layout.length s.extents) (e : Expr Kind α) :
    s.evaluate e (.column x) = .ok (e.eval (s.valuesOf x)).data := by
  unfold evaluate
  rw [checkSymbols_eq h, environments_eq hx]
  simp [bind, Except.bind, pure, Except.pure]

/-- The constraints of a scheme with all its variables have a value at every decision vector. -/
theorem Scheme.evaluateConstraints_eq {Γ : Kind → Extent} (h : s.extents = .full Γ)
    (hx : x.size = Layout.length s.extents) :
    s.evaluateConstraints (.column x) = .ok (s.constraintValues (s.valuesOf x)) := by
  unfold evaluateConstraints
  rw [checkSymbols_eq h, environments_eq hx]
  simp [bind, Except.bind, pure, Except.pure]

/-- What was added to a scheme without constraints is what the closed scheme says about a decision
    vector. -/
theorem Scheme.Adds.closed {s₁ s₂ : Scheme α} {n : Nat} {P : Prop} {Γ : Kind → Extent}
    (hadds : Adds (s₁.valuesOf x) (Block.Holds (s₁.valuesOf x)) s₁ s₂ n P)
    (hempty : s₁.blocks = []) (h : s₁.extents = .full Γ)
    (hx : x.size = Layout.length s₁.extents) (hs : s = { s₂ with transcribed := true }) :
    ∃ g v, s.evaluateConstraints (.column x) = .ok g ∧ s.expand x = .ok v ∧
      v.values = s₁.valuesOf x ∧ (Within s.constraintLower s.constraintUpper g ↔ P) ∧
      s.equationCount = n ∧ g.size = n := by
  have hwithin := hadds.within hempty
  have hcount := hadds.equationCount hempty
  have hvalues := hadds.size_values hempty
  have hextents : s.extents = s₁.extents := by
    obtain ⟨bs, rfl, -⟩ := hadds
    rw [hs]
  have hvaluesOf : s.valuesOf x = s₁.valuesOf x := by rw [valuesOf, hextents, valuesOf]
  subst hs
  refine ⟨_, _, evaluateConstraints_eq (hextents.trans h) (hextents ▸ hx),
    expand_eq (hextents ▸ hx), hvaluesOf, ?_, hcount, ?_⟩
  · rw [hvaluesOf]
    exact hwithin
  · rw [hvaluesOf]
    exact hvalues

end Vectors

variable {K : Type} [Field K] [LinearOrder K] [FloorRing K] [Interpretation K]
  {p : Problem (Extended K)} {points : Array (Extended K)} {rule : Rule (Extended K)}
  {s s' : Scheme (Extended K)}

theorem getD_map_finite (x : Array K) (i : Nat) :
    (x.map finite).getD i default = (finite (x.getD i 0) : Extended K) := by
  by_cases hi : i < x.size
  · simp [hi]
  · simp [hi]

/-- A finite decision vector gives finite values. -/
theorem finite_valuesOf (s : Scheme (Extended K)) (x : Array K) (k : Kind) (q : Nat) :
    ∃ y, (s.valuesOf (x.map finite) k).get q = finite y := by
  simp only [Scheme.valuesOf, Table.values, Layout.cut, Table.find?_map]
  cases s.extents.find? k with
  | none => exact ⟨0, by simp [Matrix.get, Matrix.column]⟩
  | some extent =>
    simp only [Option.map_some, Option.getD_some]
    by_cases hq : q < extent.size
    · rw [Matrix.get_ofColumnMajor _ _ hq]
      exact ⟨_, getD_map_finite x _⟩
    · exact ⟨0, by simp [Matrix.get, Matrix.ofColumnMajor, hq]⟩

/-- A scheme between its preparation and its first constraint. -/
structure Scheme.Prepared {α : Type} [Number α] (rule : Rule α) (p : Problem α)
    (s : Scheme α) : Prop where
  rule : s.rule = rule
  blocks : s.blocks = []
  dynamics : s.dynamics = none
  mask : ∃ mask, s.mask = some mask ∧ s.kinematicMask = .ok mask
  objective : ∃ weights, s.quadratureWeights = .ok weights ∧ s.costExpr p weights = .ok s.objective

theorem Scheme.Fresh.prepared {α : Type} [Number α] {rule : Rule α} {points : Array α}
    {p : Problem α} {s s' : Scheme α} (hs : s.Fresh rule points p)
    (h : prepare p s = .ok () s') : s'.Prepared rule p ∧ s'.extents = s.extents := by
  obtain ⟨d, hd, rfl⟩ := prepare_eq_ok_iff.mp h
  exact ⟨⟨hs.rule, hs.blocks, hs.dynamics, ⟨d.mask, rfl, hd.mask⟩,
    ⟨d.weights, hd.weights, hd.objective⟩⟩, rfl⟩

/-- What the time law of a scheme with all its variables is made of, and that it fits together. -/
theorem Scheme.times_eq (hextents : extentsFor p points.size = .ok s.extents)
    (hsize : 0 < points.size) :
    s.wholeOf .initialTime = .ok (.symbol .initialTime .unit) ∧
      s.wholeOf .finalTime = .ok (.symbol .finalTime .unit) ∧
      Sized.ofExpr (.symbol .finalTime .unit - .symbol .initialTime .unit) =
        .ok (⟨.symbol .finalTime .unit - .symbol .initialTime .unit, .unit⟩ :
          Sized Kind (Extended K)) ∧
      Sized.ofExpr
          (timesExpr points (.symbol .initialTime .unit) (.symbol .finalTime .unit)) =
        .ok (⟨timesExpr points (.symbol .initialTime .unit) (.symbol .finalTime .unit),
          ⟨points.size, 1⟩⟩ : Sized Kind (Extended K)) := by
  obtain ⟨derivatives, slacks, -, -, hfull⟩ := extentsFor_eq_ok hextents
  -- the end times are single numbers
  have hunit : ∀ k, kindExtent p points.size derivatives slacks k = .unit →
      (s.valuesOf ((#[] : Array K).map finite) k).extent = .unit ∧
        s.wholeOf k = .ok (.symbol k .unit) := by
    intro k hk
    have hfind : s.extents.find? k = some .unit := by rw [hfull, Table.find?_full, hk]
    constructor
    · rw [extents_eq (x := (#[] : Array K).map finite) hfull, Table.find?_full] at hfind
      exact Option.some.inj hfind
    · simp [wholeOf, extentOf, Table.get, hfind, bind, Except.bind, pure, Except.pure]
  obtain ⟨hinitialExtent, hinitial⟩ := hunit .initialTime rfl
  obtain ⟨hfinalExtent, hfinal⟩ := hunit .finalTime rfl
  have hduration := (Expr.IsColumn.symbol hfinalExtent).zip .sub (.symbol hinitialExtent)
  have htimes := timesExpr_isColumn hsize (finite_valuesOf s #[] _ _) (finite_valuesOf s #[] _ _)
    hinitialExtent hfinalExtent
  exact ⟨hinitial, hfinal, ofExpr_of_hasSize hduration.size, ofExpr_of_hasSize htimes.size⟩

/-- A preparation writes this time law. -/
theorem Scheme.Draft.Of.times_eq {d : Draft (Extended K)} {p' : Problem (Extended K)}
    (hd : d.Of p' s) (hextents : extentsFor p s.gridPoints = .ok s.extents) :
    d.duration = ⟨.symbol .finalTime .unit - .symbol .initialTime .unit, .unit⟩ ∧
      d.times = ⟨timesExpr d.points (.symbol .initialTime .unit) (.symbol .finalTime .unit),
        ⟨d.points.size, 1⟩⟩ := by
  have hgridPoints := gridPoints_of_checkedGrid hd.points
  have hpos := gridPoints_pos_of_checkedGrid hd.points
  rw [hgridPoints] at hextents hpos
  obtain ⟨hinitial, hfinal, hduration, htimes⟩ := Scheme.times_eq hextents hpos
  have hduration' := hd.duration
  have htimes' := hd.times
  rw [Except.ok.inj (hd.initial.symm.trans hinitial),
    Except.ok.inj (hd.final.symm.trans hfinal)] at hduration' htimes'
  exact ⟨Except.ok.inj (hduration'.symm.trans hduration),
    Except.ok.inj (htimes'.symm.trans htimes)⟩

/-- With its time law a fresh scheme is ready for the values in any finite decision vector. -/
theorem Scheme.Fresh.ready_of_times (hs : s.Fresh rule points p) (hsize : 2 ≤ points.size)
    (hpoints : ∀ i, ∃ x, points.getD i default = finite x) (x : Array K)
    (hgrid : s'.grid = some (.vector points)) (hcount : s'.gridPoints = s.gridPoints)
    (hextents : s'.extents = s.extents)
    (htimes : s'.times =
      some ⟨timesExpr points (.symbol .initialTime .unit) (.symbol .finalTime .unit),
        ⟨points.size, 1⟩⟩)
    (hduration : s'.duration =
      some ⟨.symbol .finalTime .unit - .symbol .initialTime .unit, .unit⟩) :
    Ready p points (s'.valuesOf (x.map finite)) s' := by
  obtain ⟨derivatives, slacks, -, -, hfull⟩ := extentsFor_eq_ok hs.extents
  exact ⟨hsize, hpoints, finite_valuesOf s' x, hcount.trans hs.gridPoints, hgrid,
    extents_eq (hextents.trans hfull), hextents ▸ hs.extents, htimes, hduration⟩

/-- Prepared from fresh, a scheme is ready for the values in any finite decision vector. -/
theorem Scheme.Fresh.ready (hs : s.Fresh rule points p) (hsize : 2 ≤ points.size)
    (hpoints : ∀ i, ∃ x, points.getD i default = finite x) (x : Array K)
    (h : prepare p s = .ok () s') : Ready p points (s'.valuesOf (x.map finite)) s' := by
  obtain ⟨d, hd, rfl⟩ := prepare_eq_ok_iff.mp h
  -- the grid is read as it was given
  have hgrid : d.points = points := by
    have hwritten := written_of_checkedGrid hd.points
    rw [hs.grid, Option.map_some, Tensor.written_vector] at hwritten
    exact (Option.some.inj hwritten).symm
  obtain ⟨hduration, htimes⟩ := hd.times_eq (p := p) (by rw [hs.gridPoints, hs.extents])
  rw [hgrid] at htimes
  refine hs.ready_of_times hsize hpoints x ?_ rfl rfl ?_ ?_
  · exact congrArg (fun points => some (Tensor.vector points)) hgrid
  · exact congrArg some htimes
  · exact congrArg some hduration

/-! ## A small problem -/

/-- A point that is moved at a chosen speed, from zero to one. -/
def Scheme.slide : Problem (Extended ℚ) where
  name := "slide"
  states := [⟨"x", .unset, .unset, .unset⟩]
  controls := [⟨"u", .unset, .unset, .unset⟩]
  dynamics := some (.name "u")
  pathConstraints := [⟨"speed", .name "u", .whole 0, .whole 2⟩]
  kinematicConstraints := [⟨"place", .name "x", .whole 0, .whole 1⟩]
  endpointConstraints := [⟨"ends", .stacked [.name "x0", .name "xf"],
    .list [.whole 0, .whole 1], .list [.whole 0, .whole 1]⟩]

end Collocation
