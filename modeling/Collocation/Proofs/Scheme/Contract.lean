import Collocation.Proofs.Scheme.Buildable
import Collocation.Proofs.Scheme.Transcribed

/-! # The engine's own contract

  A scheme of a built-in rule, fresh from its construction, has all that the engine asks of a
  scheme: a grid that climbs from zero to one, variables of every kind with bounds of their sizes,
  and a weight and a mark for every grid point. Its transcription calls functions with arguments
  that fit and appends equations between as many bounds, so it can only fail for what the problem
  itself says. -/

namespace Collocation

open Extended

variable {K : Type} [Field K] [LinearOrder K] [FloorRing K] [Interpretation K]
  {p : Problem (Extended K)} {points mesh : Array (Extended K)}
  {env : Kind → Matrix (Extended K)} {s s' : Scheme (Extended K)}

/-! ## What the engine checks -/

section Checks

variable [IsStrictOrderedRing K] {q : Nat → K}

/-- Points that climb do not descend. -/
theorem Climbs.hasDescent (h : Climbs points q) : hasDescent points = false := by
  refine Array.any_eq_false.mpr ?_
  intro i hi
  have hlt : i < points.size - 1 := by simpa [differences] using hi
  have hstep : (differences points)[i] = finite (q (i + 1) - q i) := by
    have hget : (differences points).getD i default =
        points.getD (i + 1) default - points.getD i default := getD_differences (by omega)
    rw [h.get (i + 1) (by omega), h.get i (by omega), finite_sub] at hget
    simpa [Array.getD, hi] using hget
  have hclimb := h.climb i hlt
  rw [hstep, zero_eq, atMost_finite, sub_nonpos, not_le]
  exact hclimb

end Checks

namespace Scheme

/-- What the engine asks of a scheme before it transcribes it. -/
structure InOrder (s : Scheme (Extended K)) : Prop where
  /-- The grid has the declared number of points and climbs from zero to one. -/
  grid : ∃ points q, s.grid = some (.vector points) ∧ points.size = s.gridPoints ∧
    IsMesh points q
  /-- There are variables of every kind, and bounds of their size on both sides. -/
  tables : ∀ k, ∃ extent lower upper, s.extents.find? k = some extent ∧
    s.lower.find? k = some lower ∧ s.upper.find? k = some upper ∧
    lower.shape = extent.toList ∧ upper.shape = extent.toList
  /-- The rule returns a weight for every grid point. -/
  weights : ∃ w, s.quadratureWeights = .ok w ∧ w.size = s.gridPoints
  /-- The rule returns a mark for every grid point. -/
  mask : ∃ m, s.kinematicMask = .ok m ∧ m.size = s.gridPoints

theorem checkedGrid_of_isMesh [IsStrictOrderedRing K] {q : Nat → K}
    (hgrid : s.grid = some (.vector points)) (hsize : points.size = s.gridPoints)
    (h : IsMesh points q) : s.checkedGrid = .ok points := by
  have htwo := h.two_le
  have hfirst : points.getD 0 default = finite 0 := by rw [h.get 0 (by omega), h.first]
  have hlast : points.getD (points.size - 1) default = finite 1 := by
    rw [h.get _ (by omega), h.last]
  have hbelow : ∀ x : K, Number.below (finite x) (finite x) = false := by
    intro x
    rw [← Bool.not_eq_true, below_finite]
    exact lt_irrefl x
  refine checkedGrid_eq_ok_iff.mpr ⟨?_, hsize, by omega, h.hasDescent, ?_, ?_⟩
  · rw [hgrid, Option.map_some, Tensor.written_vector]
  · rw [hfirst, zero_eq, hbelow]
  · rw [hlast, one_eq, hbelow]

omit [Field K] [LinearOrder K] [FloorRing K] [Interpretation K] in
theorem checkVariables_of_shapes (h : ∀ k, ∃ extent lower upper,
    s.extents.find? k = some extent ∧ s.lower.find? k = some lower ∧ s.upper.find? k = some upper ∧
      lower.shape = extent.toList ∧ upper.shape = extent.toList) : s.checkVariables = .ok () := by
  refine forM_eq_ok_iff.mpr ?_
  intro k _
  obtain ⟨extent, lower, upper, hextent, hlower, hupper, hlowerShape, hupperShape⟩ := h k
  have hside : ∀ which, s.checkBoundsShape k extent which = .ok () := by
    intro which
    unfold checkBoundsShape
    cases which with
    | lower => simp only [side, hlower, hlowerShape, if_true]
    | upper => simp only [side, hupper, hupperShape, if_true]
  simp only [hextent, hside]
  rfl

/-- A built-in rule has a weight for every point of its grid. -/
theorem exists_weights {b : BuiltIn} (hrule : s.rule = b.rule mesh)
    (hgrid : s.grid = some (.vector (b.grid mesh))) (hsize : s.gridPoints = (b.grid mesh).size) :
    ∃ w, s.quadratureWeights = .ok w ∧ w.size = s.gridPoints := by
  have hw : ∃ w, s.rule.quadratureWeights s.gridPoints s.grid = .ok w ∧
      w.size = s.gridPoints := by
    rw [hrule, hgrid, hsize]
    cases b with
    | trapezoidal =>
      refine ⟨Array.ofFn fun i : Fin mesh.size =>
        trapezoidalWeight (differences mesh) mesh.size i, ?_, by simp [BuiltIn.grid]⟩
      have hcount : (differences mesh).size = mesh.size - 1 := by simp [differences]
      have hrepeat : repeatTo? (mesh.size - 1) (differences mesh) = some (differences mesh) :=
        hcount ▸ repeatTo?_size (differences mesh)
      show trapezoidalWeights mesh.size [mesh.size - 1]
        (differences (Tensor.vector mesh).written) = _
      rw [Tensor.written_vector]
      simp [trapezoidalWeights, hrepeat]
    | hermiteSimpson tieControls =>
      exact ⟨simpsonWeights mesh, rfl, by simp [simpsonWeights, BuiltIn.grid, size_withMidpoints]⟩
  obtain ⟨w, hw, hwsize⟩ := hw
  refine ⟨w, ?_, hwsize⟩
  unfold quadratureWeights checkGridVector
  rw [hw]
  simp [bind, Except.bind, hwsize]

/-- A built-in rule has a mark for every point of its grid. -/
theorem exists_mask {b : BuiltIn} (hrule : s.rule = b.rule mesh) :
    ∃ m, s.kinematicMask = .ok m ∧ m.size = s.gridPoints := by
  have hm : ∃ m, s.rule.kinematicMask s.gridPoints = .ok m ∧ m.size = s.gridPoints := by
    rw [hrule]
    cases b with
    | trapezoidal => exact ⟨everywhere s.gridPoints, rfl, by simp [everywhere]⟩
    | hermiteSimpson tieControls => exact ⟨atMeshPoints s.gridPoints, rfl, by simp [atMeshPoints]⟩
  obtain ⟨m, hm, hmsize⟩ := hm
  refine ⟨m, ?_, hmsize⟩
  unfold kinematicMask checkGridVector
  rw [hm]
  simp [bind, Except.bind, hmsize]

/-- A scheme of a built-in rule is in order from its construction on. -/
theorem inOrder_of_scheme [IsStrictOrderedRing K] {b : BuiltIn} {settings : Settings (Extended K)}
    {literal : Literal (Extended K)} (hmesh : Mesh.ofLiteral literal = .ok mesh)
    (hdefined : ∀ x ∈ mesh, x ≠ undefined) (hs : b.scheme settings p literal = .ok s) :
    s.InOrder := by
  have hfresh := b.fresh hmesh hs
  obtain ⟨q, hq, -⟩ := Mesh.exists_isMesh hmesh hdefined
  have hgrid : IsMesh (b.grid mesh) (b.gridNumber q) := BuiltIn.isMesh_grid hq
  have hstrays : ∀ which, (Scheme.start (b.rule mesh) settings (b.grid mesh).size
      (some (.vector (b.grid mesh)))).strays which = [] := by
    intro which
    cases which <;> rfl
  obtain ⟨derivatives, slacks, -, -, hshows⟩ :=
    shows_of_createVariables hgrid.two_le hstrays (b.createVariables_eq_ok hmesh hs)
  refine ⟨⟨_, _, hfresh.grid, hfresh.gridPoints.symm, hgrid⟩, ?_,
    exists_weights hfresh.rule hfresh.grid hfresh.gridPoints, exists_mask hfresh.rule⟩
  intro k
  obtain ⟨lower, hlower, hlowerShape, -⟩ := hshows.tables .lower k
  obtain ⟨upper, hupper, hupperShape, -⟩ := hshows.tables .upper k
  exact ⟨_, lower, upper, by rw [hshows.extents, Table.find?_full], hlower, hupper, hlowerShape,
    hupperShape⟩

/-! ## Constraints that are appended -/

/-- A scheme whose constraints are being written: it is prepared for a problem and still open, the
    dynamics that it keeps are the problem's, and it has a mark for every grid point. -/
structure Underway (p : Problem (Extended K)) (points : Array (Extended K))
    (env : Kind → Matrix (Extended K)) (s : Scheme (Extended K)) : Prop
    extends Ready p points env s where
  untouched : s.transcribed = false
  dynamics : ∀ f, s.dynamics = some f → p.dynamicsFunction = .ok f
  mask : ∃ mask, s.mask = some mask ∧ mask.size = points.size

namespace Underway

theorem withBlocks (h : Underway p points env s) (bs : List (Block (Extended K))) :
    Underway p points env { s with blocks := s.blocks ++ bs } :=
  ⟨h.toReady.withBlocks bs, h.untouched, h.dynamics, h.mask⟩

theorem withDynamics (h : Underway p points env s) {f : PointFunction (Extended K)}
    (hf : p.dynamicsFunction = .ok f) : Underway p points env { s with dynamics := some f } := by
  refine ⟨h.toReady.withDynamics f, h.untouched, ?_, h.mask⟩
  rintro g hg
  cases hg
  exact hf

end Underway

/-- Equations between as many bounds are appended. -/
theorem meets_append {lower upper : Array (Extended K)} {e : Sized Kind (Extended K)}
    {cause : Fault (Extended K) → Prop} (hs : Underway p points env s)
    (hlower : lower.size = e.extent.size) (hupper : upper.size = e.extent.size) :
    Meets s (append lower upper e) (fun _ => Underway p points env) cause := by
  have hmutable : checkMutable s = .ok () s := by
    unfold checkMutable
    rw [run_get_bind, if_neg (by simp [hs.untouched])]
    rfl
  refine .bind_of_ok hmutable ?_
  rw [dif_pos ⟨hlower, hupper⟩]
  exact hs.withBlocks _

/-- A column is set to zero. -/
theorem meets_appendZero {e : Expr Kind (Extended K)} {n : Nat}
    {cause : Fault (Extended K) → Prop} (hs : Underway p points env s)
    (he : e.HasSize (fun k => (env k).extent) ⟨n, 1⟩) :
    Meets s (appendZero n e) (fun _ => Underway p points env) cause := by
  refine meets_attempt_of_ok (ofExpr_of_hasSize he) ?_
  exact meets_append hs (by simp) (by simp)

/-- A call of a constraint's function is put between the constraint's bounds. -/
theorem meets_appendCall {ι : Type} {f : Function ι (Extended K)} {e : Sized Kind (Extended K)}
    {c : Constraint (Extended K)} {lower upper : Array (Extended K)}
    {v : ι → Matrix (Extended K)} {cause : Fault (Extended K) → Prop}
    (hs : Underway p points env s) (hcols : f.extent.cols = 1)
    (hbounds : c.boundVectors f.extent.rows = .ok (lower, upper)) (hcall : e.IsCall env f v) :
    Meets s (append lower upper e) (fun _ => Underway p points env) cause := by
  obtain ⟨hlower, hupper⟩ := Constraint.size_of_boundVectors hbounds
  have hsize : e.extent.size = f.extent.rows := by
    rw [hcall.extent, Extent.size, hcols, Nat.mul_one]
  exact meets_append hs (hlower.trans hsize.symm) (hupper.trans hsize.symm)

/-- A constraint at grid points fails only for itself. -/
theorem meets_appendConstraint {c : Constraint (Extended K)} {count : Nat} {test : Nat → Bool}
    (hs : Underway p points env s) (hcount : count = points.size)
    (hc : c ∈ p.pathConstraints ++ p.kinematicConstraints) :
    Meets s (appendConstraint p c (gridIndices count test)) (fun _ => Underway p points env)
      p.Causes := by
  refine meets_attempt_bind (fun _ h => .pointConstraint hc h) fun f hf => ?_
  refine meets_attempt_bind (fun _ h => .pointBounds hc hf h) fun bounds hbounds => ?_
  obtain ⟨hsound, hinputs, hcols⟩ := Problem.pointConstraintFunction_sound hf
  refine meets_attempt_of_ok rfl ?_
  rw [List.forM_eq_forM, List.forM_map]
  refine Meets.forM hs ?_
  intro i hi s hs
  have hlt : i < points.size := by
    simp only [List.mem_filter, List.mem_range, hcount] at hi
    exact hi.1
  obtain ⟨e, he, hcall⟩ := hs.exists_callAt hsound hinputs hlt
  refine meets_attempt_of_ok rfl (.get ?_)
  exact meets_attempt_of_ok he (meets_appendCall hs hcols hbounds hcall)

theorem meets_appendPath (hs : Underway p points env s) :
    Meets s (appendPath p .null) (fun _ => Underway p points env) p.Causes := by
  refine .get (Meets.forM hs ?_)
  intro c hc s' hs'
  exact meets_appendConstraint hs' hs.gridPoints (List.mem_append_left _ hc)

theorem meets_appendKinematic (hs : Underway p points env s) :
    Meets s (appendKinematic p) (fun _ => Underway p points env) p.Causes := by
  obtain ⟨mask, hmask, hsize⟩ := hs.mask
  unfold appendKinematic
  refine .get ?_
  rw [hmask]
  refine Meets.forM hs ?_
  intro c hc s' hs'
  exact meets_appendConstraint hs' hsize (List.mem_append_right _ hc)

theorem meets_appendEndpoint (hs : Underway p points env s) :
    Meets s (appendEndpoint p) (fun _ => Underway p points env) p.Causes := by
  refine Meets.forM hs ?_
  intro c hc s hs
  refine meets_attempt_bind (fun _ h => .endpointConstraint hc h) fun f hf => ?_
  refine meets_attempt_bind (fun _ h => .endpointBounds hc hf h) fun bounds hbounds => ?_
  obtain ⟨hsound, hinputs, hcols⟩ := Problem.endpointConstraintFunction_sound hf
  obtain ⟨args, e, hargs, he, hcall⟩ := hs.exists_endpointCall hsound hinputs
  refine .get (meets_attempt_of_ok hargs ?_)
  exact meets_attempt_of_ok he (meets_appendCall hs hcols hbounds hcall)

theorem meets_appendFamilies (hs : Underway p points env s) :
    Meets s (appendFamilies p) (fun _ => Underway p points env) p.Causes :=
  (meets_appendKinematic hs).bind fun _ _ hs₁ =>
    (meets_appendPath hs₁).bind fun _ _ hs₂ => meets_appendEndpoint hs₂

/-! ## Defects that are appended -/

theorem meets_dynamicsOf (hs : Underway p points env s) :
    Meets s (dynamicsOf p)
      (fun f s' => Underway p points env s' ∧ p.dynamicsFunction = .ok f) p.Causes := by
  unfold dynamicsOf
  refine .get ?_
  cases hdynamics : s.dynamics with
  | some f => exact ⟨hs, hs.dynamics f hdynamics⟩
  | none =>
    refine meets_attempt_bind (fun _ h => .dynamics h) fun f hf => ?_
    exact ⟨hs.withDynamics hf, hf⟩

theorem meets_derivativesAt (hs : Underway p points env s) {i : Nat} (hi : i < points.size) :
    Meets s (derivativesAt p i) (fun _ => Underway p points env) p.Causes := by
  refine (meets_dynamicsOf hs).bind ?_
  rintro f s₁ ⟨hs₁, hf⟩
  obtain ⟨hsound, hinputs, -⟩ := Problem.dynamicsFunction_sound hf
  obtain ⟨e, he, -⟩ := hs₁.exists_callAt hsound hinputs hi
  refine .get ?_
  rw [he]
  exact hs₁

/-- The derivatives at all grid points fail only for the dynamics. -/
theorem meets_allDerivatives (hs : Underway p points env s) (hnone : s.dynamics = none) :
    Meets s (allDerivatives p) (fun fs s' => Underway p points env s' ∧ ∃ f,
      ∀ i < points.size,
        (fs.getD i default).IsSlope env p.states.length (stateDerivative f points env i))
      p.Causes := by
  have hrun : Meets s (allDerivatives p) (fun _ => Underway p points env) p.Causes := by
    have hslopes : Meets s ((List.range s.gridPoints).mapM fun (i : Nat) => derivativesAt p i)
        (fun es s' => List.Forall₂ (fun _ _ => True) (List.range s.gridPoints) es ∧
          Underway p points env s') p.Causes := by
      refine Meets.mapM hs ?_
      intro i hi s' hs'
      rw [List.mem_range, hs.gridPoints] at hi
      exact (meets_derivativesAt hs' hi).mono fun _ _ _ h => ⟨trivial, h⟩
    exact .get (hslopes.bind fun _ _ h => h.2)
  refine hrun.mono ?_
  intro fs s' hfs hs'
  obtain ⟨f, -, -, hslopes⟩ := allDerivatives_eq_ok hs.toReady hnone hfs
  exact ⟨hs', f, hslopes⟩

section Defects

variable {f : PointFunction (Extended K)} {fs : Array (Expr Kind (Extended K))}
  {cause : Fault (Extended K) → Prop}

/-- The defects of the trapezoidal rule have an equation for every state. -/
theorem meets_appendTrapezoidal (hs : Underway p points env s)
    (hfs : ∀ i < points.size,
      (fs.getD i default).IsSlope env p.states.length (stateDerivative f points env i)) :
    Meets s (appendTrapezoidal p (differences points) fs) (fun _ => Underway p points env)
      cause := by
  refine .get (Meets.forM hs ?_)
  intro k hk s' hs'
  rw [List.mem_range, hs.gridPoints] at hk
  obtain ⟨d, hd⟩ := hs.duration_finite
  obtain ⟨a, ha⟩ := hs.finite_points k
  obtain ⟨b, hb⟩ := hs.finite_points (k + 1)
  have hduration := hs.durationOf_isColumn
  rw [hd] at hduration
  have hx := fun i hi => hs.columnAt_isColumn hs.states_extent (i := i) hi
  rw [getD_differences (by omega), ha, hb, finite_sub]
  exact meets_appendZero hs' (trapezoidalDefect_isColumn (b - a) hduration (hx k (by omega))
    (hx (k + 1) (by omega)) (hfs k (by omega)) (hfs (k + 1) (by omega))).size

/-- The defects of a mesh interval have two equations for every state. -/
theorem meets_appendHermiteSimpson (hmesh : ∀ i, ∃ x, mesh.getD i default = finite x)
    (hs : Underway p (withMidpoints mesh) env s)
    (hfs : ∀ i < (withMidpoints mesh).size, (fs.getD i default).IsSlope env p.states.length
      (stateDerivative f (withMidpoints mesh) env i)) :
    Meets s (appendHermiteSimpson p (differences mesh) fs)
      (fun _ => Underway p (withMidpoints mesh) env) cause := by
  refine .get (Meets.forM hs ?_)
  intro k hk s' hs'
  have hgrid : (withMidpoints mesh).size = 2 * mesh.size - 1 := size_withMidpoints
  have hk' : k < mesh.size - 1 := by simpa [differences] using hk
  obtain ⟨d, hd⟩ := hs.duration_finite
  obtain ⟨a, ha⟩ := hmesh k
  obtain ⟨b, hb⟩ := hmesh (k + 1)
  have hduration := hs.durationOf_isColumn
  rw [hd] at hduration
  have hx := fun i hi => hs.columnAt_isColumn hs.states_extent (i := i) hi
  rw [getD_differences (by omega), ha, hb, finite_sub]
  have hstep := ((Expr.IsColumn.number (finite (b - a))).zip .mul hduration).congr
    (h := fun _ => finite ((b - a) * d)) fun _ _ => finite_mul _ _
  have hhermite := hermiteDefect_isColumn hstep (hx (2 * k) (by omega))
    (hx (2 * k + 1) (by omega)) (hx (2 * k + 2) (by omega)) (hfs (2 * k) (by omega))
    (hfs (2 * k + 2) (by omega))
  have hsimpson := simpsonDefect_isColumn hstep (hx (2 * k) (by omega))
    (hx (2 * k + 2) (by omega)) (hfs (2 * k) (by omega)) (hfs (2 * k + 1) (by omega))
    (hfs (2 * k + 2) (by omega))
  rw [two_mul p.states.length]
  exact meets_appendZero hs' (hhermite.above hsimpson).size

/-- The ties of the controls have an equation for every control. -/
theorem meets_appendMidpointControls (hs : Underway p (withMidpoints mesh) env s) :
    Meets s (appendMidpointControls p (mesh.size - 1))
      (fun _ => Underway p (withMidpoints mesh) env) cause := by
  refine .get (Meets.forM hs ?_)
  intro k hk s' hs'
  have hgrid : (withMidpoints mesh).size = 2 * mesh.size - 1 := size_withMidpoints
  rw [List.mem_range] at hk
  have hu := fun i hi => hs.columnAt_isColumn hs.controls_extent (i := i) hi
  exact meets_appendZero hs' (midpointDefect_isColumn (hu (2 * k) (by omega))
    (hu (2 * k + 1) (by omega)) (hu (2 * k + 2) (by omega))).size

end Defects

/-- A built-in rule writes its constraints, or fails for what the problem says. -/
theorem meets_applyRule {b : BuiltIn} (hmesh : ∀ i, ∃ x, mesh.getD i default = finite x)
    (hs : Underway p (b.grid mesh) env s) (hrule : s.rule = b.rule mesh)
    (hnone : s.dynamics = none) :
    Meets s (applyRule p) (fun _ => Underway p (b.grid mesh) env) p.Causes := by
  have hgrid : s.gridVector = .ok (b.grid mesh) := by
    unfold gridVector
    rw [hs.grid]
    exact congrArg Except.ok (Tensor.written_vector _)
  unfold applyRule
  refine .get ?_
  rw [hrule]
  cases b with
  | trapezoidal =>
    refine meets_attempt_of_ok hgrid ((meets_allDerivatives hs hnone).bind ?_)
    rintro fs s₁ ⟨hs₁, f, hfs⟩
    exact (meets_appendTrapezoidal hs₁ hfs).bind fun _ _ => meets_appendFamilies
  | hermiteSimpson tieControls =>
    have hcount : (differences mesh).size = mesh.size - 1 := by simp [differences]
    refine (meets_allDerivatives hs hnone).bind ?_
    rintro fs s₁ ⟨hs₁, f, hfs⟩
    refine (meets_appendHermiteSimpson hmesh hs₁ hfs).bind fun _ s₂ hs₂ => ?_
    rw [hcount]
    by_cases htie : (tieControls && !p.controls.isEmpty) = true
    · rw [if_pos htie]
      exact (meets_appendMidpointControls hs₂).bind fun _ _ => meets_appendFamilies
    · rw [if_neg htie]
      exact meets_appendFamilies hs₂

/-! ## The objective -/

/-- A function of one grid point can be called at all of them. -/
theorem failsOnly_callsAt {f : PointFunction (Extended K)} {cause : Fault (Extended K) → Prop}
    (hs : Ready p points env s) (hsound : f.Sound) (hinputs : p.pointInputs = .ok f.inputs) :
    FailsOnly cause ((List.range s.gridPoints).mapM fun (i : Nat) => s.callAt f i) := by
  refine FailsOnly.mapM ?_
  intro i hi
  rw [List.mem_range, hs.gridPoints] at hi
  obtain ⟨e, he, -⟩ := hs.exists_callAt hsound hinputs hi
  rw [he]
  exact .ok e

/-- The duration times the weighted sum of single numbers is one. -/
theorem hasSize_integral {weights : Array (Extended K)} {f : PointFunction (Extended K)}
    {values : List (Sized Kind (Extended K))} (hs : Ready p points env s)
    (hsize : weights.size = points.size) (hsound : f.Sound)
    (hinputs : p.pointInputs = .ok f.inputs) (hunit : f.extent = .unit)
    (hvalues : (List.range s.gridPoints).mapM (fun (i : Nat) => s.callAt f i) = .ok values) :
    Expr.HasSize (fun k => (env k).extent)
      (s.durationOf * Expr.product (.transpose (.const (.column weights)))
        (.stacked (values.map (·.expr)))) .unit := by
  obtain ⟨hlength, hcalls⟩ := mapM_range_eq_ok hvalues
  rw [hs.gridPoints] at hlength
  have hstacked : (Expr.stacked (values.map (·.expr))).IsColumn env (values.map (·.expr)).length
      fun k => (((values.map Sized.expr).getD k default).eval env).get 0 := by
    refine .stacked ?_
    intro k hk
    have hk' : k < values.length := by simpa using hk
    have hcall := hs.isCall_of_callAt hsound hinputs (hlength ▸ hk') (hcalls k hk')
    have hone : values[k].expr.HasSize (fun k => (env k).extent) .unit := by
      rw [← hunit, ← hcall.extent]
      exact hcall.size
    rw [List.getElem_map]
    refine ⟨hone, ?_⟩
    intro r hr
    obtain rfl : r = 0 := by omega
    simp [hk']
  rw [List.length_map, hlength, ← hsize] at hstacked
  have hwide : weights.size ≠ 1 := by
    have htwo := hs.two_le
    omega
  exact (hs.durationOf_isColumn.zip .mul (hstacked.weightedSum hwide)).size

/-- The objective fails only for the costs. -/
theorem failsOnly_costExpr {weights : Array (Extended K)} (hs : Ready p points env s)
    (hsize : weights.size = points.size) : FailsOnly p.Causes (s.costExpr p weights) := by
  unfold costExpr
  refine FailsOnly.bind (fun _ h => .integrand h) fun f hf => ?_
  obtain ⟨hsound, hinputs⟩ := Problem.integrandFunction_sound hf
  refine (failsOnly_callsAt hs hsound hinputs).bind fun values hvalues => ?_
  -- an integrand of another size than a single number may not fit
  have hintegral : Expr.HasSize (fun k => (env k).extent)
      (s.durationOf * Expr.product (.transpose (.const (.column weights)))
        (.stacked (values.map (·.expr)))) .unit ∨ p.Causes .expression := by
    by_cases hunit : f.extent = .unit
    · exact .inl (hasSize_integral hs hsize hsound hinputs hunit hvalues)
    · exact .inr (.integrandSize hf hunit)
  refine (failsOnly_ofExpr (hintegral.imp_left fun h => ⟨_, h⟩)).bind fun integral hok => ?_
  refine FailsOnly.bind (fun _ h => .endpointCost h) fun ends hends => ?_
  obtain ⟨hends, hendInputs⟩ := Problem.endpointCostFunction_sound hends
  obtain ⟨args, cost, hargs, hcost, hcall⟩ := hs.exists_endpointCall hends hendInputs
  refine FailsOnly.bind_of_ok hargs (FailsOnly.bind_of_ok hcost ?_)
  have hsum : (∃ extent, Expr.HasSize (fun k => (env k).extent)
      (integral.expr + cost.expr) extent) ∨ p.Causes .expression := by
    refine hintegral.imp_left fun hone => ?_
    cases hok.symm.trans (ofExpr_of_hasSize hone)
    exact ⟨_, hone.zip_unit_left .add hcall.size⟩
  refine (failsOnly_ofExpr hsum).bind fun sum _ => ?_
  split
  · exact .ok _
  · exact .ok _

/-! ## The whole transcription -/

/-- Making variables closes no scheme. -/
theorem untouched_of_createVariables {α : Type} [Number α] {p : Problem α} {s s' : Scheme α}
    (h : createVariables p s = .ok () s') (hs : s.transcribed = false) :
    s'.transcribed = false := by
  obtain ⟨extents, -, hagrees⟩ := createVariables_eq_ok h
  obtain ⟨_, _, _, _, rfl⟩ := hagrees
  exact hs

/-- Preparing a fresh scheme that is in order fails only for the costs. -/
theorem meets_prepare {rule : Rule (Extended K)} [IsStrictOrderedRing K] {q : Nat → K}
    (hfresh : s.Fresh rule points p) (horder : s.InOrder) (hq : IsMesh points q)
    (hfinite : ∀ i, ∃ x, points.getD i default = finite x) (huntouched : s.transcribed = false) :
    Meets s (prepare p) (fun _ _ => True) p.Causes := by
  obtain ⟨w, hw, hwsize⟩ := horder.weights
  obtain ⟨m, hm, -⟩ := horder.mask
  obtain ⟨hinitial, hfinal, hduration, htimes⟩ := times_eq hfresh.extents (Nat.zero_lt_of_lt hq.two_le)
  let d : Sized Kind (Extended K) :=
    ⟨.symbol .finalTime .unit - .symbol .initialTime .unit, .unit⟩
  let t : Sized Kind (Extended K) :=
    ⟨timesExpr points (.symbol .initialTime .unit) (.symbol .finalTime .unit), ⟨points.size, 1⟩⟩
  have hset : setTimes { s with grid := some (.vector points), gridLocked := true } = .ok ()
      { s with
        grid := some (.vector points), gridLocked := true, duration := some d, times := some t } :=
    setTimes_eq_ok_iff.mpr ⟨_, _, d, points, t, hinitial, hfinal, hduration,
      congrArg Except.ok (Tensor.written_vector points), htimes, rfl⟩
  -- the grid that is fixed is the grid that was there
  have hweights : ({ s with
      grid := some (.vector points), gridLocked := true, duration := some d,
      times := some t } : Scheme (Extended K)).quadratureWeights = .ok w := by
    rw [← hw]
    unfold quadratureWeights checkGridVector
    rw [hfresh.grid]
  unfold prepare
  refine .get ?_
  rw [if_neg (by simp [huntouched])]
  refine meets_attempt_of_ok (checkedGrid_of_isMesh hfresh.grid hfresh.gridPoints.symm hq) ?_
  refine .set (meets_attempt_of_ok (checkVariables_of_shapes horder.tables) ?_)
  refine .bind_of_ok hset (.get (meets_attempt_of_ok hweights ?_))
  refine .modify (.get (meets_attempt_of_ok hm ?_))
  refine .modify (.get (meets_attempt_bind ?_ fun _ _ => trivial))
  exact failsOnly_costExpr (hfresh.ready_of_times hq.two_le hfinite #[] rfl rfl rfl rfl rfl)
    (hwsize.trans hfresh.gridPoints)

/-- A prepared scheme of a built-in rule is about to have its constraints written. -/
theorem Fresh.underway {b : BuiltIn} (hfresh : s.Fresh (b.rule mesh) (b.grid mesh) p)
    (htwo : 2 ≤ (b.grid mesh).size) (hfinite : ∀ i, ∃ x, (b.grid mesh).getD i default = finite x)
    (h : prepare p s = .ok () s') :
    Underway p (b.grid mesh) (s'.valuesOf ((#[] : Array K).map finite)) s' := by
  obtain ⟨hprepared, -⟩ := hfresh.prepared h
  have hready := hfresh.ready htwo hfinite #[] h
  obtain ⟨mask, hmask, hkinematic⟩ := hprepared.mask
  obtain ⟨m, hm, hmsize⟩ := exists_mask hprepared.rule
  cases hkinematic.symm.trans hm
  obtain ⟨d, hd, rfl⟩ := prepare_eq_ok_iff.mp h
  refine ⟨hready, hd.untouched, ?_, ⟨mask, hmask, hmsize.trans hready.gridPoints⟩⟩
  intro f hf
  cases hprepared.dynamics.symm.trans hf

/-- A scheme of a built-in rule for a problem with whole counts, on a mesh without an undefined
    point, never breaks the engine's own contract. Its construction fails only where no symbol has
    one of the sizes; the scheme is then in order; and its transcription, with the problem as it
    was, fails only for what the problem itself says. None of these faults is a broken
    precondition. -/
theorem builtIn_keeps_contract [IsStrictOrderedRing K] {b : BuiltIn}
    {settings : Settings (Extended K)} {literal : Literal (Extended K)} {derivatives slacks : Int}
    (hderivatives : p.derivativeCount = .whole derivatives) (hslacks : p.slackCount = .whole slacks)
    (hmesh : Mesh.ofLiteral literal = .ok mesh) (hdefined : ∀ x ∈ mesh, x ≠ undefined) :
    (∀ fault, b.scheme settings p literal = .error fault →
      fault.category ≠ .contract ∧
        Oversized p (b.grid mesh).size derivatives.toNat slacks.toNat) ∧
    ∀ s, b.scheme settings p literal = .ok s → s.InOrder ∧
      ∀ fault s', transcribe p s = .error fault s' →
        fault.category ≠ .contract ∧ p.Causes fault := by
  obtain ⟨hsize, hfinite⟩ := Mesh.finite_of_literal hmesh hdefined
  obtain ⟨htwo, hfiniteGrid⟩ := b.finite_grid hsize hfinite
  obtain ⟨q, hq, -⟩ := Mesh.exists_isMesh hmesh hdefined
  refine ⟨fun fault h => b.scheme_eq_error hmesh htwo hderivatives hslacks h, ?_⟩
  intro s hs
  have hfresh := b.fresh hmesh hs
  have horder := inOrder_of_scheme hmesh hdefined hs
  refine ⟨horder, ?_⟩
  intro fault s' h
  have hcauses : p.Causes fault := by
    rcases transcribe_eq_error h with hprepare | ⟨s₁, hprepare, happly⟩
    · have huntouched := untouched_of_createVariables (b.createVariables_eq_ok hmesh hs) rfl
      exact (meets_prepare hfresh horder (BuiltIn.isMesh_grid hq) hfiniteGrid
        huntouched).cause_of_error hprepare
    · obtain ⟨hprepared, -⟩ := hfresh.prepared hprepare
      have hunderway := hfresh.underway htwo hfiniteGrid hprepare
      exact (meets_applyRule hfinite hunderway hprepared.rule
        hprepared.dynamics).cause_of_error happly
  exact ⟨hcauses.keepsContract, hcauses⟩

/-- The slide of which nothing is known but where it is. -/
def idleSlide : Problem (Extended ℚ) := { slide with dynamics := none }

/-- A construction ends well, and the transcription after it fails. -/
def failsAfter {α : Type} [Number α] (p : Problem α)
    (construction : Except (Fault α) (Scheme α)) : Bool :=
  match construction with
  | .error _ => false
  | .ok s =>
    match transcribe p s with
    | .ok _ _ => false
    | .error _ _ => true

theorem exists_of_failsAfter {α : Type} [Number α] {p : Problem α}
    {construction : Except (Fault α) (Scheme α)} (h : failsAfter p construction) :
    ∃ s fault s', construction = .ok s ∧ transcribe p s = .error fault s' := by
  unfold failsAfter at h
  split at h
  · cases h
  · next s =>
    split at h
    · cases h
    · next fault s' hs' => exact ⟨s, fault, s', rfl, hs'⟩

theorem builtIn_keeps_contract_idleSlide :
    ∃ s fault s', hermiteSimpson (.standard none) idleSlide (.whole 3) true = .ok s ∧
      s.InOrder ∧ transcribe idleSlide s = .error fault s' ∧ fault.category ≠ .contract ∧
      idleSlide.Causes fault := by
  have hfails : failsAfter idleSlide
      (hermiteSimpson (.standard none) idleSlide (.whole 3) true) := by decide +kernel
  obtain ⟨s, fault, s', hs, hs'⟩ := exists_of_failsAfter hfails
  have hmesh : Mesh.ofLiteral (.whole 3) = .ok (evenPoints 3 : Array (Extended ℚ)) := rfl
  have hcounts : idleSlide.derivativeCount = .whole 0 ∧ idleSlide.slackCount = .whole 0 :=
    ⟨rfl, rfl⟩
  have hscheme :
      (BuiltIn.hermiteSimpson true).scheme (.standard none) idleSlide (.whole 3) = .ok s := hs
  obtain ⟨-, hkept⟩ := builtIn_keeps_contract hcounts.1 hcounts.2 hmesh (by decide +kernel)
  obtain ⟨horder, htranscribe⟩ := hkept s hscheme
  obtain ⟨hcategory, hcauses⟩ := htranscribe fault s' hs'
  exact ⟨s, fault, s', hs, horder, hs', hcategory, hcauses⟩

end Scheme
end Collocation
