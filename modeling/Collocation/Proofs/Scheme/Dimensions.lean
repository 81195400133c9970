import Collocation.Proofs.Mesh
import Collocation.Proofs.Scheme.Calls
import Collocation.Proofs.Scheme.Steps

/-! # Dimensions of transcribed schemes

  The functions of a problem are built for the sizes that it declares when a scheme is transcribed,
  and they are called with columns of the scheme's variables, which have the sizes that the problem
  declared when the scheme was made. A call accepts a column of the declared size, a single element
  and an empty column, and nothing else. The defects and the ties of the controls are compared with
  the problem once more: there no empty column of states passes for states, and no single control
  for several ones. -/

namespace Collocation

variable {α σ : Type}

/-! ## Sizes if there are any -/

/-- If the expression has a size at all, it is this one. -/
def Expr.Only (e : Expr σ α) (t : Extent) : Prop := ∀ u, e.extent? = some u → u = t

namespace Expr

variable {a b : Expr σ α} {t : Extent}

theorem only_column (rows j : Nat) (e : Expr σ α) : (column rows j e).Only ⟨rows, 1⟩ := by
  intro u hu
  unfold column at hu
  obtain ⟨s, -, hu⟩ := Option.bind_eq_some_iff.mp hu
  unfold sizeIf at hu
  split_ifs at hu
  cases hu
  rfl

/-- The operands of an elementwise operation with a size have sizes of their own. -/
theorem zip_extent {f : BinaryOp} {u : Extent} (h : (zip f a b).extent? = some u) :
    ∃ s t, a.extent? = some s ∧ b.extent? = some t ∧ (s = t ∨ s = .unit ∨ t = .unit) ∧
      u = Matrix.commonExtent s t := by
  obtain ⟨s, hs, h⟩ := Option.bind_eq_some_iff.mp h
  obtain ⟨t, ht, h⟩ := Option.bind_eq_some_iff.mp h
  unfold zipExtent? sizeIf at h
  split_ifs at h with hfit
  cases h
  simp only [Bool.or_eq_true, decide_eq_true_iff] at hfit
  exact ⟨s, t, hs, ht, or_assoc.mp hfit, rfl⟩

namespace Only

theorem zip {f : BinaryOp} (ha : a.Only t) (hb : b.Only t) : (Expr.zip f a b).Only t := by
  intro u hu
  obtain ⟨s, s', hs, hs', -, rfl⟩ := zip_extent hu
  rw [ha s hs, hb s' hs']
  unfold Matrix.commonExtent
  split <;> rfl

theorem zip_unit_left {f : BinaryOp} (ha : a.Only .unit) (hb : b.Only t) :
    (Expr.zip f a b).Only t := by
  intro u hu
  obtain ⟨s, s', hs, hs', -, rfl⟩ := zip_extent hu
  rw [ha s hs, hb s' hs']
  unfold Matrix.commonExtent
  rw [if_pos rfl]

/-- What meets an empty column is none. -/
theorem zip_of_empty {f : BinaryOp} (ha : a.Only ⟨0, 1⟩) : (Expr.zip f a b).Only ⟨0, 1⟩ := by
  intro u hu
  obtain ⟨s, s', hs, -, hfit, rfl⟩ := zip_extent hu
  rw [ha s hs]
  unfold Matrix.commonExtent
  rw [if_neg (by decide)]

theorem above_of_empty (ha : a.Only ⟨0, 1⟩) (hb : b.Only ⟨0, 1⟩) :
    (above a b).Only ⟨0, 1⟩ := by
  intro u hu
  obtain ⟨s, hs, hu⟩ := Option.bind_eq_some_iff.mp hu
  obtain ⟨t, ht, hu⟩ := Option.bind_eq_some_iff.mp hu
  rw [ha s hs, hb t ht] at hu
  cases hu
  rfl

end Only
end Expr

/-! ## Calls -/

variable [Number α]

/-- What a call accepts for a declared number of rows. -/
def Accepts (declared rows : Nat) : Prop := rows = declared ∨ rows = 1 ∨ rows = 0

theorem Sized.accepts_of_fit {a : Sized σ α} {declared rows : Nat} (hrows : a.extent = ⟨rows, 1⟩)
    {e : Expr σ α} (h : a.fit? ⟨declared, 1⟩ = some e) : Accepts declared rows := by
  unfold fit? at h
  rw [hrows] at h
  split_ifs at h with hsame hempty hunit hturns
  · cases hsame
    exact .inl rfl
  · unfold Extent.isEmpty at hempty
    simp only [Bool.or_eq_true, decide_eq_true_iff, one_ne_zero, or_false] at hempty
    exact .inr (.inr hempty)
  · cases hunit
    exact .inr (.inl rfl)
  · -- a column that is turned is a row
    unfold turns Extent.transpose at hturns
    simp only [Bool.and_eq_true, decide_eq_true_iff, Extent.mk.injEq] at hturns
    exact .inr (.inl hturns.2.2)

/-- The kind that an input at one grid point has a column of. -/
def PointInput.kind? : PointInput → Option Kind
  | .time => none
  | .states => some .states
  | .controls => some .controls
  | .multipliers => some .multipliers
  | .derivatives => some .derivatives
  | .slacks => some .slacks
  | .parameters => some .parameters

namespace Scheme

variable {p : Problem α} {s s' : Scheme α} {derivatives slacks : Nat} {k : Kind}

omit [Number α] in
theorem pointInputs_eq_ok {inputs : PointInput → Extent} (h : p.pointInputs = .ok inputs) :
    ∃ derivatives slacks, Problem.rowsOf p.derivativeCount = .ok derivatives ∧
      Problem.rowsOf p.slackCount = .ok slacks ∧ ∀ input k, input.kind? = some k →
        inputs input = ⟨(kindExtent p 0 derivatives slacks k).rows, 1⟩ := by
  obtain ⟨derivatives, hderivatives, h⟩ := bind_eq_ok h
  obtain ⟨slacks, hslacks, h⟩ := bind_eq_ok h
  cases h
  refine ⟨derivatives, slacks, hderivatives, hslacks, ?_⟩
  intro input k hk
  cases input <;> cases hk <;> rfl

omit [Number α] in
theorem columnOf_eq_ok {j : Int} {a : Sized Kind α} (h : s.columnOf k j = .ok a) :
    ∃ e, s.extents.find? k = some e ∧ a.extent = ⟨e.rows, 1⟩ := by
  obtain ⟨e, he, h⟩ := bind_eq_ok h
  unfold extentOf Table.get at he
  split at he
  · next hfound =>
    cases he
    split at h
    · cases h
      exact ⟨e, hfound, rfl⟩
    · cases h
  · cases he

omit [Number α] in
theorem wholeOf_eq_ok {a : Sized Kind α} (h : s.wholeOf k = .ok a) :
    ∃ e, s.extents.find? k = some e ∧ a.extent = e := by
  obtain ⟨e, he, h⟩ := bind_eq_ok h
  cases h
  unfold extentOf Table.get at he
  split at he
  · next hfound =>
    cases he
    exact ⟨e, hfound, rfl⟩
  · cases he

omit [Number α] in
/-- The arguments at one grid point are columns of the variables. -/
theorem extent_of_pointArguments {i : Int} {args : PointInput → Sized Kind α}
    (h : s.pointArguments i = .ok args)
    (hparameters : ∀ e, s.extents.find? .parameters = some e → e.cols = 1) (input : PointInput)
    (hk : input.kind? = some k) :
    ∃ e, s.extents.find? k = some e ∧ (args input).extent = ⟨e.rows, 1⟩ := by
  obtain ⟨time, -, h⟩ := bind_eq_ok h
  obtain ⟨states, hstates, h⟩ := bind_eq_ok h
  obtain ⟨controls, hcontrols, h⟩ := bind_eq_ok h
  obtain ⟨multipliers, hmultipliers, h⟩ := bind_eq_ok h
  obtain ⟨derivatives, hderivatives, h⟩ := bind_eq_ok h
  obtain ⟨slacks, hslacks, h⟩ := bind_eq_ok h
  obtain ⟨parameters, hparams, h⟩ := bind_eq_ok h
  cases h
  cases input with
  | time => cases hk
  | states =>
    cases hk
    exact columnOf_eq_ok hstates
  | controls =>
    cases hk
    exact columnOf_eq_ok hcontrols
  | multipliers =>
    cases hk
    exact columnOf_eq_ok hmultipliers
  | derivatives =>
    cases hk
    exact columnOf_eq_ok hderivatives
  | slacks =>
    cases hk
    exact columnOf_eq_ok hslacks
  | parameters =>
    cases hk
    obtain ⟨e, he, hextent⟩ := wholeOf_eq_ok hparams
    exact ⟨e, he, by rw [hextent, ← hparameters e he]⟩

/-- Where there is an objective, the integrand accepted the columns at the first grid point. -/
theorem accepts_of_costExpr {weights : Array α} {objective : Expr Kind α}
    (h : s.costExpr p weights = .ok objective) (hpos : 0 < s.gridPoints)
    (hparameters : ∀ e, s.extents.find? .parameters = some e → e.cols = 1) :
    ∃ derivatives slacks, Problem.rowsOf p.derivativeCount = .ok derivatives ∧
      Problem.rowsOf p.slackCount = .ok slacks ∧ ∀ (input : PointInput) k,
        input.kind? = some k → ∃ e, s.extents.find? k = some e ∧
          Accepts (kindExtent p 0 derivatives slacks k).rows e.rows := by
  obtain ⟨f, hf, h⟩ := bind_eq_ok h
  obtain ⟨values, hvalues, -⟩ := bind_eq_ok h
  -- the integrand is called at every grid point, and the first one is enough
  obtain ⟨hlength, hcalls⟩ := mapM_range_eq_ok hvalues
  obtain ⟨args, hargs, hcall⟩ := bind_eq_ok (hcalls 0 (hlength ▸ hpos))
  obtain ⟨inputs, hinputs, hf⟩ := bind_eq_ok hf
  obtain ⟨_, -, hf⟩ := bind_eq_ok hf
  cases Function.make_eq_ok hf
  obtain ⟨derivatives, slacks, hderivatives, hslacks, hdeclared⟩ := pointInputs_eq_ok hinputs
  obtain ⟨fitted, hfitted, -⟩ := Function.call_eq_ok PointInput.mem_all hcall
  refine ⟨derivatives, slacks, hderivatives, hslacks, fun input k hk => ?_⟩
  obtain ⟨e, he, hextent⟩ := extent_of_pointArguments hargs hparameters input hk
  have hfit : (args input).fit? (inputs input) = some (fitted input) := hfitted input
  rw [hdeclared input k hk] at hfit
  exact ⟨e, he, Sized.accepts_of_fit hextent hfit⟩

/-! ## Defects and ties -/

theorem size_of_appendZero {count : Nat} {e : Expr Kind α} {t : Extent} (he : e.Only t)
    (h : appendZero count e s = .ok () s') : count = t.size := by
  unfold appendZero at h
  obtain ⟨a, ha, h⟩ := run_attempt_bind_eq_ok h
  have hextent : a.extent = t := by
    unfold Sized.ofExpr at ha
    split at ha
    · next u hu =>
      cases ha
      exact he u hu
    · cases ha
  unfold append at h
  obtain ⟨_, s₁, -, h⟩ := run_bind_eq_ok h
  split at h
  · next hsizes =>
    rw [← hextent, ← hsizes.1, Array.size_replicate]
  · cases h

section Empty

variable {x₀ x₁ xₘ f₀ f₁ fₘ step : Expr Kind α}

theorem only_lessWay_of_empty {difference slope : Expr Kind α} (h : difference.Only ⟨0, 1⟩) :
    (lessWay difference step slope).Only ⟨0, 1⟩ := by
  unfold lessWay
  split
  · exact h
  · exact h.zip_of_empty

theorem only_trapezoidalDefect_of_empty {h : α} {duration : Expr Kind α} (hx : x₁.Only ⟨0, 1⟩) :
    (trapezoidalDefect h duration x₀ x₁ f₀ f₁).Only ⟨0, 1⟩ :=
  only_lessWay_of_empty hx.zip_of_empty

theorem only_hermiteSimpsonDefect_of_empty (hx : x₁.Only ⟨0, 1⟩) (hxₘ : xₘ.Only ⟨0, 1⟩) :
    (Expr.above (hermiteDefect step x₀ xₘ x₁ f₀ f₁) (simpsonDefect step x₀ x₁ f₀ fₘ f₁)).Only
      ⟨0, 1⟩ :=
  (only_lessWay_of_empty hxₘ.zip_of_empty).above_of_empty (only_lessWay_of_empty hx.zip_of_empty)

end Empty

theorem only_midpointDefect {u₀ uₘ u₁ : Expr Kind α} {t : Extent} (h₀ : u₀.Only t)
    (hₘ : uₘ.Only t) (h₁ : u₁.Only t) : (midpointDefect u₀ uₘ u₁).Only t := by
  have hhalf : (halfNumber : Expr Kind α).Only .unit := by
    intro u hu
    cases hu
    rfl
  exact hₘ.zip (hhalf.zip_unit_left (h₀.zip h₁))

omit [Number α] in
theorem only_columnAt {e : Extent} (h : s.extents.find? k = some e) (i : Nat) :
    (s.columnAt k i).Only ⟨e.rows, 1⟩ := by
  unfold columnAt
  rw [h]
  exact Expr.only_column _ _ _

/-- The rule is built in, and its mesh has an interval. -/
inductive OnMesh (s : Scheme α) : Prop
  | trapezoidal {mesh : Array α} (hrule : s.rule = .trapezoidal mesh) (htwo : 2 ≤ s.gridPoints)
  | hermiteSimpson {mesh : Array α} {tieControls : Bool}
      (hrule : s.rule = .hermiteSimpson mesh tieControls) (htwo : 2 ≤ mesh.size)

theorem states_of_appendTrapezoidal {steps : Array α} {derivatives : Array (Expr Kind α)}
    (htwo : 2 ≤ s.gridPoints) {e : Extent} (he : s.extents.find? .states = some e)
    (hempty : e.rows = 0) (h : appendTrapezoidal p steps derivatives s = .ok () s') :
    p.states = [] := by
  unfold appendTrapezoidal at h
  rw [run_get_bind] at h
  have hfirst : 0 ∈ List.range (s.gridPoints - 1) := List.mem_range.mpr (by omega)
  obtain ⟨s₁, s₂, hzero⟩ := exists_of_forM_eq_ok hfirst h
  have hcolumn : (s.statesAt (0 + 1)).Only ⟨0, 1⟩ := hempty ▸ only_columnAt he (0 + 1)
  exact List.length_eq_zero_iff.mp
    (size_of_appendZero (only_trapezoidalDefect_of_empty hcolumn) hzero)

theorem states_of_appendHermiteSimpson {steps : Array α} {derivatives : Array (Expr Kind α)}
    (hsteps : 0 < steps.size) {e : Extent} (he : s.extents.find? .states = some e)
    (hempty : e.rows = 0) (h : appendHermiteSimpson p steps derivatives s = .ok () s') :
    p.states = [] := by
  unfold appendHermiteSimpson at h
  rw [run_get_bind] at h
  obtain ⟨s₁, s₂, hzero⟩ := exists_of_forM_eq_ok (List.mem_range.mpr hsteps) h
  have hcolumn : ∀ i, (s.statesAt i).Only ⟨0, 1⟩ := fun i => hempty ▸ only_columnAt he i
  have hcount : 2 * p.states.length = 0 :=
    size_of_appendZero (only_hermiteSimpsonDefect_of_empty (hcolumn _) (hcolumn _)) hzero
  exact List.length_eq_zero_iff.mp (by omega)

theorem controls_of_appendMidpointControls {intervals : Nat} (hintervals : 0 < intervals)
    {e : Extent} (he : s.extents.find? .controls = some e)
    (h : appendMidpointControls p intervals s = .ok () s') : e.rows = p.controls.length := by
  unfold appendMidpointControls at h
  rw [run_get_bind] at h
  obtain ⟨s₁, s₂, hzero⟩ := exists_of_forM_eq_ok (List.mem_range.mpr hintervals) h
  have hcolumn : ∀ i, (s.controlsAt i).Only ⟨e.rows, 1⟩ := fun i => only_columnAt he i
  have hcount := size_of_appendZero
    (only_midpointDefect (hcolumn _) (hcolumn _) (hcolumn _)) hzero
  rw [hcount, Extent.size_column]

omit [Number α] in
theorem OnMesh.of_rule (h : s.OnMesh) (hrule : s'.rule = s.rule)
    (hgridPoints : s'.gridPoints = s.gridPoints) : s'.OnMesh := by
  cases h with
  | trapezoidal h htwo => exact .trapezoidal (hrule.trans h) (hgridPoints ▸ htwo)
  | hermiteSimpson h htwo => exact .hermiteSimpson (hrule.trans h) htwo

/-- What a built-in rule compares with the problem once more. -/
theorem compared_of_applyRule (hs : s.OnMesh) (h : applyRule p s = .ok () s') :
    (∀ e, s.extents.find? .states = some e → e.rows = 0 → p.states = []) ∧
    ∀ mesh, s.rule = .hermiteSimpson mesh true → p.controls ≠ [] →
      ∀ e, s.extents.find? .controls = some e → e.rows = p.controls.length := by
  unfold applyRule at h
  rw [run_get_bind] at h
  cases hs with
  | trapezoidal hrule htwo =>
    rw [hrule] at h
    obtain ⟨grid, -, h⟩ := run_attempt_bind_eq_ok h
    obtain ⟨derivatives, s₁, hderivatives, h⟩ := run_bind_eq_ok h
    obtain ⟨_, s₂, hdefects, -⟩ := run_bind_eq_ok h
    have hlater := steady_allDerivatives.later_of_ok hderivatives
    -- no controls are tied
    refine ⟨fun e he hempty => ?_, fun mesh hmesh => ?_⟩
    · rw [← hlater.extents] at he
      exact states_of_appendTrapezoidal (hlater.gridPoints ▸ htwo) he hempty hdefects
    · cases hrule.symm.trans hmesh
  | @hermiteSimpson mesh tieControls hrule htwo =>
    rw [hrule] at h
    have hsteps : 0 < (differences mesh).size := by
      unfold differences
      rw [Array.size_ofFn]
      omega
    obtain ⟨derivatives, s₁, hderivatives, h⟩ := run_bind_eq_ok h
    obtain ⟨_, s₂, hdefects, h⟩ := run_bind_eq_ok h
    have hlater := steady_allDerivatives.later_of_ok hderivatives
    refine ⟨fun e he hempty => ?_, fun mesh' hmesh hcontrols e he => ?_⟩
    · rw [← hlater.extents] at he
      exact states_of_appendHermiteSimpson hsteps he hempty hdefects
    · cases hrule.symm.trans hmesh
      have htie : (true && !p.controls.isEmpty) = true := by simp [hcontrols]
      rw [if_pos htie] at h
      obtain ⟨_, s₃, hties, -⟩ := run_bind_eq_ok h
      -- neither the derivatives nor the defects have changed the sizes
      rw [← hlater.extents,
        ← (steady_appendHermiteSimpson (p := p).later_of_ok hdefects).extents] at he
      exact controls_of_appendMidpointControls hsteps he hties

/-- A scheme passes its transcription only with variables that the problem's functions accept as
    they are declared then. It has no states only if the problem has none, and where controls are
    tied it has as many as the problem. -/
theorem accepts_of_transcribe (hs : s.OnMesh)
    (hparameters : ∀ e, s.extents.find? .parameters = some e → e.cols = 1)
    (h : transcribe p s = .ok () s') :
    ∃ derivatives slacks, Problem.rowsOf p.derivativeCount = .ok derivatives ∧
      Problem.rowsOf p.slackCount = .ok slacks ∧
      (∀ (input : PointInput) k, input.kind? = some k → ∃ e, s.extents.find? k = some e ∧
        Accepts (kindExtent p 0 derivatives slacks k).rows e.rows) ∧
      (∀ e, s.extents.find? .states = some e → e.rows = 0 → p.states = []) ∧
      ∀ mesh, s.rule = .hermiteSimpson mesh true → p.controls ≠ [] →
        ∀ e, s.extents.find? .controls = some e → e.rows = p.controls.length := by
  obtain ⟨s₁, s₂, hprepare, happly, -⟩ := transcribe_eq_ok h
  obtain ⟨d, hd, rfl⟩ := prepare_eq_ok_iff.mp hprepare
  have hpos : 0 < s.gridPoints := gridPoints_pos_of_checkedGrid hd.points
  obtain ⟨derivatives, slacks, hderivatives, hslacks, haccepts⟩ :=
    accepts_of_costExpr hd.objective hpos hparameters
  have hprepared : (d.write s).OnMesh := hs.of_rule rfl rfl
  obtain ⟨hstates, hcontrols⟩ := compared_of_applyRule hprepared happly
  exact ⟨derivatives, slacks, hderivatives, hslacks, haccepts, hstates, hcontrols⟩

end Scheme
end Collocation
