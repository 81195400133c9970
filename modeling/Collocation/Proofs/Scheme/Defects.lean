import Collocation.Proofs.Scheme.Families
import Collocation.Scheme.Transcription

/-! # Defects as equations

  What the expressions of the defects mean. At a grid point the states are a column, and so are
  their derivatives, which are the dynamics at the values there. A slope that is zero in any case
  has no elements but zero, so leaving it out changes nothing: every defect is the difference of
  states less the step times the slope. -/

namespace Collocation

/-- The time between the two ends. -/
def durationBetween {α : Type} [Number α] (v : Kind → Matrix α) : α :=
  (v .finalTime).get 0 - (v .initialTime).get 0

/-- The values of the dynamics at all grid points. -/
def DynamicsAt {α : Type} [Number α] (p : Problem α) (points : Array α) (v : Kind → Matrix α)
    (F : Nat → Matrix α) : Prop :=
  ∃ f, p.dynamicsFunction = .ok f ∧
    ∀ k < points.size, f.evaluate (pointValues points v k) = .ok [F k]

open Extended

variable {K : Type} [Field K] [LinearOrder K] [FloorRing K] [Interpretation K]

/-! ## Slopes -/

section Slopes

variable {σ : Type} {env : σ → Matrix (Extended K)} {n : Nat} {a b d step : Expr σ (Extended K)}
  {g h : Nat → Extended K} {x : K}

/-- A column that is zero where it is known to vanish. -/
structure Expr.IsSlope (env : σ → Matrix (Extended K)) (e : Expr σ (Extended K)) (n : Nat)
    (g : Nat → Extended K) : Prop extends e.IsColumn env n g where
  vanishing : e.vanishes → ∀ r < n, g r = finite 0

namespace Expr

theorem IsSlope.add (ha : a.IsSlope env n g) (hb : b.IsSlope env n h) :
    (a + b).IsSlope env n fun r => g r + h r := by
  refine ⟨ha.toIsColumn.zip .add hb.toIsColumn, ?_⟩
  intro hv r hr
  obtain ⟨hva, hvb⟩ := Bool.and_eq_true_iff.mp (show (a.vanishes && b.vanishes) = true from hv)
  rw [ha.vanishing hva r hr, hb.vanishing hvb r hr, finite_add, add_zero]

theorem IsSlope.sub (ha : a.IsSlope env n g) (hb : b.IsSlope env n h) :
    (a - b).IsSlope env n fun r => g r - h r := by
  refine ⟨ha.toIsColumn.zip .sub hb.toIsColumn, ?_⟩
  intro hv r hr
  obtain ⟨hva, hvb⟩ := Bool.and_eq_true_iff.mp (show (a.vanishes && b.vanishes) = true from hv)
  rw [ha.vanishing hva r hr, hb.vanishing hvb r hr, finite_sub, sub_zero]

/-- Of a multiple only the slope itself can vanish. -/
theorem IsSlope.multiple (hx : x ≠ 0) (ha : a.IsSlope env n g) :
    (Expr.number (finite x) * a).IsSlope env n fun r => finite x * g r := by
  refine ⟨(IsColumn.number _).scale .mul ha.toIsColumn, ?_⟩
  intro hv r hr
  have hnumber : ¬(Expr.number (finite x) : Expr σ (Extended K)).isZero := by
    intro hzero
    have hget : ((Expr.number (finite x)).eval env).get 0 = finite 0 :=
      get_of_isZero (IsColumn.number (finite x)).size hzero Nat.one_pos
    cases hget
    exact hx rfl
  have hva : a.vanishes := by
    have hboth : ((Expr.number (finite x) : Expr σ (Extended K)).vanishes || a.vanishes) = true :=
      hv
    rcases Bool.or_eq_true_iff.mp hboth with hzero | hva
    · exact absurd hzero hnumber
    · exact hva
  rw [ha.vanishing hva r hr, finite_mul, mul_zero]

end Expr

/-- Leaving out a slope that vanishes changes nothing. -/
theorem Scheme.lessWay_isColumn (hd : d.IsColumn env n g)
    (hstep : step.IsColumn env 1 fun _ => finite x) (hslope : a.IsSlope env n h) :
    (Scheme.lessWay d step a).IsColumn env n fun r => g r - finite x * h r := by
  unfold Scheme.lessWay
  split
  · next hv =>
    apply hd.congr
    intro r hr
    rw [hslope.vanishing hv r hr, finite_mul, mul_zero, sub_finite_zero]
  · exact hd.zip .sub (hstep.scale .mul hslope.toIsColumn)

end Slopes

variable {p : Problem (Extended K)} {points : Array (Extended K)}
  {env : Kind → Matrix (Extended K)} {s s' : Scheme (Extended K)} {i : Nat}

/-! ## Columns of a prepared scheme -/

namespace Ready

/-- Column `i` of a kind. -/
theorem columnAt_isColumn (h : Ready p points env s) {k : Kind} {n : Nat}
    (hextent : (env k).extent = ⟨n, points.size⟩) (hi : i < points.size) :
    (s.columnAt k i).IsColumn env n fun r => (env k).entry r i := by
  have hcolumn : s.columnAt k i =
      .column (env k).extent.rows i (.symbol k (env k).extent) := by
    simp [Scheme.columnAt, h.extents]
  have hlt : i < (env k).extent.cols := by rwa [hextent]
  have hsize := Scheme.hasSize_column hlt
  rw [hcolumn]
  refine ⟨by rwa [hextent] at hsize ⊢, ?_⟩
  intro r hr
  have hrow : r < (env k).rows := by rwa [Matrix.rows, hextent]
  rw [Scheme.eval_column, Matrix.get_column, Matrix.entry, if_pos hrow]
  simp [Matrix.columnArray, hrow]

/-- The difference of the end times. -/
theorem durationOf_isColumn (h : Ready p points env s) :
    s.durationOf.IsColumn env 1 fun _ => durationBetween env := by
  have hduration : s.durationOf = .symbol .finalTime .unit - .symbol .initialTime .unit := by
    simp [Scheme.durationOf, h.duration]
  rw [hduration]
  exact (Expr.IsColumn.symbol h.time_extent.2).zip .sub (.symbol h.time_extent.1)

theorem duration_finite (hs : Ready p points env s) :
    ∃ d : K, durationBetween env = finite d := by
  obtain ⟨t₀, ht₀⟩ := hs.finite_values .initialTime 0
  obtain ⟨t₁, ht₁⟩ := hs.finite_values .finalTime 0
  refine ⟨t₁ - t₀, ?_⟩
  rw [durationBetween, ht₀, ht₁, finite_sub]

theorem entry_finite (hs : Ready p points env s) (k : Kind) (r j : Nat) :
    ∃ x, (env k).entry r j = finite x := by
  unfold Matrix.entry
  split
  · exact hs.finite_values k _
  · exact ⟨0, default_eq⟩

end Ready

/-! ## Derivatives -/

/-- The derivatives of the states at a grid point: the dynamics at the values there. -/
def stateDerivative (f : PointFunction (Extended K)) (points : Array (Extended K))
    (env : Kind → Matrix (Extended K)) (i r : Nat) : Extended K :=
  (f.body.eval (pointValues points env i)).get r

/-- A call at a grid point is a column that vanishes only where it is zero. -/
theorem Ready.isSlope_of_callAt (h : Ready p points env s) {f : PointFunction (Extended K)}
    (hf : f.Sound) (hinputs : p.pointInputs = .ok f.inputs) {n : Nat} (hextent : f.extent = ⟨n, 1⟩)
    (hi : i < points.size) {e : Sized Kind (Extended K)} (he : s.callAt f i = .ok e) :
    e.expr.IsSlope env n fun r => (f.body.eval (pointValues points env i)).get r := by
  have hcall := h.isCall_of_callAt hf hinputs hi he
  have hsize := hcall.size
  rw [hcall.extent, hextent] at hsize
  refine ⟨⟨hsize, fun r hr => by rw [hcall.eval]⟩, ?_⟩
  intro hv r hr
  rw [hcall.vanishes] at hv
  have hbody := hf.size
  rw [← Except.ok.inj ((h.pointInputs_eq i).symm.trans hinputs), hextent] at hbody
  exact Expr.get_of_vanishes hbody hf.settled hv (by rwa [Extent.size_column])

/-- The dynamics at the values of a grid point are what the defects are made of. -/
theorem Ready.dynamicsAt_iff (hs : Ready p points env s) {f : PointFunction (Extended K)}
    (hf : p.dynamicsFunction = .ok f) {F : Nat → Matrix (Extended K)} :
    DynamicsAt p points env F ↔
      ∀ k < points.size, F k = f.body.eval (pointValues points env k) := by
  -- the values of a grid point fit, so the dynamics have one value there
  have heval : ∀ k, f.evaluate (pointValues points env k) =
      .ok [f.body.eval (pointValues points env k)] := by
    intro k
    obtain ⟨-, hinputs, -⟩ := Problem.dynamicsFunction_sound hf
    exact Function.evaluate_of_fits (hs.pointValues_fit hinputs k)
  constructor
  · rintro ⟨f', hf', hF⟩ k hk
    cases hf.symm.trans hf'
    have hFk := hF k hk
    rw [heval k, Except.ok.injEq, List.cons.injEq] at hFk
    exact hFk.1.symm
  · intro hF
    refine ⟨f, hf, ?_⟩
    intro k hk
    rw [hF k hk, heval k]

namespace Scheme

theorem derivativesAt_eq_ok {e : Sized Kind (Extended K)} {j : Int}
    (h : derivativesAt p j s = .ok e s') :
    ∃ f, (s.dynamics = some f ∧ s' = s ∨
        s.dynamics = none ∧ p.dynamicsFunction = .ok f ∧ s' = { s with dynamics := some f }) ∧
      s'.callAt f j = .ok e := by
  obtain ⟨f, s₁, hdynamics, h⟩ := run_bind_eq_ok h
  replace h := run_get_bind_eq_ok h
  obtain ⟨he, rfl⟩ := attempt_eq_ok h
  refine ⟨f, ?_, he⟩
  -- the dynamics are those kept from before, or they are built and kept
  unfold dynamicsOf at hdynamics
  rw [run_get_bind] at hdynamics
  cases hs : s.dynamics with
  | some g =>
    rw [hs] at hdynamics
    cases hdynamics
    exact .inl ⟨rfl, rfl⟩
  | none =>
    rw [hs] at hdynamics
    obtain ⟨g, hg, hdynamics⟩ := run_attempt_bind_eq_ok hdynamics
    cases hdynamics
    exact .inr ⟨rfl, hg, rfl⟩

/-- Once the dynamics are built, calling them leaves the scheme alone. -/
theorem mapM_derivativesAt_eq_ok {f : PointFunction (Extended K)} {xs : List Nat}
    {es : List (Sized Kind (Extended K))} (hf : s.dynamics = some f)
    (h : xs.mapM (fun (i : Nat) => derivativesAt p i) s = .ok es s') :
    s' = s ∧ List.Forall₂ (fun (i : Nat) e => s.callAt f i = .ok e) xs es := by
  induction xs generalizing es with
  | nil =>
    cases h
    exact ⟨rfl, .nil⟩
  | cons i xs ih =>
    rw [List.mapM_cons] at h
    obtain ⟨e, s₁, he, htail⟩ := run_bind_eq_ok h
    obtain ⟨rest, s₂, hrest, hend⟩ := run_bind_eq_ok htail
    cases hend
    rcases derivativesAt_eq_ok he with ⟨g, ⟨hg, hs₁⟩ | ⟨hnone, -⟩, hcall⟩
    · cases hf.symm.trans hg
      rw [hs₁] at hcall hrest
      obtain ⟨hs', hall⟩ := ih hrest
      exact ⟨hs', .cons hcall hall⟩
    · cases hf.symm.trans hnone

/-- The derivatives at all grid points are slopes of the states; the dynamics stay built. -/
theorem allDerivatives_eq_ok {fs : Array (Expr Kind (Extended K))} (hs : Ready p points env s)
    (hnone : s.dynamics = none) (h : allDerivatives p s = .ok fs s') :
    ∃ f, p.dynamicsFunction = .ok f ∧ s' = { s with dynamics := some f } ∧
      ∀ i < points.size,
        (fs.getD i default).IsSlope env p.states.length (stateDerivative f points env i) := by
  unfold allDerivatives at h
  replace h := run_get_bind_eq_ok h
  obtain ⟨es, s₁, hes, hend⟩ := run_bind_eq_ok h
  cases hend
  rw [hs.gridPoints] at hes
  have hcalls : ∃ f, p.dynamicsFunction = .ok f ∧ s' = { s with dynamics := some f } ∧
      List.Forall₂ (fun (i : Nat) e => s'.callAt f i = .ok e) (List.range points.size) es := by
    -- the first call builds the dynamics
    have htwo := hs.two_le
    obtain ⟨n, hn⟩ : ∃ n, points.size = n + 1 := ⟨points.size - 1, by omega⟩
    rw [hn, List.range_succ_eq_map] at hes ⊢
    rw [List.mapM_cons] at hes
    obtain ⟨e, s₁, he, htail⟩ := run_bind_eq_ok hes
    obtain ⟨rest, s₂, hrest, hend⟩ := run_bind_eq_ok htail
    cases hend
    rcases derivativesAt_eq_ok he with ⟨f, ⟨hsome, -⟩ | ⟨-, hf, hs₁⟩, hcall⟩
    · cases hnone.symm.trans hsome
    · -- the other calls find them
      obtain ⟨hs', hall⟩ := mapM_derivativesAt_eq_ok (by rw [hs₁]) hrest
      rw [← hs'] at hs₁ hcall hall
      exact ⟨f, hf, hs₁, .cons hcall hall⟩
  obtain ⟨f, hf, hs', hall⟩ := hcalls
  have hready : Ready p points env s' := hs' ▸ hs.withDynamics f
  refine ⟨f, hf, hs', ?_⟩
  intro i hi
  have hlength : i < es.length := by
    rw [← hall.length_eq, List.length_range]
    exact hi
  have hcall : s'.callAt f i = .ok es[i] := by
    simpa using hall.get (i := i) (by simpa using hi) hlength
  obtain ⟨hsound, hinputs, hextent⟩ := Problem.dynamicsFunction_sound hf
  have hslope := hready.isSlope_of_callAt hsound hinputs hextent hi hcall
  have hget : (es.map (·.expr)).toArray.getD i default = es[i].expr := by simp [hlength]
  rw [hget]
  exact hslope

end Scheme
end Collocation
