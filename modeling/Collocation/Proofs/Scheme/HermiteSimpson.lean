import Collocation.Proofs.Scheme.Vectors

/-! # The Hermite-Simpson transcription

  What the nonlinear program of a Hermite-Simpson scheme means. Its grid has the mesh points at
  even and the midpoints of the mesh intervals at odd indices. A decision vector lies within all
  constraint bounds exactly where, for the matrices that the vector is cut into, the states at
  midpoints follow from Hermite interpolation and those at mesh points from Simpson's rule, the
  controls at midpoints are means if they are tied, and the constraints hold: the kinematic ones at
  the mesh points, the path constraints at all grid points. -/

namespace Collocation

section Meaning

variable {α : Type} [Number α]

/-- The length of a mesh interval in time. -/
def meshStep (mesh : Array α) (v : Kind → Matrix α) (k : Nat) : α :=
  durationBetween v * (mesh.getD (k + 1) default - mesh.getD k default)

/-- The states at midpoints and at the ends of all mesh intervals. -/
def HermiteSimpsonStates (p : Problem α) (mesh : Array α) (v : Kind → Matrix α) : Prop :=
  ∃ F, DynamicsAt p (withMidpoints mesh) v F ∧ ∀ k < mesh.size - 1, ∀ r < p.states.length,
    (v .states).entry r (2 * k + 1) =
        ((v .states).entry r (2 * k) + (v .states).entry r (2 * k + 2)) / Number.ofInt 2 +
          meshStep mesh v k / Number.ofInt 8 * ((F (2 * k)).get r - (F (2 * k + 2)).get r) ∧
      (v .states).entry r (2 * k + 2) =
        (v .states).entry r (2 * k) +
          meshStep mesh v k / Number.ofInt 6 *
            ((F (2 * k)).get r + Number.ofInt 4 * (F (2 * k + 1)).get r + (F (2 * k + 2)).get r)

end Meaning

open Extended

variable {K : Type} [Field K] [LinearOrder K] [FloorRing K] [Interpretation K]

/-! ## One interval -/

section Interval

variable {σ : Type} {env : σ → Matrix (Extended K)} {n : Nat}
  {step x₀ xₘ x₁ f₀ fₘ f₁ : Expr σ (Extended K)} {g₀ gₘ g₁ φ₀ φₘ φ₁ : Nat → Extended K} {H : K}

theorem share_isColumn {m : Int} (hm : (m : K) ≠ 0)
    (hstep : step.IsColumn env 1 fun _ => finite H) :
    (step / Scheme.wholeNumber m).IsColumn env 1 fun _ => finite (H / m) := by
  apply (hstep.zip .div (.number (Number.ofInt m))).congr
  intro _ _
  simp only [BinaryOp.apply, ofInt_eq, finite_div _ hm]

theorem midpointDefect_isColumn (hx₀ : x₀.IsColumn env n g₀) (hxₘ : xₘ.IsColumn env n gₘ)
    (hx₁ : x₁.IsColumn env n g₁) :
    (Scheme.midpointDefect x₀ xₘ x₁).IsColumn env n fun r =>
      gₘ r - finite (1 / 2) * (g₀ r + g₁ r) := by
  have hhalf : (Scheme.halfNumber : Expr σ (Extended K)).IsColumn env 1 fun _ => finite (1 / 2) :=
    (Expr.IsColumn.number _).congr fun _ _ => half_eq
  exact hxₘ.zip .sub (hhalf.scale .mul (hx₀.zip .add hx₁))

theorem hermiteDefect_isColumn (hstep : step.IsColumn env 1 fun _ => finite H)
    (hx₀ : x₀.IsColumn env n g₀) (hxₘ : xₘ.IsColumn env n gₘ) (hx₁ : x₁.IsColumn env n g₁)
    (hf₀ : f₀.IsSlope env n φ₀) (hf₁ : f₁.IsSlope env n φ₁) :
    (Scheme.hermiteDefect step x₀ xₘ x₁ f₀ f₁).IsColumn env n fun r =>
      gₘ r - finite (1 / 2) * (g₀ r + g₁ r) - finite (H / ((8 : Int) : K)) * (φ₀ r - φ₁ r) :=
  Scheme.lessWay_isColumn (midpointDefect_isColumn hx₀ hxₘ hx₁)
    (share_isColumn (by norm_num) hstep) (hf₀.sub hf₁)

theorem simpsonDefect_isColumn (hstep : step.IsColumn env 1 fun _ => finite H)
    (hx₀ : x₀.IsColumn env n g₀) (hx₁ : x₁.IsColumn env n g₁) (hf₀ : f₀.IsSlope env n φ₀)
    (hfₘ : fₘ.IsSlope env n φₘ) (hf₁ : f₁.IsSlope env n φ₁) :
    (Scheme.simpsonDefect step x₀ x₁ f₀ fₘ f₁).IsColumn env n fun r =>
      g₁ r - g₀ r -
        finite (H / ((6 : Int) : K)) * (φ₀ r + finite ((4 : Int) : K) * φₘ r + φ₁ r) := by
  have hfour : ((4 : Int) : K) ≠ 0 := by norm_num
  exact Scheme.lessWay_isColumn (hx₁.zip .sub hx₀) (share_isColumn (by norm_num) hstep)
    ((hf₀.add (hfₘ.multiple hfour)).add hf₁)

end Interval

/-! ## All intervals -/

variable {p : Problem (Extended K)} {mesh : Array (Extended K)}
  {env : Kind → Matrix (Extended K)} {s s' : Scheme (Extended K)}

namespace Scheme

omit [LinearOrder K] [FloorRing K] [Interpretation K] in
theorem half_mul (x : K) : 1 / 2 * x = x / ((2 : Int) : K) := by
  norm_num
  ring

/-- The stacked defects of one interval are zero where the states follow both rules. -/
theorem intervalDefects_iff {x₀ xₘ x₁ H : K} {φ₀ φₘ φ₁ : Extended K} :
    (finite xₘ - finite (1 / 2) * (finite x₀ + finite x₁) -
          finite (H / ((8 : Int) : K)) * (φ₀ - φ₁) = finite 0 ∧
        finite x₁ - finite x₀ -
          finite (H / ((6 : Int) : K)) * (φ₀ + finite ((4 : Int) : K) * φₘ + φ₁) = finite 0) ↔
      finite xₘ = (finite x₀ + finite x₁) / Number.ofInt 2 +
          finite H / Number.ofInt 8 * (φ₀ - φ₁) ∧
        finite x₁ = finite x₀ +
          finite H / Number.ofInt 6 * (φ₀ + Number.ofInt 4 * φₘ + φ₁) := by
  have htwo : ((2 : Int) : K) ≠ 0 := by norm_num
  have hsix : ((6 : Int) : K) ≠ 0 := by norm_num
  have height : ((8 : Int) : K) ≠ 0 := by norm_num
  simp only [finite_add, finite_mul, finite_sub, ofInt_eq, finite_div _ htwo, finite_div _ hsix,
    finite_div _ height, finite_sub_eq_zero_iff, finite_sub_eq_iff, half_mul]

/-- Both rules over one mesh interval, with given values of the dynamics. -/
def FollowsInterval (p : Problem (Extended K)) (mesh : Array (Extended K))
    (v : Kind → Matrix (Extended K)) (F : Nat → Matrix (Extended K)) (k : Nat) : Prop :=
  ∀ r < p.states.length,
    (v .states).entry r (2 * k + 1) =
        ((v .states).entry r (2 * k) + (v .states).entry r (2 * k + 2)) / Number.ofInt 2 +
          meshStep mesh v k / Number.ofInt 8 * ((F (2 * k)).get r - (F (2 * k + 2)).get r) ∧
      (v .states).entry r (2 * k + 2) =
        (v .states).entry r (2 * k) +
          meshStep mesh v k / Number.ofInt 6 *
            ((F (2 * k)).get r + Number.ofInt 4 * (F (2 * k + 1)).get r + (F (2 * k + 2)).get r)

/-- The stacked defects of one mesh interval, whose three points are neighbours on the grid. -/
theorem adds_intervalDefects {test : Block (Extended K) → Prop} (htest : TestsZero env test)
    (hmesh : ∀ i, ∃ x, mesh.getD i default = finite x)
    (hs : Ready p (withMidpoints mesh) env s) {f : PointFunction (Extended K)}
    {fs : Array (Expr Kind (Extended K))}
    (hfs : ∀ i < (withMidpoints mesh).size, (fs.getD i default).IsSlope env p.states.length
      (stateDerivative f (withMidpoints mesh) env i))
    {k : Nat} (hk : k < mesh.size - 1) {s₁ s₂ : Scheme (Extended K)}
    (h : appendZero (2 * p.states.length)
      (.above
        (hermiteDefect (.number ((differences mesh).getD k default) * s.durationOf)
          (s.statesAt (2 * k)) (s.statesAt (2 * k + 1)) (s.statesAt (2 * k + 2))
          (fs.getD (2 * k) default) (fs.getD (2 * k + 2) default))
        (simpsonDefect (.number ((differences mesh).getD k default) * s.durationOf)
          (s.statesAt (2 * k)) (s.statesAt (2 * k + 2)) (fs.getD (2 * k) default)
          (fs.getD (2 * k + 1) default) (fs.getD (2 * k + 2) default))) s₁ = .ok () s₂) :
    Adds env test s₁ s₂ (2 * p.states.length)
      (FollowsInterval p mesh env
        (fun i => f.body.eval (pointValues (withMidpoints mesh) env i)) k) := by
  have hgrid : (withMidpoints mesh).size = 2 * mesh.size - 1 := size_withMidpoints
  obtain ⟨d, hd⟩ := hs.duration_finite
  obtain ⟨a, ha⟩ := hmesh k
  obtain ⟨b, hb⟩ := hmesh (k + 1)
  have hH : meshStep mesh env k = finite ((b - a) * d) := by
    rw [meshStep, hd, ha, hb, finite_sub, finite_mul, mul_comm]
  have hduration := hs.durationOf_isColumn
  rw [hd] at hduration
  rw [getD_differences (by omega), ha, hb, finite_sub] at h
  have hstep := ((Expr.IsColumn.number (finite (b - a))).zip .mul hduration).congr
    (h := fun _ => finite ((b - a) * d)) fun _ _ => finite_mul _ _
  have hx := fun i hi => hs.columnAt_isColumn hs.states_extent (i := i) hi
  have hhermite := hermiteDefect_isColumn hstep (hx (2 * k) (by omega))
    (hx (2 * k + 1) (by omega)) (hx (2 * k + 2) (by omega)) (hfs (2 * k) (by omega))
    (hfs (2 * k + 2) (by omega))
  have hsimpson := simpsonDefect_isColumn hstep (hx (2 * k) (by omega))
    (hx (2 * k + 2) (by omega)) (hfs (2 * k) (by omega)) (hfs (2 * k + 1) (by omega))
    (hfs (2 * k + 2) (by omega))
  rw [two_mul p.states.length] at h
  apply (adds_appendZero_above htest hhermite hsimpson h).congr (two_mul _).symm
  rw [← forall₂_and]
  apply forall₂_congr
  intro r _
  obtain ⟨x₀, hx₀⟩ := hs.entry_finite .states r (2 * k)
  obtain ⟨xₘ, hxₘ⟩ := hs.entry_finite .states r (2 * k + 1)
  obtain ⟨x₁, hx₁⟩ := hs.entry_finite .states r (2 * k + 2)
  rw [hx₀, hxₘ, hx₁, hH]
  exact intervalDefects_iff

/-- The defects of a Hermite-Simpson scheme, interval by interval. -/
theorem adds_appendHermiteSimpson {test : Block (Extended K) → Prop} (htest : TestsZero env test)
    (hmesh : ∀ i, ∃ x, mesh.getD i default = finite x)
    (hs : Ready p (withMidpoints mesh) env s) {f : PointFunction (Extended K)}
    (hf : p.dynamicsFunction = .ok f) {fs : Array (Expr Kind (Extended K))}
    (hfs : ∀ i < (withMidpoints mesh).size, (fs.getD i default).IsSlope env p.states.length
      (stateDerivative f (withMidpoints mesh) env i))
    (h : appendHermiteSimpson p (differences mesh) fs s = .ok () s') :
    Adds env test s s' ((mesh.size - 1) * (2 * p.states.length))
      (HermiteSimpsonStates p mesh env) := by
  unfold appendHermiteSimpson at h
  replace h := run_get_bind_eq_ok h
  have hcount : (differences mesh).size = mesh.size - 1 := by simp [differences]
  rw [hcount] at h
  have hgrid : (withMidpoints mesh).size = 2 * mesh.size - 1 := size_withMidpoints
  let F := fun i => f.body.eval (pointValues (withMidpoints mesh) env i)
  have hadds := adds_forM env test Ready.withBlocks (fun _ => 2 * p.states.length)
    (FollowsInterval p mesh env F)
    (fun k hk {_ _} _ hrun =>
      adds_intervalDefects htest hmesh hs hfs (List.mem_range.mp hk) hrun) hs h
  apply hadds.congr (by simp)
  -- the values of the dynamics are those that the derivatives are made of
  constructor
  · intro hall
    refine ⟨F, (hs.dynamicsAt_iff hf).mpr fun _ _ => rfl, ?_⟩
    intro k hk
    exact hall k (by simpa using hk)
  · rintro ⟨F', hF', hall⟩ k hk r hr
    rw [List.mem_range] at hk
    have hF : ∀ i < (withMidpoints mesh).size, F' i = F i := (hs.dynamicsAt_iff hf).mp hF'
    have heqs := hall k hk r hr
    rwa [hF (2 * k) (by omega), hF (2 * k + 1) (by omega), hF (2 * k + 2) (by omega)] at heqs

/-- The steps by which the Hermite-Simpson rule writes its constraints. -/
theorem applyRule_hermiteSimpson_eq_ok {tieControls : Bool}
    (hs : Ready p (withMidpoints mesh) env s)
    (hprepared : s.Prepared (.hermiteSimpson mesh tieControls) p)
    (h : applyRule p s = .ok () s') :
    ∃ f fs s₁ s₂, p.dynamicsFunction = .ok f ∧
      (∀ i < (withMidpoints mesh).size, (fs.getD i default).IsSlope env p.states.length
        (stateDerivative f (withMidpoints mesh) env i)) ∧
      appendHermiteSimpson p (differences mesh) fs { s with dynamics := some f } = .ok () s₁ ∧
      (tieControls ∧ appendMidpointControls p (mesh.size - 1) s₁ = .ok () s₂ ∨
        (tieControls → p.controls = []) ∧ s₂ = s₁) ∧
      appendFamilies p s₂ = .ok () s' := by
  unfold applyRule at h
  replace h := run_get_bind_eq_ok h
  rw [hprepared.rule] at h
  obtain ⟨fs, s₁, hfs, h₁⟩ := run_bind_eq_ok h
  obtain ⟨_, s₂, hdefects, h₂⟩ := run_bind_eq_ok h₁
  obtain ⟨f, hf, rfl, hslopes⟩ := allDerivatives_eq_ok hs hprepared.dynamics hfs
  have hcount : (differences mesh).size = mesh.size - 1 := by simp [differences]
  rw [hcount] at h₂
  by_cases htie : (tieControls && !p.controls.isEmpty) = true
  · rw [if_pos htie] at h₂
    obtain ⟨_, s₃, hcontrols, hfamilies⟩ := run_bind_eq_ok h₂
    exact ⟨f, fs, s₂, s₃, hf, hslopes, hdefects, .inl ⟨(Bool.and_eq_true_iff.mp htie).1, hcontrols⟩,
      hfamilies⟩
  · rw [if_neg htie] at h₂
    refine ⟨f, fs, s₂, s₂, hf, hslopes, hdefects, .inr ⟨?_, rfl⟩, h₂⟩
    intro hon
    simpa [hon] using htie

end Scheme
end Collocation
