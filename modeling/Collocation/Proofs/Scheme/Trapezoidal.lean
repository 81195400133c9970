import Collocation.Proofs.Scheme.Vectors

/-! # The trapezoidal transcription

  What the nonlinear program of a trapezoidal scheme means. A decision vector lies within all
  constraint bounds exactly where, for the matrices that the vector is cut into, the states change
  over every grid interval by the step times the mean of the derivatives at its two ends, the
  kinematic and the path constraints hold at every grid point, and the endpoint constraints hold
  at the two ends. -/

namespace Collocation

/-- The states change over every grid interval by the trapezoidal rule. -/
def TrapezoidalStates {α : Type} [Number α] (p : Problem α) (points : Array α)
    (v : Kind → Matrix α) : Prop :=
  ∃ F, DynamicsAt p points v F ∧ ∀ k < points.size - 1, ∀ r < p.states.length,
    (v .states).entry r (k + 1) - (v .states).entry r k =
      durationBetween v * (points.getD (k + 1) default - points.getD k default) / Number.ofInt 2 *
        ((F k).get r + (F (k + 1)).get r)

open Extended

variable {K : Type} [Field K] [LinearOrder K] [FloorRing K] [Interpretation K]

/-! ## One defect -/

section Defect

variable {σ : Type} {env : σ → Matrix (Extended K)} {n : Nat}
  {duration x₀ x₁ f₀ f₁ : Expr σ (Extended K)} {g₀ g₁ φ₀ φ₁ : Nat → Extended K} {d : K}

theorem trapezoidalDefect_isColumn (h : K) (hduration : duration.IsColumn env 1 fun _ => finite d)
    (hx₀ : x₀.IsColumn env n g₀) (hx₁ : x₁.IsColumn env n g₁) (hf₀ : f₀.IsSlope env n φ₀)
    (hf₁ : f₁.IsSlope env n φ₁) :
    (Scheme.trapezoidalDefect (finite h) duration x₀ x₁ f₀ f₁).IsColumn env n fun r =>
      g₁ r - g₀ r - finite (d * h / 2) * (φ₀ r + φ₁ r) := by
  refine Scheme.lessWay_isColumn (hx₁.zip .sub hx₀) ?_ (hf₀.add hf₁)
  apply ((Expr.IsColumn.number (Number.half * finite h)).zip .mul hduration).congr
  intro _ _
  simp only [BinaryOp.apply, half_eq, finite_mul]
  congr 1
  ring

/-- A defect is zero where the rule holds. -/
theorem trapezoidalDefect_eq_zero_iff {a b y z : K} {φ : Extended K} :
    (finite z - finite y - finite (d * (b - a) / 2) * φ : Extended K) = finite 0 ↔
      (finite z - finite y : Extended K) =
        finite d * (finite b - finite a) / Number.ofInt 2 * φ := by
  have htwo : ((2 : Int) : K) ≠ 0 := by norm_num
  rw [finite_sub, finite_sub, finite_mul, ofInt_eq, finite_div _ htwo, finite_sub_eq_zero_iff]
  norm_num

end Defect

/-! ## All defects -/

variable {p : Problem (Extended K)} {points : Array (Extended K)}
  {env : Kind → Matrix (Extended K)} {s s' : Scheme (Extended K)}

namespace Scheme

/-- The trapezoidal rule over one grid interval, with given values of the dynamics. -/
def FollowsTrapezoid (p : Problem (Extended K)) (points : Array (Extended K))
    (v : Kind → Matrix (Extended K)) (F : Nat → Matrix (Extended K)) (k : Nat) : Prop :=
  ∀ r < p.states.length,
    (v .states).entry r (k + 1) - (v .states).entry r k =
      durationBetween v * (points.getD (k + 1) default - points.getD k default) / Number.ofInt 2 *
        ((F k).get r + (F (k + 1)).get r)

/-- The defects of one grid interval. -/
theorem adds_trapezoidalDefect {test : Block (Extended K) → Prop} (htest : TestsZero env test)
    (hs : Ready p points env s) {f : PointFunction (Extended K)}
    {fs : Array (Expr Kind (Extended K))}
    (hfs : ∀ i < points.size,
      (fs.getD i default).IsSlope env p.states.length (stateDerivative f points env i))
    {k : Nat} (hk : k < points.size - 1) {s₁ s₂ : Scheme (Extended K)}
    (h : appendZero p.states.length
      (trapezoidalDefect ((differences points).getD k default) s.durationOf (s.statesAt k)
        (s.statesAt (k + 1)) (fs.getD k default) (fs.getD (k + 1) default)) s₁ = .ok () s₂) :
    Adds env test s₁ s₂ p.states.length
      (FollowsTrapezoid p points env (fun i => f.body.eval (pointValues points env i)) k) := by
  obtain ⟨d, hd⟩ := hs.duration_finite
  obtain ⟨a, ha⟩ := hs.finite_points k
  obtain ⟨b, hb⟩ := hs.finite_points (k + 1)
  have hduration := hs.durationOf_isColumn
  rw [hd] at hduration
  rw [getD_differences (by omega), ha, hb, finite_sub] at h
  have hcolumn := trapezoidalDefect_isColumn (b - a) hduration
    (hs.columnAt_isColumn hs.states_extent (i := k) (by omega))
    (hs.columnAt_isColumn hs.states_extent (i := k + 1) (by omega)) (hfs k (by omega))
    (hfs (k + 1) (by omega))
  apply (adds_appendZero htest hcolumn h).congr rfl
  apply forall₂_congr
  intro r _
  obtain ⟨y, hy⟩ := hs.entry_finite .states r k
  obtain ⟨z, hz⟩ := hs.entry_finite .states r (k + 1)
  rw [hy, hz, hd, ha, hb]
  exact trapezoidalDefect_eq_zero_iff

/-- The defects of the trapezoidal rule, interval by interval. -/
theorem adds_appendTrapezoidal {test : Block (Extended K) → Prop} (htest : TestsZero env test)
    (hs : Ready p points env s) {f : PointFunction (Extended K)}
    (hf : p.dynamicsFunction = .ok f) {fs : Array (Expr Kind (Extended K))}
    (hfs : ∀ i < points.size,
      (fs.getD i default).IsSlope env p.states.length (stateDerivative f points env i))
    (h : appendTrapezoidal p (differences points) fs s = .ok () s') :
    Adds env test s s' ((points.size - 1) * p.states.length)
      (TrapezoidalStates p points env) := by
  unfold appendTrapezoidal at h
  replace h := run_get_bind_eq_ok h
  rw [hs.gridPoints] at h
  let F := fun i => f.body.eval (pointValues points env i)
  have hadds := adds_forM env test Ready.withBlocks (fun _ => p.states.length)
    (FollowsTrapezoid p points env F)
    (fun k hk {_ _} _ hrun => adds_trapezoidalDefect htest hs hfs (List.mem_range.mp hk) hrun) hs h
  apply hadds.congr (by simp)
  -- the values of the dynamics are those that the derivatives are made of
  constructor
  · intro hall
    refine ⟨F, (hs.dynamicsAt_iff hf).mpr fun _ _ => rfl, ?_⟩
    intro k hk
    exact hall k (by simpa using hk)
  · rintro ⟨F', hF', hall⟩ k hk r hr
    rw [List.mem_range] at hk
    have hF : ∀ i < points.size, F' i = F i := (hs.dynamicsAt_iff hf).mp hF'
    have hchange := hall k hk r hr
    rwa [hF k (by omega), hF (k + 1) (by omega)] at hchange

/-- The steps by which the trapezoidal rule writes its constraints. -/
theorem applyRule_trapezoidal_eq_ok {mesh : Array (Extended K)} (hs : Ready p points env s)
    (hprepared : s.Prepared (.trapezoidal mesh) p)
    (h : applyRule p s = .ok () s') :
    ∃ f fs s₁, p.dynamicsFunction = .ok f ∧
      (∀ i < points.size,
        (fs.getD i default).IsSlope env p.states.length (stateDerivative f points env i)) ∧
      appendTrapezoidal p (differences points) fs { s with dynamics := some f } = .ok () s₁ ∧
      appendFamilies p s₁ = .ok () s' := by
  unfold applyRule at h
  replace h := run_get_bind_eq_ok h
  rw [hprepared.rule] at h
  obtain ⟨grid, hgrid, h₁⟩ := run_attempt_bind_eq_ok h
  obtain ⟨fs, s₁, hfs, h₂⟩ := run_bind_eq_ok h₁
  obtain ⟨_, s₂, hdefects, hfamilies⟩ := run_bind_eq_ok h₂
  have hpoints : grid = points := by
    unfold gridVector at hgrid
    rw [hs.grid] at hgrid
    simp only [Tensor.written_vector] at hgrid
    cases hgrid
    rfl
  subst hpoints
  obtain ⟨f, hf, rfl, hslopes⟩ := allDerivatives_eq_ok hs hprepared.dynamics hfs
  exact ⟨f, fs, s₂, hf, hslopes, hdefects, hfamilies⟩

end Scheme
end Collocation
