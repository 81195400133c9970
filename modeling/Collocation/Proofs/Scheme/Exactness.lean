import Collocation.Proofs.Costs
import Collocation.Proofs.PiecewisePolynomial
import Collocation.Proofs.Scheme.Transcribed
import Collocation.Proofs.Times

/-! # The objective as an integral

  The weights of a built-in rule are positive and add up to one. Where the costs at the grid points
  are the values of a function of time that is a polynomial of low degree on every mesh interval,
  the objective is the integral of this function, in the direction of time, and the costs at the
  two ends. -/

namespace Collocation

open Extended Finset Polynomial

variable {K : Type} [Field K] [LinearOrder K] [FloorRing K] [Interpretation K]
  {p : Problem (Extended K)} {mesh weights : Array (Extended K)}
  {env : Kind → Matrix (Extended K)} {s s' : Scheme (Extended K)}

namespace BuiltIn

variable {b : BuiltIn} {q : Nat → K}

/-- The highest degree of costs on a mesh interval for which the rule has no error. -/
def exactDegree : BuiltIn → Nat
  | trapezoidal => 1
  | hermiteSimpson _ => 3

/-! ## Weights -/

/-- The share of a grid point in the mesh intervals beside it, of `n` intervals. -/
def gridShare (n : Nat) (q : Nat → K) : BuiltIn → Nat → K
  | trapezoidal => share n (halfStep q)
  | hermiteSimpson _ => simpsonShare n fun k => q (k + 1) - q k

/-- The weights of a prepared scheme are the shares of its grid points. -/
theorem weights_eq (hq : ∀ k, mesh.getD k default = finite (q k)) (hs : Ready p (b.grid mesh) env s)
    (hrule : s.rule = b.rule mesh) (hweights : s.quadratureWeights = .ok weights) :
    weights.size = (b.grid mesh).size ∧ ∀ i < (b.grid mesh).size,
      weights.getD i default = finite (b.gridShare (mesh.size - 1) q i) := by
  cases b with
  | trapezoidal =>
    exact trapezoidalWeights_eq_ok hq (Scheme.quadratureWeights_trapezoidal hs hrule hweights)
  | hermiteSimpson tieControls =>
    rw [Scheme.quadratureWeights_hermiteSimpson hrule hweights]
    have hsize : (withMidpoints mesh).size = 2 * mesh.size - 1 := size_withMidpoints
    refine ⟨by simp [simpsonWeights, grid, hsize], ?_⟩
    intro i hi
    exact getD_simpsonWeights hq (hsize ▸ hi)

section Mesh

variable [IsStrictOrderedRing K] (h : IsMesh mesh q)

include h

theorem gridShare_pos {i : Nat} (hi : i < (b.grid mesh).size) :
    0 < b.gridShare (mesh.size - 1) q i := by
  have htwo := h.two_le
  have hstep : ∀ k < mesh.size - 1, 0 < q (k + 1) - q k := by
    intro k hk
    exact sub_pos.mpr (h.climb k hk)
  cases b with
  | trapezoidal =>
    refine share_pos (by omega) (fun k hk => half_pos (hstep k hk)) ?_
    have hi' : i < mesh.size := hi
    omega
  | hermiteSimpson tieControls =>
    have hsize : (withMidpoints mesh).size = 2 * mesh.size - 1 := size_withMidpoints
    refine simpsonShare_pos (by omega) hstep ?_
    have hi' : i < (withMidpoints mesh).size := hi
    omega

omit [IsStrictOrderedRing K] in
/-- The shares add up to the length of the whole mesh. -/
theorem sum_gridShare : ∑ i ∈ range (b.grid mesh).size, b.gridShare (mesh.size - 1) q i = 1 := by
  have htwo := h.two_le
  have hwhole : q (mesh.size - 1) - q 0 = 1 := by rw [h.first, h.last, sub_zero]
  cases b with
  | trapezoidal =>
    -- the points themselves change by the rule, with slope one
    have hsum : q (mesh.size - 1) - q 0 = 1 * ∑ i ∈ range (mesh.size - 1 + 1),
        share (mesh.size - 1) (halfStep q) i * 1 :=
      trapezoidal_telescopes fun k _ => by rw [halfStep]; ring
    rw [Nat.sub_add_cancel (by omega), hwhole, one_mul] at hsum
    simp only [mul_one] at hsum
    exact hsum.symm
  | hermiteSimpson tieControls =>
    have hsize : (withMidpoints mesh).size = 2 * mesh.size - 1 := size_withMidpoints
    have hsum : midpointed q (2 * (mesh.size - 1)) - midpointed q 0 =
        1 * ∑ i ∈ range (2 * (mesh.size - 1) + 1),
          simpsonShare (mesh.size - 1) (fun k => q (k + 1) - q k) i * 1 :=
      simpson_telescopes fun k _ => by
        rw [show 2 * k + 2 = 2 * (k + 1) by ring, midpointed_even, midpointed_even]
        ring
    rw [show 2 * (mesh.size - 1) + 1 = (withMidpoints mesh).size by omega, midpointed_even,
      show midpointed q 0 = q 0 from midpointed_even q 0, hwhole, one_mul] at hsum
    simp only [mul_one] at hsum
    exact hsum.symm

/-! ## Integrals -/

omit [IsStrictOrderedRing K] in
/-- The integral of a function that is a polynomial on every mesh interval is the duration times
    the sum of its values at the grid points, weighted with their shares. -/
theorem integral_eq (toReal : K →+* ℝ) {cost : ℝ → ℝ} {initial final : K} {value : Nat → K}
    (hcost : PiecewisePolynomial b.exactDegree (mesh.size - 1)
      (fun k => toReal (timeLaw q initial final k)) cost)
    (hvalue : ∀ i < (b.grid mesh).size,
      cost (toReal (timeLaw (b.gridNumber q) initial final i)) = toReal (value i)) :
    ∫ t in toReal initial..toReal final, cost t =
      toReal ((final - initial) *
        ∑ i ∈ range (b.grid mesh).size, b.gridShare (mesh.size - 1) q i * value i) := by
  have htwo := h.two_le
  have hstep : ∀ k < mesh.size - 1,
      toReal (timeLaw q initial final (k + 1)) - toReal (timeLaw q initial final k) =
        toReal (final - initial) * toReal (q (k + 1) - q k) := by
    intro k _
    rw [← map_sub, timeLaw_sub, map_mul]
  have hinitial : timeLaw q initial final 0 = initial := timeLaw_of_zero h.first initial final
  have hfinal : timeLaw q initial final (mesh.size - 1) = final :=
    timeLaw_of_one h.last initial final
  have htwo' : toReal 2 = 2 := map_ofNat toReal 2
  rw [map_mul, map_sum]
  simp only [map_mul]
  cases b with
  | trapezoidal =>
    have hmeshValue : ∀ k ≤ mesh.size - 1,
        cost (toReal (timeLaw q initial final k)) = toReal (value k) := by
      intro k hk
      exact hvalue k (show k < mesh.size by omega)
    have hsum := hcost.integral_eq_sum_share hstep hmeshValue
    rw [hinitial, hfinal, Nat.sub_add_cancel (by omega)] at hsum
    simp only [gridShare, map_share, halfStep, map_div₀, htwo']
    exact hsum
  | hermiteSimpson tieControls =>
    have hsize : (withMidpoints mesh).size = 2 * mesh.size - 1 := size_withMidpoints
    let real : Nat → ℝ := fun i => toReal (value i)
    have hmeshValue : ∀ k ≤ mesh.size - 1,
        cost (toReal (timeLaw q initial final k)) = real (2 * k) := by
      intro k hk
      show _ = toReal (value (2 * k))
      rw [← hvalue (2 * k) (show 2 * k < (withMidpoints mesh).size by omega)]
      simp [timeLaw, gridNumber]
    have hmiddleValue : ∀ k < mesh.size - 1,
        cost ((toReal (timeLaw q initial final k) + toReal (timeLaw q initial final (k + 1))) / 2) =
          real (2 * k + 1) := by
      intro k hk
      show _ = toReal (value (2 * k + 1))
      have hmiddle := timeLaw_middle (q := midpointed q) (i := 2 * k) (j := 2 * k + 1)
        (k := 2 * (k + 1)) (by simp) initial final
      rw [← hvalue (2 * k + 1) (show 2 * k + 1 < (withMidpoints mesh).size by omega), gridNumber,
        hmiddle]
      simp [timeLaw, htwo']
    have hsum := hcost.integral_eq_sum_simpsonShare hstep hmeshValue hmiddleValue
    rw [hinitial, hfinal, show 2 * (mesh.size - 1) + 1 = (withMidpoints mesh).size by omega] at hsum
    simp only [gridShare, map_simpsonShare]
    exact hsum

end Mesh
end BuiltIn
namespace Scheme

/-! ## The whole transcription -/

variable {b : BuiltIn} {settings : Settings (Extended K)} {literal : Literal (Extended K)}

/-- The sum of an array of known numbers. -/
theorem sum_toList {w : Array (Extended K)} {y : Nat → K}
    (h : ∀ i < w.size, w.getD i default = finite (y i)) :
    Number.sum w.toList = finite (∑ i ∈ range w.size, y i) := by
  rw [← sum_finite]
  congr 1
  apply List.ext_getElem?
  intro i
  by_cases hi : i < w.size
  · have hget := h i hi
    rw [Array.getD_eq_getD_getElem?, Array.getElem?_eq_getElem hi, Option.getD_some] at hget
    simp [hi, hget]
  · simp [hi]

/-- The quadrature weights of a transcribed scheme are positive and add up to one. Let a function
    of time be a polynomial on every interval between neighbouring mesh times, of at most the
    degree of the rule, and at every grid time be the weighted sum of the integrands at that grid
    point of a decision vector. Then the objective at this vector is the integral of the function
    from the initial to the final time, in whatever direction, and the weighted sum of the costs at
    the two ends. -/
theorem objective_eq_integral [IsStrictOrderedRing K] (hcircle : Circular K)
    (hmesh : Mesh.ofLiteral literal = .ok mesh) (hdefined : ∀ x ∈ mesh, x ≠ undefined)
    (hs : b.scheme settings p literal = .ok s) (h : transcribe p s = .ok () s') :
    (∃ w, s'.quadratureWeights = .ok w ∧ w.size = (b.grid mesh).size ∧
      (∀ i < w.size, ∃ y, 0 < y ∧ w.getD i default = finite y) ∧ Number.sum w.toList = finite 1) ∧
    ∀ x : Array K, x.size = Layout.length s.extents →
      ∃ (v : Table (Matrix (Extended K))) (initial final : K) (times : Array (Extended K))
        (time meshTime : Nat → K),
        s'.expand (x.map finite) = .ok v ∧
        (v.values .initialTime).get 0 = finite initial ∧
        (v.values .finalTime).get 0 = finite final ∧
        s'.createTimes (finite initial) (finite final) = .ok times ∧
        times.size = (b.grid mesh).size ∧
        (∀ i < times.size, times.getD i default = finite (time i)) ∧
        (∀ k < mesh.size,
          (timesBetween mesh (finite initial) (finite final)).getD k default =
            finite (meshTime k)) ∧
        ∀ (toReal : K →+* ℝ) (cost : ℝ → ℝ) (value : Nat → K) (ends : K),
          PiecewisePolynomial b.exactDegree (mesh.size - 1) (fun k => toReal (meshTime k)) cost →
          (∀ i < times.size,
            worth? p.integralCosts (pointValues (b.grid mesh) v.values i) =
                some (finite (value i)) ∧
              cost (toReal (time i)) = toReal (value i)) →
          worth? p.endpointCosts (endValues v.values (times.size - 1)) = some (finite ends) →
            ∃ y, s'.evaluate s'.objective (.column (x.map finite)) = .ok #[finite y] ∧
              toReal y = (∫ t in toReal initial..toReal final, cost t) + toReal ends := by
  obtain ⟨q, hmeshed, hq⟩ := Mesh.exists_isMesh hmesh hdefined
  have hgrid : IsMesh (b.grid mesh) (b.gridNumber q) := BuiltIn.isMesh_grid hmeshed
  obtain ⟨s₁, hfrom, hextents⟩ := BuiltIn.exists_from hmesh hdefined hs h
  obtain ⟨Γ, hfull⟩ := hfrom.exists_extents
  obtain ⟨w, hw, hw₁, hobjective⟩ := hfrom.objective
  obtain ⟨hwsize, hweight⟩ :=
    BuiltIn.weights_eq hq (hfrom.ready #[]) hfrom.prepared.rule hw₁
  refine ⟨⟨w, hw, hwsize, ?_, ?_⟩, ?_⟩
  · intro i hi
    exact ⟨_, BuiltIn.gridShare_pos hmeshed (hwsize ▸ hi), hweight i (hwsize ▸ hi)⟩
  · rw [sum_toList fun i hi => hweight i (hwsize ▸ hi), hwsize, BuiltIn.sum_gridShare hmeshed]
  intro x hx
  have hlength : (x.map finite).size = Layout.length s'.extents := by
    rw [Array.size_map, hextents, hx]
  have hready := hfrom.ready x
  obtain ⟨t₀, ht₀⟩ := hready.finite_values .initialTime 0
  obtain ⟨t₁, ht₁⟩ := hready.finite_values .finalTime 0
  have hduration : durationBetween (s'.valuesOf (x.map finite)) = finite (t₁ - t₀) := by
    rw [durationBetween, ht₀, ht₁, finite_sub]
  have htimes : (timesBetween (b.grid mesh) (finite t₀) (finite t₁)).size = (b.grid mesh).size := by
    simp [timesBetween]
  refine ⟨_, t₀, t₁, _, timeLaw (b.gridNumber q) t₀ t₁, timeLaw q t₀ t₁, expand_eq hlength, ht₀,
    ht₁, hfrom.createTimes _ _, htimes, ?_, ?_, ?_⟩
  · intro i hi
    exact getD_timesBetween (htimes ▸ hi) (hgrid.get i (htimes ▸ hi)) t₀ t₁
  · intro k hk
    exact getD_timesBetween hk (hq k) t₀ t₁
  intro toReal cost value ends hcost hvalue hends
  rw [htimes] at hvalue hends
  -- the integrand has the given values at the grid points
  obtain ⟨f, hf, -⟩ := bind_eq_ok hobjective
  have hvalues : ∀ i < (b.grid mesh).size,
      f.evaluate (pointValues (b.grid mesh) (s'.valuesOf (x.map finite)) i) =
        .ok [.unit (finite (value i))] := by
    intro i hi
    exact Problem.evaluate_integrandFunction hcircle (hready.pointInputs_eq i) hf (hvalue i hi).1
  obtain ⟨g, E, hg, hE, heval⟩ :=
    hready.costExpr_eq_ok hwsize hweight hf hvalues hduration hobjective
  have hE' := Problem.evaluate_endpointCostFunction hcircle
    (hready.endpointInputs_eq ((b.grid mesh).size - 1)) hg hends
  rw [hE, Except.ok.injEq, List.cons.injEq] at hE'
  refine ⟨(t₁ - t₀) * ∑ i ∈ range (b.grid mesh).size,
    b.gridShare (mesh.size - 1) q i * value i + ends, ?_, ?_⟩
  · rw [evaluate_eq hfull hlength, heval, hE'.1]
    simp [Matrix.map, Matrix.unit]
  · rw [map_add, ← BuiltIn.integral_eq hmeshed toReal hcost fun i hi => (hvalue i hi).2]

/-! ### A small problem with costs -/

/-- The slide at a price for speed and place on the way, and for the place at the end. -/
def pricedSlide : Problem (Extended ℚ) :=
  { slide with
    integralCosts := [⟨.stacked [.name "u", .name "x"], .whole 2⟩]
    endpointCosts := [⟨.name "xf", .whole 3⟩] }

/-- In a decision vector are the given times and costs. -/
def hasCosts (p : Problem (Extended ℚ)) (points x : Array (Extended ℚ))
    (initial final : Extended ℚ) (times : Array (Extended ℚ)) (value : Nat → Extended ℚ)
    (ends : Extended ℚ) (s s' : Scheme (Extended ℚ)) : Bool :=
  match s'.expand x with
  | .ok v =>
    x.size = Layout.length s.extents && (v.values .initialTime).get 0 = initial &&
      (v.values .finalTime).get 0 = final &&
      (s'.createTimes initial final).toOption = some times &&
      (List.range points.size).all (fun i =>
        worth? p.integralCosts (pointValues points v.values i) = some (value i)) &&
      worth? p.endpointCosts (endValues v.values (points.size - 1)) = some ends
  | _ => false

theorem exists_of_hasCosts {p : Problem (Extended ℚ)} {points x : Array (Extended ℚ)}
    {times : Array (Extended ℚ)} {initial final ends : Extended ℚ} {value : Nat → Extended ℚ}
    {s s' : Scheme (Extended ℚ)}
    (h : hasCosts p points x initial final times value ends s s') :
    ∃ v, s'.expand x = .ok v ∧ x.size = Layout.length s.extents ∧
      (v.values .initialTime).get 0 = initial ∧ (v.values .finalTime).get 0 = final ∧
      (s'.createTimes initial final).toOption = some times ∧
      (∀ i < points.size,
        worth? p.integralCosts (pointValues points v.values i) = some (value i)) ∧
      worth? p.endpointCosts (endValues v.values (points.size - 1)) = some ends := by
  unfold hasCosts at h
  split at h
  · next v hv =>
    simp only [Bool.and_eq_true, decide_eq_true_iff, List.all_eq_true, List.mem_range] at h
    obtain ⟨⟨⟨⟨⟨hx, hinitial⟩, hfinal⟩, htimes⟩, hvalues⟩, hends⟩ := h
    exact ⟨v, hv, hx, hinitial, hfinal, htimes, hvalues, hends⟩
  · cases h

/-- Between one and zero, with a kink in the middle. -/
theorem piecewisePolynomial_min {time : Nat → ℚ} (hfirst : time 0 = 1) (hmiddle : time 1 = 1 / 2)
    (hlast : time 2 = 0) :
    PiecewisePolynomial 1 2 (fun k => (time k : ℝ)) fun t => min 4 (6 - 4 * t) := by
  intro k hk
  obtain rfl | rfl : k = 0 ∨ k = 1 := by omega
  · refine ⟨6 - 4 * X, by compute_degree, ?_⟩
    intro t ht
    simp only [hfirst, hmiddle, Set.mem_uIcc] at ht
    norm_num at ht
    have hless : 6 - 4 * t ≤ 4 := by
      rcases ht with ht | ht
      all_goals linarith
    simp [hless]
  · refine ⟨C 4, by rw [natDegree_C]; omega, ?_⟩
    intro t ht
    simp only [hlast, hmiddle, Set.mem_uIcc] at ht
    norm_num at ht
    have hmore : 4 ≤ 6 - 4 * t := by
      rcases ht with ht | ht
      all_goals linarith
    simp [hmore]

/-- Backwards in time, the cost first grows and then stays as it is. -/
theorem objective_eq_integral_slide :
    ∃ s s' y, trapezoidal (.standard none) pricedSlide (.whole 3) = .ok s ∧
      transcribe pricedSlide s = .ok () s' ∧
      s'.evaluate s'.objective (.column (#[1, 0, 0, 1, 1, 1, 1, 1].map finite)) =
        .ok #[finite y] ∧
      (y : ℝ) = (∫ t in (1 : ℝ)..0, min 4 (6 - 4 * t)) + 3 := by
  let time : Nat → ℚ := fun i => #[1, 1 / 2, 0].getD i 0
  have hpasses : transcribesTo pricedSlide (trapezoidal (.standard none) pricedSlide (.whole 3))
      (hasCosts pricedSlide (evenPoints 3) (#[1, 0, 0, 1, 1, 1, 1, 1].map finite) (finite 1)
        (finite 0) (#[1, 1 / 2, 0].map finite) (fun i => finite (#[2, 4, 4].getD i 0))
        (finite 3)) := by
    decide +kernel
  obtain ⟨s, s', hs, hs', hcheck⟩ := exists_of_transcribesTo hpasses
  obtain ⟨v, hv, hx, hinitial, hfinal, htimes, hvalues, hends⟩ := exists_of_hasCosts hcheck
  rw [Array.size_map] at hx
  have hcircle : Circular ℚ := by
    intro a y z hsin
    cases a <;> cases hsin
  have hmesh : Mesh.ofLiteral (.whole 3) = .ok (evenPoints 3 : Array (Extended ℚ)) := rfl
  obtain ⟨-, hall⟩ := objective_eq_integral (b := .trapezoidal) hcircle hmesh (by decide +kernel)
    hs hs'
  obtain ⟨v', t₀, t₁, times', time', meshTime, hv', ht₀, ht₁, htimes', hsize, htime, hmeshTime,
    hexact⟩ := hall #[1, 0, 0, 1, 1, 1, 1, 1] hx
  cases hv.symm.trans hv'
  cases hinitial.symm.trans ht₀
  cases hfinal.symm.trans ht₁
  rw [htimes'] at htimes
  cases Option.some.inj htimes
  -- both the grid times and the mesh times are the given ones
  have htime' : ∀ i < 3, time' i = time i := by
    intro i hi
    have hget := htime i (by simpa using hi)
    rw [getD_map_finite] at hget
    exact (Extended.finite.inj hget).symm
  have hmeshTime' : ∀ k < 3, meshTime k = time k := by
    have hsame : ∀ k < 3, (timesBetween (evenPoints 3) (finite 1) (finite 0)).getD k default =
        (finite (time k) : Extended ℚ) := by
      decide +kernel
    intro k hk
    exact Extended.finite.inj ((hmeshTime k (by simpa [evenPoints] using hk)).symm.trans
      (hsame k hk))
  have hpiecewise := piecewisePolynomial_min (hmeshTime' 0 (by omega)) (hmeshTime' 1 (by omega))
    (hmeshTime' 2 (by omega))
  have hcosts : ∀ i < 3, min 4 (6 - 4 * (time' i : ℝ)) = (#[2, 4, 4].getD i 0 : ℚ) := by
    intro i hi
    rw [htime' i hi]
    interval_cases i <;> norm_num [time]
  obtain ⟨y, hy, hsum⟩ := hexact (Rat.castHom ℝ) _ (fun i => #[2, 4, 4].getD i 0) 3 hpiecewise
    (fun i hi => ⟨hvalues i (by simpa [evenPoints] using hi), hcosts i (by simpa using hi)⟩)
    (by simpa [evenPoints] using hends)
  rw [map_one, map_zero, map_ofNat, eq_ratCast] at hsum
  exact ⟨s, s', y, hs, hs', hy, hsum⟩

end Scheme
end Collocation
