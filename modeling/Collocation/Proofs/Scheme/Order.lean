import Collocation.Proofs.PolynomialRules
import Collocation.Proofs.Scheme.Transcribed
import Collocation.Proofs.Times

/-! # The order of the schemes

  A built-in rule makes no error on polynomials of low degree. Where the states are values of such
  polynomials at the times of the grid, and the dynamics at every grid point are the derivatives of
  the polynomials, all defects are zero. Nothing else in the decision vector matters, and neither
  does the direction of time. -/

namespace Collocation

open Extended Polynomial

/-- The highest degree of states for which the rule has no error. -/
def BuiltIn.order : BuiltIn → Nat
  | trapezoidal => 2
  | hermiteSimpson _ => 3

variable {K : Type} [Field K] [LinearOrder K] [FloorRing K] [Interpretation K]
  {p : Problem (Extended K)} {points mesh : Array (Extended K)}
  {env : Kind → Matrix (Extended K)} {s s' : Scheme (Extended K)}

/-! ## The defects of the rules -/

/-- The states at the grid points are values of polynomials in time, and the dynamics there are
    the values of their derivatives. -/
def SamplesPolynomials (p : Problem (Extended K)) (points : Array (Extended K)) (time : Nat → K)
    (v : Kind → Matrix (Extended K)) (P : Nat → K[X]) : Prop :=
  ∃ F, DynamicsAt p points v F ∧ ∀ i < points.size, ∀ r < p.states.length,
    (v .states).entry r i = finite ((P r).eval (time i)) ∧
      (F i).get r = finite ((P r).derivative.eval (time i))

section Rules

variable {q : Nat → K} {initial final : K} {P : Nat → K[X]}

/-- The states follow the trapezoidal rule where they are quadratic. -/
theorem trapezoidalStates_of_samples (hpoints : ∀ i, points.getD i default = finite (q i))
    (hduration : durationBetween env = finite (final - initial))
    (hdegree : ∀ r < p.states.length, (P r).natDegree ≤ 2)
    (h : SamplesPolynomials p points (timeLaw q initial final) env P) :
    TrapezoidalStates p points env := by
  obtain ⟨F, hF, hsamples⟩ := h
  refine ⟨F, hF, ?_⟩
  intro k hk r hr
  obtain ⟨hx₀, hf₀⟩ := hsamples k (by omega) r hr
  obtain ⟨hx₁, hf₁⟩ := hsamples (k + 1) (by omega) r hr
  have htwo : ((2 : Int) : K) ≠ 0 := by norm_num
  have hexact := eval_sub_eval_eq_trapezoid (hdegree r hr) (timeLaw q initial final k)
    (timeLaw q initial final (k + 1))
  rw [timeLaw_sub] at hexact
  rw [hx₀, hx₁, hf₀, hf₁, hduration, hpoints, hpoints, ofInt_eq, finite_sub, finite_sub,
    finite_mul, finite_div _ htwo, finite_add, finite_mul, hexact]
  norm_num

/-- The states follow Hermite interpolation and Simpson's rule where they are cubic. -/
theorem hermiteSimpsonStates_of_samples
    (hpoints : ∀ i, (withMidpoints mesh).getD i default = finite (q i))
    (hduration : durationBetween env = finite (final - initial))
    (hdegree : ∀ r < p.states.length, (P r).natDegree ≤ 3)
    (h : SamplesPolynomials p (withMidpoints mesh) (timeLaw q initial final) env P) :
    HermiteSimpsonStates p mesh env := by
  obtain ⟨F, hF, hsamples⟩ := h
  have hgrid : (withMidpoints mesh).size = 2 * mesh.size - 1 := size_withMidpoints
  refine ⟨F, hF, ?_⟩
  intro k hk r hr
  obtain ⟨hx₀, hf₀⟩ := hsamples (2 * k) (by omega) r hr
  obtain ⟨hxₘ, hfₘ⟩ := hsamples (2 * k + 1) (by omega) r hr
  obtain ⟨hx₁, hf₁⟩ := hsamples (2 * k + 2) (by omega) r hr
  -- the mesh points are grid points with even indices, with their middle between them
  have hleft : mesh.getD k default = finite (q (2 * k)) := by
    rw [← hpoints, getD_withMidpoints_even (by omega)]
  have hright : mesh.getD (k + 1) default = finite (q (2 * k + 2)) := by
    rw [← hpoints, show 2 * k + 2 = 2 * (k + 1) by ring, getD_withMidpoints_even (by omega)]
  have hmiddle : q (2 * k + 1) = 1 / 2 * (q (2 * k) + q (2 * k + 2)) := by
    have hodd : (withMidpoints mesh).getD (2 * k + 1) default =
        Number.half * (mesh.getD k default + mesh.getD (k + 1) default) :=
      getD_withMidpoints_odd (by omega)
    rw [hpoints, hleft, hright, half_eq, finite_add, finite_mul] at hodd
    exact Extended.finite.inj hodd
  have hstep : meshStep mesh env k = finite
      (timeLaw q initial final (2 * k + 2) - timeLaw q initial final (2 * k)) := by
    rw [meshStep, hduration, hleft, hright, finite_sub, finite_mul, timeLaw_sub]
  have htwo : ((2 : Int) : K) ≠ 0 := by norm_num
  have hsix : ((6 : Int) : K) ≠ 0 := by norm_num
  have height : ((8 : Int) : K) ≠ 0 := by norm_num
  rw [timeLaw_middle hmiddle] at hxₘ hfₘ
  rw [hx₀, hx₁, hxₘ, hf₀, hf₁, hfₘ, hstep]
  simp only [ofInt_eq, finite_add, finite_sub, finite_mul, finite_div _ htwo, finite_div _ hsix,
    finite_div _ height]
  constructor
  · rw [eval_middle_eq_hermite (hdegree r hr)]
    norm_num
  · rw [← sub_add_cancel ((P r).eval (timeLaw q initial final (2 * k + 2)))
      ((P r).eval (timeLaw q initial final (2 * k))),
      eval_sub_eval_eq_simpson ((hdegree r hr).trans (by norm_num)), add_comm]
    norm_num

end Rules

/-- The states follow the rule where their degrees are at most its order. -/
theorem BuiltIn.states_of_samples {b : BuiltIn} {q : Nat → K} {initial final : K}
    {P : Nat → K[X]}
    (hpoints : ∀ i, (b.grid mesh).getD i default = finite (q i))
    (hduration : durationBetween env = finite (final - initial))
    (hdegree : ∀ r < p.states.length, (P r).natDegree ≤ b.order)
    (h : SamplesPolynomials p (b.grid mesh) (timeLaw q initial final) env P) :
    b.States p mesh env := by
  cases b with
  | trapezoidal => exact trapezoidalStates_of_samples hpoints hduration hdegree h
  | hermiteSimpson tieControls =>
    exact hermiteSimpsonStates_of_samples hpoints hduration hdegree h

namespace Scheme

/-! ## The whole transcription -/

variable {b : BuiltIn} {settings : Settings (Extended K)} {literal : Literal (Extended K)}

/-- A transcribed scheme has zero defects at every decision vector whose states are values, at the
    times between the end times in the vector, of polynomials with degrees up to the order of its
    rule and with the dynamics as derivatives. -/
theorem defects_vanish_of_samples (hmesh : Mesh.ofLiteral literal = .ok mesh)
    (hdefined : ∀ x ∈ mesh, x ≠ undefined) (hs : b.scheme settings p literal = .ok s)
    (h : transcribe p s = .ok () s') (x : Array K) (hx : x.size = Layout.length s.extents) :
    ∃ g v times time, s'.evaluateConstraints (.column (x.map finite)) = .ok g ∧
      s'.expand (x.map finite) = .ok v ∧
      s'.createTimes ((v.values .initialTime).get 0) ((v.values .finalTime).get 0) = .ok times ∧
      times.size = (b.grid mesh).size ∧
      (∀ i < times.size, times.getD i default = finite (time i)) ∧
      b.defectCount p mesh ≤ g.size ∧
      ∀ P : Nat → K[X], (∀ r < p.states.length, (P r).natDegree ≤ b.order) →
        SamplesPolynomials p (b.grid mesh) time v.values P →
          ∀ i < b.defectCount p mesh, g.getD i default = finite 0 := by
  obtain ⟨s₁, hfrom, hextents⟩ := BuiltIn.exists_from hmesh hdefined hs h
  obtain ⟨Γ, hfull⟩ := hfrom.exists_extents
  have hlength : (x.map finite).size = Layout.length s'.extents := by
    rw [Array.size_map, hextents, hx]
  have hready := hfrom.ready x
  obtain ⟨t₀, ht₀⟩ := hready.finite_values .initialTime 0
  obtain ⟨t₁, ht₁⟩ := hready.finite_values .finalTime 0
  choose q hq using hready.finite_points
  have hduration : durationBetween (s'.valuesOf (x.map finite)) = finite (t₁ - t₀) := by
    rw [durationBetween, ht₀, ht₁, finite_sub]
  obtain ⟨hcount, hvanishing⟩ := hfrom.vanishing_iff x
  refine ⟨_, _, _, timeLaw q t₀ t₁, evaluateConstraints_eq hfull hlength, expand_eq hlength,
    hfrom.createTimes _ _, ?_, ?_, hcount, ?_⟩
  · simp [timesBetween]
  · intro i hi
    have hi' : i < (b.grid mesh).size := by simpa [timesBetween] using hi
    change (timesBetween _ ((s'.valuesOf (x.map finite) .initialTime).get 0)
      ((s'.valuesOf (x.map finite) .finalTime).get 0)).getD i default = _
    rw [ht₀, ht₁]
    exact getD_timesBetween hi' (hq i) t₀ t₁
  · intro P hdegree hsamples
    exact hvanishing.mpr (BuiltIn.states_of_samples hq hduration hdegree hsamples)

/-- In a decision vector are the given values of the states at the given times, and of the dynamics
    there. -/
def hasSamples (p : Problem (Extended ℚ)) (points x times : Array (Extended ℚ))
    (state slope : Nat → Nat → Extended ℚ) (s s' : Scheme (Extended ℚ)) : Bool :=
  match s'.expand x, p.dynamicsFunction with
  | .ok v, .ok f =>
    x.size = Layout.length s.extents &&
      (s'.createTimes ((v.values .initialTime).get 0) ((v.values .finalTime).get 0)).toOption =
        some times &&
      (List.range points.size).all fun i =>
        match f.evaluate (pointValues points v.values i) with
        | .ok [m] => (List.range p.states.length).all fun r =>
          (v.values .states).entry r i = state r i && m.get r = slope r i
        | _ => false
  | _, _ => false

theorem exists_of_hasSamples {p : Problem (Extended ℚ)} {points x times : Array (Extended ℚ)}
    {state slope : Nat → Nat → Extended ℚ} {s s' : Scheme (Extended ℚ)}
    (h : hasSamples p points x times state slope s s') :
    ∃ v F, s'.expand x = .ok v ∧ x.size = Layout.length s.extents ∧
      s'.createTimes ((v.values .initialTime).get 0) ((v.values .finalTime).get 0) = .ok times ∧
      DynamicsAt p points v.values F ∧ ∀ i < points.size, ∀ r < p.states.length,
        (v.values .states).entry r i = state r i ∧ (F i).get r = slope r i := by
  unfold hasSamples at h
  split at h
  · next v f hv hf =>
    simp only [Bool.and_eq_true, decide_eq_true_iff, List.all_eq_true, List.mem_range] at h
    obtain ⟨⟨hx, htimes⟩, hpoints⟩ := h
    have hvalues : ∀ i < points.size, ∃ m, f.evaluate (pointValues points v.values i) = .ok [m] ∧
        ∀ r < p.states.length,
          (v.values .states).entry r i = state r i ∧ m.get r = slope r i := by
      intro i hi
      have hpoint := hpoints i hi
      split at hpoint
      · next m hm =>
        simp only [Bool.and_eq_true, decide_eq_true_iff, List.all_eq_true, List.mem_range] at hpoint
        exact ⟨m, hm, hpoint⟩
      · cases hpoint
    have : Nonempty (Matrix (Extended ℚ)) := ⟨v.values .states⟩
    choose! F hF using hvalues
    exact ⟨v, F, hv, hx, eq_ok_of_toOption htimes, ⟨f, hf, fun i hi => (hF i hi).1⟩,
      fun i hi => (hF i hi).2⟩
  · cases h

/-- A cubic way back from one to zero, at the control that is its speed. -/
theorem defects_vanish_of_samples_slide :
    ∃ s s' g v,
      hermiteSimpson (.standard none) slide (.whole 2) false = .ok s ∧
      transcribe slide s = .ok () s' ∧
      s'.evaluateConstraints (.column (#[1, 0, 1, 1 / 8, 0, 3, 3 / 4, 0].map finite)) = .ok g ∧
      s'.expand (#[1, 0, 1, 1 / 8, 0, 3, 3 / 4, 0].map finite) = .ok v ∧ 2 ≤ g.size ∧
      g.getD 0 default = finite 0 ∧ g.getD 1 default = finite 0 := by
  let time : Nat → ℚ := fun i => #[1, 1 / 2, 0].getD i 0
  have hpasses : transcribesTo slide (hermiteSimpson (.standard none) slide (.whole 2) false)
      (hasSamples slide (withMidpoints (evenPoints 2))
        (#[1, 0, 1, 1 / 8, 0, 3, 3 / 4, 0].map finite) (#[1, 1 / 2, 0].map finite)
        (fun _ i => finite (time i ^ 3)) fun _ i => finite (3 * time i ^ 2)) := by
    decide +kernel
  obtain ⟨s, s', hs, hs', hcheck⟩ := exists_of_transcribesTo hpasses
  obtain ⟨v, F, hv, hx, htimes, hF, hsamples⟩ := exists_of_hasSamples hcheck
  rw [Array.size_map] at hx
  have hmesh : Mesh.ofLiteral (.whole 2) = .ok (evenPoints 2 : Array (Extended ℚ)) := rfl
  obtain ⟨g, v', times', time', hg, hv', htimes', hsize, htime, hcount, hzero⟩ :=
    defects_vanish_of_samples (b := .hermiteSimpson false) hmesh (by decide +kernel) hs hs'
      #[1, 0, 1, 1 / 8, 0, 3, 3 / 4, 0] hx
  cases hv.symm.trans hv'
  cases htimes.symm.trans htimes'
  -- the times of the scheme are the given ones
  have hsame : ∀ i < (withMidpoints (evenPoints 2 : Array (Extended ℚ))).size,
      time' i = time i := by
    intro i hi
    have hget := htime i (hsize ▸ hi)
    rw [getD_map_finite] at hget
    exact (Extended.finite.inj hget).symm
  have hcubic : SamplesPolynomials slide (withMidpoints (evenPoints 2)) time' v.values
      fun _ => X ^ 3 := by
    refine ⟨F, hF, ?_⟩
    intro i hi r hr
    rw [hsame i hi, (hsamples i hi r hr).1, (hsamples i hi r hr).2]
    norm_num
  have hall := hzero (fun _ => X ^ 3) (fun _ _ => natDegree_X_pow_le 3) hcubic
  exact ⟨s, s', g, v, hs, hs', hg, hv, hcount, hall 0 Nat.two_pos, hall 1 Nat.one_lt_two⟩

end Scheme
end Collocation
