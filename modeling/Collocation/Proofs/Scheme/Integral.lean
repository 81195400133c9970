import Collocation.Proofs.Scheme.HermiteSimpson
import Collocation.Proofs.Scheme.Objective
import Collocation.Proofs.Scheme.Steps
import Collocation.Proofs.Scheme.Trapezoidal

/-! # Defects and weights

  The defects of a built-in rule and its quadrature weights integrate in the same way. Where all
  defects are zero, the states change from the first grid point to the last by the duration times
  the weighted sum of their derivatives. So a state whose derivative is the integrand carries the
  integral: the objective is what the costs at the ends are, and added to them the change of that
  state. -/

namespace Collocation

open Extended Finset

variable {K : Type} [Field K] [LinearOrder K] [FloorRing K] [Interpretation K]
  {p : Problem (Extended K)} {points mesh weights : Array (Extended K)}
  {env : Kind → Matrix (Extended K)} {s s' : Scheme (Extended K)}

/-- There is a finite weight for every grid point, the derivatives are finite there, and the states
    change by the duration times their weighted sum. -/
structure Integrates (p : Problem (Extended K)) (points weights : Array (Extended K))
    (v : Kind → Matrix (Extended K)) : Prop where
  size : weights.size = points.size
  finite_weights : ∀ k < points.size, ∃ y, weights.getD k default = finite y
  states : ∃ F, DynamicsAt p points v F ∧ ∀ r < p.states.length,
    (∀ k < points.size, ∃ y, (F k).get r = finite y) ∧
      (v .states).entry r (points.size - 1) - (v .states).entry r 0 =
        durationBetween v * weightedSum weights fun k => (F k).get r

/-! ## Telescoping -/

/-- The trapezoidal rule integrates with its weights. -/
theorem TrapezoidalStates.integrates (hs : Ready p points env s)
    (hweights : trapezoidalWeights points.size [points.size - 1] (differences points) = .ok weights)
    (h : TrapezoidalStates p points env) : Integrates p points weights env := by
  obtain ⟨F, hF, hstep⟩ := h
  have hsize := hs.two_le
  obtain ⟨d, hd⟩ := hs.duration_finite
  choose q hq using hs.finite_points
  obtain ⟨hwsize, hw⟩ := trapezoidalWeights_eq_ok hq hweights
  refine ⟨hwsize, fun k hk => ⟨_, hw k hk⟩, F, hF, ?_⟩
  intro r hr
  choose x hx using hs.entry_finite .states r
  have htwo : ((2 : Int) : K) ≠ 0 := by norm_num
  have hrule : ∀ k < points.size - 1, (finite (x (k + 1) - x k) : Extended K) =
      finite (d * halfStep q k) * ((F k).get r + (F (k + 1)).get r) := by
    intro k hk
    have hchange := hstep k hk r hr
    rw [hx, hx, hd, hq, hq, finite_sub, finite_sub, finite_mul, ofInt_eq, finite_div _ htwo]
      at hchange
    rw [hchange, halfStep, ← mul_div_assoc]
    norm_num
  obtain ⟨slope, hslope, hchanges⟩ := slopes_of_trapezoidal (by omega) hrule
  rw [Nat.sub_add_cancel (by omega)] at hslope
  refine ⟨fun k hk => ⟨slope k, hslope k hk⟩, ?_⟩
  have hsum := trapezoidal_telescopes hchanges
  rw [Nat.sub_add_cancel (by omega)] at hsum
  rw [hx, hx, finite_sub, hd, weightedSum_finite hwsize hw hslope, finite_mul, hsum]

/-- Simpson's rule integrates with its weights. -/
theorem HermiteSimpsonStates.integrates (hs : Ready p (withMidpoints mesh) env s)
    (hmesh : ∀ i, ∃ x, mesh.getD i default = finite x) (h : HermiteSimpsonStates p mesh env) :
    Integrates p (withMidpoints mesh) (simpsonWeights mesh) env := by
  obtain ⟨F, hF, hstep⟩ := h
  have hgrid : (withMidpoints mesh).size = 2 * mesh.size - 1 := size_withMidpoints
  have hsize := hs.two_le
  obtain ⟨d, hd⟩ := hs.duration_finite
  choose q hq using hmesh
  have hwsize : (simpsonWeights mesh).size = (withMidpoints mesh).size := by
    simp [simpsonWeights, hgrid]
  have hw : ∀ i < (withMidpoints mesh).size, (simpsonWeights mesh).getD i default =
      finite (simpsonShare (mesh.size - 1) (fun k => q (k + 1) - q k) i) := by
    intro i hi
    exact getD_simpsonWeights hq (by omega)
  refine ⟨hwsize, fun i hi => ⟨_, hw i hi⟩, F, hF, ?_⟩
  intro r hr
  choose x hx using hs.entry_finite .states r
  have hsix : ((6 : Int) : K) ≠ 0 := by norm_num
  have hrule : ∀ k < mesh.size - 1, (finite (x (2 * k + 2) - x (2 * k)) : Extended K) =
      finite (d * (q (k + 1) - q k) / 6) *
        ((F (2 * k)).get r + finite 4 * (F (2 * k + 1)).get r + (F (2 * k + 2)).get r) := by
    intro k hk
    have hchange := (hstep k hk r hr).2
    rw [hx, hx, meshStep, hd, hq, hq, finite_sub, finite_mul, ofInt_eq, ofInt_eq,
      finite_div _ hsix] at hchange
    rw [finite_sub_eq_iff, hchange]
    norm_num
  have hpositive : 0 < mesh.size - 1 := by omega
  obtain ⟨slope, hslope, hchanges⟩ :=
    slopes_of_simpson (x := x) (φ := fun i => (F i).get r) hpositive hrule
  have hodd : 2 * (mesh.size - 1) + 1 = (withMidpoints mesh).size := by omega
  have hlast : 2 * (mesh.size - 1) = (withMidpoints mesh).size - 1 := by omega
  rw [hodd] at hslope
  refine ⟨fun i hi => ⟨slope i, hslope i hi⟩, ?_⟩
  have hsum := simpson_telescopes hchanges
  rw [hodd, hlast] at hsum
  rw [hx, hx, finite_sub, hd, weightedSum_finite hwsize hw hslope, finite_mul, hsum]

namespace Scheme

/-! ## Weights of a prepared scheme -/

theorem quadratureWeights_trapezoidal (hs : Ready p points env s)
    (hrule : s.rule = .trapezoidal mesh) (h : s.quadratureWeights = .ok weights) :
    trapezoidalWeights points.size [points.size - 1] (differences points) = .ok weights := by
  have hw := quadratureWeights_eq_ok h
  unfold Rule.quadratureWeights at hw
  rw [hrule, hs.grid, hs.gridPoints] at hw
  simp only [Tensor.written_vector] at hw
  exact hw

theorem quadratureWeights_hermiteSimpson {tieControls : Bool}
    (hrule : s.rule = .hermiteSimpson mesh tieControls) (h : s.quadratureWeights = .ok weights) :
    weights = simpsonWeights mesh := by
  have hw := quadratureWeights_eq_ok h
  unfold Rule.quadratureWeights at hw
  rw [hrule] at hw
  exact (Except.ok.inj hw).symm

/-! ## Defects of a transcribed scheme -/

/-- The first equations of a trapezoidal scheme are the defects. -/
theorem trapezoidal_vanishing_iff (hs : Ready p points env s)
    (hprepared : s.Prepared (.trapezoidal mesh) p) (h : applyRule p s = .ok () s') :
    (points.size - 1) * p.states.length ≤ (s'.constraintValues env).size ∧
      ((∀ i < (points.size - 1) * p.states.length,
        (s'.constraintValues env).getD i default = finite 0) ↔ TrapezoidalStates p points env) := by
  obtain ⟨f, fs, s₁, hf, hslopes, hdefects, hfamilies⟩ :=
    applyRule_trapezoidal_eq_ok hs hprepared h
  have hadds := adds_appendTrapezoidal (testsZero_vanishes env) (hs.withDynamics f) hf hslopes
    hdefects
  -- the families come after the defects
  obtain ⟨rest, hrest⟩ := (steady_appendFamilies.later_of_ok hfamilies).blocks
  exact ⟨hadds.le_size hprepared.blocks hrest.symm, hadds.vanishes hprepared.blocks hrest.symm⟩

/-- The first equations of a Hermite-Simpson scheme are the defects. -/
theorem hermiteSimpson_vanishing_iff {tieControls : Bool}
    (hmesh : ∀ i, ∃ x, mesh.getD i default = finite x)
    (hs : Ready p (withMidpoints mesh) env s)
    (hprepared : s.Prepared (.hermiteSimpson mesh tieControls) p)
    (h : applyRule p s = .ok () s') :
    (mesh.size - 1) * (2 * p.states.length) ≤ (s'.constraintValues env).size ∧
      ((∀ i < (mesh.size - 1) * (2 * p.states.length),
        (s'.constraintValues env).getD i default = finite 0) ↔
          HermiteSimpsonStates p mesh env) := by
  obtain ⟨f, fs, s₁, s₂, hf, hslopes, hdefects, hties, hfamilies⟩ :=
    applyRule_hermiteSimpson_eq_ok hs hprepared h
  have hadds := adds_appendHermiteSimpson (testsZero_vanishes env) hmesh (hs.withDynamics f) hf
    hslopes hdefects
  -- the ties of the controls and the families come after the defects
  have hties' : s₁.blocks <+: s₂.blocks := by
    rcases hties with ⟨-, htie⟩ | ⟨-, rfl⟩
    · exact (steady_appendMidpointControls.later_of_ok htie).blocks
    · exact List.prefix_rfl
  obtain ⟨rest, hrest⟩ := hties'.trans (steady_appendFamilies.later_of_ok hfamilies).blocks
  exact ⟨hadds.le_size hprepared.blocks hrest.symm, hadds.vanishes hprepared.blocks hrest.symm⟩

end Scheme

/-! ## Both rules -/

/-- The rules that are built in. -/
inductive BuiltIn where
  | trapezoidal
  | hermiteSimpson (tieControls : Bool)

namespace BuiltIn

variable {α : Type} [Number α]

/-- A scheme of the rule for a problem. -/
def scheme (settings : Settings α) (p : Problem α) (mesh : Literal α) :
    BuiltIn → Except (Fault α) (Scheme α)
  | trapezoidal => Scheme.trapezoidal settings p mesh
  | hermiteSimpson tieControls => Scheme.hermiteSimpson settings p mesh tieControls

/-- The rule on an accepted mesh. -/
def rule (mesh : Array α) : BuiltIn → Rule α
  | trapezoidal => .trapezoidal mesh
  | hermiteSimpson tieControls => .hermiteSimpson mesh tieControls

/-- The grid points of the rule on an accepted mesh. -/
def grid (mesh : Array α) : BuiltIn → Array α
  | trapezoidal => mesh
  | hermiteSimpson _ => withMidpoints mesh

omit [Number α] in
/-- The number of equations that tie the states to the dynamics. They come before all others. -/
def defectCount (p : Problem α) (mesh : Array α) : BuiltIn → Nat
  | trapezoidal => (mesh.size - 1) * p.states.length
  | hermiteSimpson _ => (mesh.size - 1) * (2 * p.states.length)

variable {b : BuiltIn} {settings : Settings α} {p : Problem α} {literal : Literal α}
  {mesh : Array α} {s : Scheme α}

theorem createVariables_eq_ok (hmesh : Mesh.ofLiteral literal = .ok mesh)
    (h : b.scheme settings p literal = .ok s) :
    Scheme.createVariables p
      (.start (b.rule mesh) settings (b.grid mesh).size (some (.vector (b.grid mesh)))) =
        .ok () s := by
  cases b with
  | trapezoidal => exact Scheme.createVariables_of_trapezoidal hmesh h
  | hermiteSimpson tieControls => exact Scheme.createVariables_of_hermiteSimpson hmesh h

/-- The mesh of a built-in scheme was accepted. -/
theorem exists_mesh (h : b.scheme settings p literal = .ok s) :
    ∃ points, Mesh.ofLiteral literal = .ok points := by
  cases b with
  | trapezoidal =>
    obtain ⟨points, hpoints, -⟩ := bind_eq_ok h
    exact ⟨points, hpoints⟩
  | hermiteSimpson tieControls =>
    obtain ⟨points, hpoints, -⟩ := bind_eq_ok h
    exact ⟨points, hpoints⟩

theorem fresh (hmesh : Mesh.ofLiteral literal = .ok mesh)
    (h : b.scheme settings p literal = .ok s) : s.Fresh (b.rule mesh) (b.grid mesh) p :=
  Scheme.fresh_of_createVariables (createVariables_eq_ok hmesh h)

end BuiltIn

namespace BuiltIn

variable {b : BuiltIn}

/-- The grid of an accepted mesh without undefined points. -/
theorem finite_grid (b : BuiltIn) (hsize : 2 ≤ mesh.size)
    (hmesh : ∀ i, ∃ x, mesh.getD i default = finite x) :
    2 ≤ (b.grid mesh).size ∧ ∀ i, ∃ x, (b.grid mesh).getD i default = finite x := by
  cases b with
  | trapezoidal => exact ⟨hsize, hmesh⟩
  | hermiteSimpson tieControls =>
    refine ⟨?_, getD_finite_withMidpoints hmesh⟩
    show 2 ≤ (withMidpoints mesh).size
    rw [size_withMidpoints]
    omega

/-- The grid points of the rule on mesh points that are numbers. -/
def gridNumber (q : Nat → K) : BuiltIn → Nat → K
  | trapezoidal => q
  | hermiteSimpson _ => midpointed q

theorem isMesh_grid [IsStrictOrderedRing K] {q : Nat → K} (h : IsMesh mesh q) :
    IsMesh (b.grid mesh) (b.gridNumber q) := by
  cases b with
  | trapezoidal => exact h
  | hermiteSimpson tieControls => exact h.withMidpoints

/-- Where all defects of a built-in rule are zero, it integrates with its weights. -/
theorem integrates (hmesh : ∀ i, ∃ x, mesh.getD i default = finite x)
    (hs : Ready p (b.grid mesh) env s) (hprepared : s.Prepared (b.rule mesh) p)
    (hweights : s.quadratureWeights = .ok weights) (h : Scheme.applyRule p s = .ok () s')
    (hzero : ∀ i < b.defectCount p mesh, (s'.constraintValues env).getD i default = finite 0) :
    Integrates p (b.grid mesh) weights env := by
  cases b with
  | trapezoidal =>
    have hw := Scheme.quadratureWeights_trapezoidal hs hprepared.rule hweights
    exact ((Scheme.trapezoidal_vanishing_iff hs hprepared h).2.mp hzero).integrates hs hw
  | hermiteSimpson tieControls =>
    rw [Scheme.quadratureWeights_hermiteSimpson hprepared.rule hweights]
    have hstates := (Scheme.hermiteSimpson_vanishing_iff hmesh hs hprepared h).2.mp hzero
    exact hstates.integrates hs hmesh

end BuiltIn

namespace Scheme

/-! ## The whole transcription -/

variable {b : BuiltIn} {settings : Settings (Extended K)} {literal : Literal (Extended K)}

/-- Where all defects of a transcribed scheme are zero, the states change from the first grid point
    to the last by the duration times the sum of their derivatives, weighted with the quadrature
    weights. If one of the derivatives is the integrand of the problem, the objective is the costs
    at the ends with the change of that state added to them. -/
theorem defects_integrate (hmesh : Mesh.ofLiteral literal = .ok mesh)
    (hdefined : ∀ x ∈ mesh, x ≠ undefined) (hs : b.scheme settings p literal = .ok s)
    (h : transcribe p s = .ok () s') (x : Array K) (hx : x.size = Layout.length s.extents) :
    ∃ g v, s'.evaluateConstraints (.column (x.map finite)) = .ok g ∧
      s'.expand (x.map finite) = .ok v ∧
      ((∀ i < b.defectCount p mesh, g.getD i default = finite 0) →
        ∃ w F, s'.quadratureWeights = .ok w ∧ DynamicsAt p (b.grid mesh) v.values F ∧
          ∀ r < p.states.length,
            (v.values .states).entry r ((b.grid mesh).size - 1) - (v.values .states).entry r 0 =
                durationBetween v.values * weightedSum w (fun i => (F i).get r) ∧
              ∀ L, p.integrandFunction = .ok L →
                (∀ i < (b.grid mesh).size,
                  L.evaluate (pointValues (b.grid mesh) v.values i) = .ok [.unit ((F i).get r)]) →
                ∃ ends E, p.endpointCostFunction = .ok ends ∧
                  ends.evaluate (endValues v.values ((b.grid mesh).size - 1)) = .ok [E] ∧
                  s'.evaluate s'.objective (.column (x.map finite)) =
                    .ok (E.data.map
                      ((v.values .states).entry r ((b.grid mesh).size - 1) -
                        (v.values .states).entry r 0 + ·))) := by
  have hfresh := b.fresh hmesh hs
  obtain ⟨hsize, hfinite⟩ := Mesh.finite_of_literal hmesh hdefined
  obtain ⟨hgridSize, hgrid⟩ := b.finite_grid hsize hfinite
  obtain ⟨s₁, s₂, hprepare, happly, hs'⟩ := transcribe_eq_ok h
  have hready := hfresh.ready hgridSize hgrid x hprepare
  obtain ⟨hprepared, hextents⟩ := hfresh.prepared hprepare
  obtain ⟨w, hw, hobjective⟩ := hprepared.objective
  -- the constraints leave everything else as it was prepared
  have hlater := steady_applyRule.later_of_ok happly
  have hextents' : s'.extents = s₁.extents := by rw [hs', ← hlater.extents]
  have hlength : (x.map finite).size = Layout.length s'.extents := by
    rw [Array.size_map, hextents', hextents, hx]
  have hvalues : s'.valuesOf (x.map finite) = s₁.valuesOf (x.map finite) := by
    rw [valuesOf, hextents', valuesOf]
  have hfull := hextents'.trans hready.extents
  refine ⟨_, _, evaluateConstraints_eq hfull hlength, expand_eq hlength, ?_⟩
  intro hzero
  have hcut : (Layout.cut s'.extents (x.map finite)).values = s₁.valuesOf (x.map finite) := hvalues
  rw [hvalues] at hzero
  rw [hcut]
  have hconstraints : s'.constraintValues (s₁.valuesOf (x.map finite)) =
      s₂.constraintValues (s₁.valuesOf (x.map finite)) := by
    rw [hs']
    rfl
  rw [hconstraints] at hzero
  obtain ⟨hwsize, hweights, F, hF, hstates⟩ :=
    b.integrates hfinite hready hprepared hw happly hzero
  refine ⟨w, F, ?_, hF, ?_⟩
  · rw [hs']
    exact hlater.quadratureWeights.trans hw
  intro r hr
  refine ⟨(hstates r hr).2, ?_⟩
  intro L hL hintegrand
  -- the derivative of state `r` is finite at all grid points, and so is the integrand
  obtain ⟨hslopes, hchange⟩ := hstates r hr
  obtain ⟨d, hd⟩ := hready.duration_finite
  choose! weight hweight using hweights
  choose! slope hslope using hslopes
  obtain ⟨ends, E, hends, hE, hvalue⟩ := hready.costExpr_eq_ok hwsize hweight hL
    (fun k hk => by rw [hintegrand k hk, hslope k hk]) hd hobjective
  refine ⟨ends, E, hends, hE, ?_⟩
  have hobjective' : s'.objective = s₁.objective := by rw [hs', ← hlater.objective]
  rw [evaluate_eq hfull hlength, hvalues, hobjective', hvalue, hchange, hd,
    weightedSum_finite hwsize hweight hslope, finite_mul]
  rfl

/-! ## A small problem -/

/-- The slide with the way that it goes as cost. -/
def meteredSlide : Problem (Extended ℚ) :=
  { slide with integralCosts := [⟨.name "u", .whole 1⟩] }

/-- At every grid point the integrand is the derivative of a state. -/
def integrandIs (p : Problem (Extended ℚ)) (points : Array (Extended ℚ))
    (v : Kind → Matrix (Extended ℚ)) (r : Nat) : Bool :=
  match p.dynamicsFunction, p.integrandFunction with
  | .ok f, .ok L => (List.range points.size).all fun i =>
    match f.evaluate (pointValues points v i), L.evaluate (pointValues points v i) with
    | .ok [m], .ok [n] => n.extent = .unit && n.data = #[m.get r]
    | _, _ => false
  | _, _ => false

/-- A scheme is transcribed, and at a decision vector its defects are zero and the integrand is the
    derivative of a state. -/
def carriesIntegral (b : BuiltIn) (p : Problem (Extended ℚ)) (literal : Literal (Extended ℚ))
    (mesh x : Array (Extended ℚ)) (r : Nat) : Bool :=
  match b.scheme (.standard none) p literal with
  | .error _ => false
  | .ok s =>
    match transcribe p s with
    | .error _ _ => false
    | .ok _ s' =>
      match s'.evaluateConstraints (.column x), s'.expand x with
      | .ok g, .ok v =>
        x.size = Layout.length s.extents &&
          (List.range (b.defectCount p mesh)).all (fun i => g.getD i default = finite 0) &&
          integrandIs p (b.grid mesh) v.values r
      | _, _ => false

theorem integrand_of_integrandIs {p : Problem (Extended ℚ)} {points : Array (Extended ℚ)}
    {v : Kind → Matrix (Extended ℚ)} {r : Nat} {F : Nat → Matrix (Extended ℚ)}
    (h : integrandIs p points v r) (hF : DynamicsAt p points v F) :
    ∃ L, p.integrandFunction = .ok L ∧ ∀ i < points.size,
      L.evaluate (pointValues points v i) = .ok [.unit ((F i).get r)] := by
  obtain ⟨f, hf, hvalues⟩ := hF
  unfold integrandIs at h
  rw [hf] at h
  cases hL : p.integrandFunction with
  | error fault =>
    rw [hL] at h
    cases h
  | ok L =>
    rw [hL] at h
    refine ⟨L, rfl, ?_⟩
    intro i hi
    have hpoint := List.all_eq_true.mp h i (List.mem_range.mpr hi)
    simp only [hvalues i hi] at hpoint
    split at hpoint
    · next m n hm hn =>
      cases hm
      rw [Bool.and_eq_true, decide_eq_true_iff, decide_eq_true_iff] at hpoint
      rw [hn]
      congr 2
      exact Matrix.ext hpoint.1 hpoint.2
    · cases hpoint

theorem exists_of_carriesIntegral {b : BuiltIn} {p : Problem (Extended ℚ)}
    {literal : Literal (Extended ℚ)} {mesh x : Array (Extended ℚ)} {r : Nat}
    (h : carriesIntegral b p literal mesh x r) :
    ∃ s s' g v, b.scheme (.standard none) p literal = .ok s ∧ transcribe p s = .ok () s' ∧
      x.size = Layout.length s.extents ∧ s'.evaluateConstraints (.column x) = .ok g ∧
      s'.expand x = .ok v ∧ (∀ i < b.defectCount p mesh, g.getD i default = finite 0) ∧
      integrandIs p (b.grid mesh) v.values r := by
  unfold carriesIntegral at h
  split at h
  · cases h
  · next s hs =>
    split at h
    · cases h
    · next s' hs' =>
      split at h
      · next g v hg hv =>
        simp only [Bool.and_eq_true, decide_eq_true_iff, List.all_eq_true, List.mem_range] at h
        obtain ⟨⟨hx, hzero⟩, hintegrand⟩ := h
        exact ⟨s, s', g, v, hs, hs', hx, hg, hv, hzero, hintegrand⟩
      · cases h

theorem defects_integrate_meteredSlide :
    ∃ s s' v w F ends E,
      trapezoidal (.standard none) meteredSlide (.whole 3) = .ok s ∧
      transcribe meteredSlide s = .ok () s' ∧
      s'.expand (#[0, 1, 0, 1 / 2, 1, 1, 1, 1].map finite) = .ok v ∧
      s'.quadratureWeights = .ok w ∧ DynamicsAt meteredSlide (evenPoints 3) v.values F ∧
      (v.values .states).entry 0 2 - (v.values .states).entry 0 0 =
        durationBetween v.values * weightedSum w (fun i => (F i).get 0) ∧
      meteredSlide.endpointCostFunction = .ok ends ∧
      ends.evaluate (endValues v.values 2) = .ok [E] ∧
      s'.evaluate s'.objective (.column (#[0, 1, 0, 1 / 2, 1, 1, 1, 1].map finite)) =
        .ok (E.data.map ((v.values .states).entry 0 2 - (v.values .states).entry 0 0 + ·)) := by
  have hcarries : carriesIntegral .trapezoidal meteredSlide (.whole 3) (evenPoints 3)
      (#[0, 1, 0, 1 / 2, 1, 1, 1, 1].map finite) 0 := by decide +kernel
  obtain ⟨s, s', g, v, hs, hs', hx, hg, hv, hzero, hintegrand⟩ :=
    exists_of_carriesIntegral hcarries
  rw [Array.size_map] at hx
  have hmesh : Mesh.ofLiteral (.whole 3) = .ok (evenPoints 3 : Array (Extended ℚ)) := rfl
  obtain ⟨g', v', hg', hv', hintegrates⟩ :=
    defects_integrate hmesh (by decide +kernel) hs hs' #[0, 1, 0, 1 / 2, 1, 1, 1, 1] hx
  cases hg.symm.trans hg'
  cases hv.symm.trans hv'
  obtain ⟨w, F, hw, hF, hstates⟩ := hintegrates hzero
  obtain ⟨hchange, hobjective⟩ := hstates 0 Nat.one_pos
  obtain ⟨L, hL, hvalues⟩ := integrand_of_integrandIs hintegrand hF
  obtain ⟨ends, E, hends, hE, hvalue⟩ := hobjective L hL hvalues
  exact ⟨s, s', v, w, F, ends, E, hs, hs', hv, hw, hF, hchange, hends, hE, hvalue⟩

end Scheme
end Collocation
