import Collocation.Proofs.Places
import Collocation.Proofs.Scheme.Accumulation
import Collocation.Proofs.Scheme.Exactness
import Collocation.Proofs.Scheme.RoundTrip

/-! # One law of time

  The times of a transcribed scheme are built twice: as an expression of the end times, which the
  functions of the problem are called with, and as numbers, which iterates and solutions carry. At
  every decision vector they are the same times. They run from the initial time towards the final
  time in the order of the grid, so forward, backward or not at all. -/

namespace Collocation

open Extended

variable {K : Type} [Field K] [LinearOrder K] [FloorRing K] [Interpretation K]

/-! ## Order of times -/

section Order

variable [IsStrictOrderedRing K] {q : Nat → K} {initial final : K} {i j : Nat}

omit [FloorRing K] [Interpretation K] in
theorem timeLaw_lt_of_lt (hq : q i < q j) (h : initial < final) :
    timeLaw q initial final i < timeLaw q initial final j := by
  rw [← sub_pos, timeLaw_sub]
  exact mul_pos (sub_pos.mpr h) (sub_pos.mpr hq)

omit [FloorRing K] [Interpretation K] in
theorem timeLaw_lt_of_gt (hq : q i < q j) (h : final < initial) :
    timeLaw q initial final j < timeLaw q initial final i := by
  rw [← sub_neg, timeLaw_sub]
  exact mul_neg_of_neg_of_pos (sub_neg.mpr h) (sub_pos.mpr hq)

omit [FloorRing K] [Interpretation K] [LinearOrder K] [IsStrictOrderedRing K] in
theorem timeLaw_self (q : Nat → K) (initial : K) (i : Nat) :
    timeLaw q initial initial i = initial := by
  rw [timeLaw, sub_self, mul_zero, add_zero]

omit [FloorRing K] [Interpretation K] in
/-- In the unit interval the law stays between the end times. -/
theorem timeLaw_between (hzero : 0 ≤ q i) (hone : q i ≤ 1) :
    min initial final ≤ timeLaw q initial final i ∧
      timeLaw q initial final i ≤ max initial final := by
  unfold timeLaw
  rcases le_total initial final with h | h
  · rw [min_eq_left h, max_eq_right h]
    constructor <;> nlinarith
  · rw [min_eq_right h, max_eq_left h]
    constructor <;> nlinarith

end Order

/-! ## The ends of the mesh -/

theorem Mesh.ends_of_literal [IsStrictOrderedRing K] {l : Literal (Extended K)}
    {mesh : Array (Extended K)} (h : Mesh.ofLiteral l = .ok mesh) :
    mesh.getD 0 default = finite 0 ∧ mesh.getD (mesh.size - 1) default = finite 1 := by
  unfold Mesh.ofLiteral at h
  split at h
  · cases h
  · split_ifs at h
    obtain ⟨hn, rfl⟩ := eq_of_even h
    obtain ⟨q, hmesh⟩ := exists_isMesh_evenPoints (K := K) hn
    have htwo := hmesh.two_le
    rw [hmesh.get 0 (by omega), hmesh.get _ (by omega), hmesh.first, hmesh.last]
    exact ⟨rfl, rfl⟩
  · obtain ⟨points, -, h⟩ := bind_eq_ok h
    unfold Mesh.ofPoints at h
    split_ifs at h with hfew hrefused
    cases h
    simp only [Bool.or_eq_true, Bool.not_eq_true', not_or, Bool.not_eq_false] at hrefused
    obtain ⟨⟨hfirst, hlast⟩, -⟩ := hrefused
    exact ⟨(equal_iff.mp hfirst).2.trans zero_eq, (equal_iff.mp hlast).2.trans one_eq⟩

theorem BuiltIn.ends_of_grid [IsStrictOrderedRing K] (b : BuiltIn) {l : Literal (Extended K)}
    {mesh : Array (Extended K)} (h : Mesh.ofLiteral l = .ok mesh) :
    (b.grid mesh).getD 0 default = finite 0 ∧
      (b.grid mesh).getD ((b.grid mesh).size - 1) default = finite 1 := by
  have htwo := Mesh.two_le_size h
  have hends := Mesh.ends_of_literal h
  cases b with
  | trapezoidal => exact hends
  | hermiteSimpson tieControls =>
    -- every second grid point is a mesh point
    have hlast : (withMidpoints mesh).size - 1 = 2 * (mesh.size - 1) := by
      rw [size_withMidpoints]
      omega
    show (withMidpoints mesh).getD (2 * 0) default = _ ∧
      (withMidpoints mesh).getD ((withMidpoints mesh).size - 1) default = _
    rw [hlast, getD_withMidpoints_even (by omega), getD_withMidpoints_even (by omega)]
    exact hends

/-! ## Finite vectors -/

/-- Finite values are stacked into a finite vector. -/
theorem Layout.exists_flatten_finite {extents : Table Extent}
    {values : Table (Tensor (Extended K))} (hfits : Fits extents values)
    (hfinite : ∀ k v, values.find? k = some v →
      ∀ place < v.data.size, ∃ y, v.get place = finite y) :
    ∃ x : Array K, flatten values = x.map finite := by
  have hget : ∀ i, i < length extents → ∃ y, (flatten values).getD i default = finite y := by
    intro i hi
    obtain ⟨k, hle, hlt⟩ := exists_offset_le hi
    cases he : extents.find? k with
    | none =>
      have hcount : count extents k = 0 := by simp [count, he]
      omega
    | some e =>
      obtain ⟨v, hv, -, hsize⟩ := hfits.exists_find? he
      have hcount : count extents k = v.data.size := by simp [count, he, hsize]
      have hplace : i - offset extents k < v.data.size := by omega
      obtain ⟨y, hy⟩ := hfinite k v hv _ hplace
      refine ⟨y, ?_⟩
      rw [← hy, ← getD_flatten hfits hv hplace, Nat.add_sub_cancel' hle]
  choose! y hy using hget
  have hsize := size_flatten hfits
  refine ⟨Array.ofFn fun i : Fin (length extents) => y i, Array.ext (by simp [hsize]) ?_⟩
  intro i hi hi'
  have hi₀ : i < length extents := hsize ▸ hi
  have hvalue := hy i hi₀
  rw [Array.getD_eq_getD_getElem?, Array.getElem?_eq_getElem hi, Option.getD_some] at hvalue
  simp [hvalue]

/-! ## Both forms of the times -/

namespace Scheme

variable {p p' : Problem (Extended K)} {s s' r : Scheme (Extended K)}
  {grid times : Array (Extended K)} {q : Nat → K} {x : Array K}

/-- The times are those of a scheme at a decision vector, of which the first two elements are the
    end times: the value of the symbolic times, index by index the law of the grid, and the times
    that functions of the problem are called with. -/
structure KeepsTime (s : Scheme (Extended K)) (n : Nat) (q : Nat → K) (x : Array K)
    (times : Array (Extended K)) : Prop where
  size : times.size = n
  symbolic : ∃ e, s.times = some e ∧ s.evaluate e.expr (.column (x.map finite)) = .ok times
  law : ∀ i < times.size, times.getD i default = finite (timeLaw q (x.getD 0 0) (x.getD 1 0) i)
  forward : x.getD 0 0 < x.getD 1 0 → ∀ j < times.size, ∀ i < j,
    Number.below (times.getD i default) (times.getD j default)
  still : x.getD 0 0 = x.getD 1 0 → ∀ i < times.size, times.getD i default = finite (x.getD 0 0)
  backward : x.getD 1 0 < x.getD 0 0 → ∀ j < times.size, ∀ i < j,
    Number.below (times.getD j default) (times.getD i default)
  between : ∀ i < times.size,
    Number.atMost (finite (min (x.getD 0 0) (x.getD 1 0))) (times.getD i default) ∧
      Number.atMost (times.getD i default) (finite (max (x.getD 0 0) (x.getD 1 0)))
  /-- A function that is called at a grid point is called with the time there. -/
  called : ∀ i < times.size, (∃ args, s.pointArguments i = .ok args) ∧
    ∀ f e, s.callAt f i = .ok e → ∃ v : PointInput → Matrix (Extended K),
      v .time = .unit (times.getD i default) ∧
      f.evaluate v = .ok [e.expr.eval (s.valuesOf (x.map finite))]
  /-- A function of the two ends is called with the end times. -/
  calledAtEnds : ∃ args, s.endpointArguments = .ok args ∧
    ∀ (f : EndpointFunction (Extended K)) e, f.call args = .ok e →
      ∃ v : EndpointInput → Matrix (Extended K),
        (v .initialTime).get 0 = finite (x.getD 0 0) ∧ (v .finalTime).get 0 = finite (x.getD 1 0) ∧
        f.evaluate v = .ok [e.expr.eval (s.valuesOf (x.map finite))]

/-- A scheme on a grid within the unit interval, with the times that a preparation writes. -/
structure OnTime (s : Scheme (Extended K)) (grid : Array (Extended K)) (q : Nat → K) : Prop
    extends s.OnGrid grid q where
  unit : ∀ i < grid.size, 0 ≤ q i ∧ q i ≤ 1
  times : s.times =
    some ⟨timesExpr grid (.symbol .initialTime .unit) (.symbol .finalTime .unit), ⟨grid.size, 1⟩⟩

variable [IsStrictOrderedRing K]

/-- Every transcription writes these times. -/
theorem exists_onTime (hvariables : extentsFor p s.gridPoints = .ok s.extents)
    (h : transcribe p' s = .ok () s') (hgrid : s'.gridVector = .ok grid)
    (hdefined : ∀ x ∈ grid, x ≠ undefined) : ∃ q, s'.OnTime grid q := by
  obtain ⟨q, hs'⟩ := exists_onGrid hvariables h hgrid hdefined
  have hchecked := checkedGrid_of_transcribe h hgrid
  obtain ⟨s₁, s₂, hprepare, happly, rfl⟩ := transcribe_eq_ok h
  obtain ⟨d, hd, rfl⟩ := prepare_eq_ok_iff.mp hprepare
  refine ⟨q, hs', fun i hi => unit_of_checkedGrid hchecked hs'.climbs hi, ?_⟩
  show s₂.times = _
  rw [(steady_applyRule.later_of_ok happly).rest,
    ← Except.ok.inj (hd.points.symm.trans hchecked)]
  exact congrArg some (hd.times_eq hvariables).2

omit [IsStrictOrderedRing K] in
theorem OnTime.of_agreesButConstraints (hs : s.OnTime grid q) (h : s.AgreesButConstraints s') :
    s'.OnTime grid q := by
  refine ⟨hs.toOnGrid.of_agreesButConstraints h, hs.unit, ?_⟩
  obtain ⟨_, _, _, _, _, _, _, rfl⟩ := h
  exact hs.times

omit [IsStrictOrderedRing K] in
theorem OnGrid.offset_ends (hs : s.OnGrid grid q) :
    Layout.offset s.extents .initialTime = 0 ∧ Layout.offset s.extents .finalTime = 1 := by
  refine ⟨rfl, ?_⟩
  show Layout.count s.extents .initialTime + 0 = 1
  rw [Layout.count, hs.extent_time.1]
  rfl

omit [IsStrictOrderedRing K] in
/-- The end times are the first two elements of a decision vector. -/
theorem OnGrid.valuesOf_ends (hs : s.OnGrid grid q) (x : Array K) :
    (s.valuesOf (x.map finite) .initialTime).get 0 = finite (x.getD 0 0) ∧
      (s.valuesOf (x.map finite) .finalTime).get 0 = finite (x.getD 1 0) := by
  have hvalue : ∀ k, s.extents.find? k = some .unit →
      (s.valuesOf (x.map finite) k).get 0 = finite (x.getD (Layout.offset s.extents k) 0) := by
    intro k hk
    rw [valuesOf, Table.values, Layout.cut, Table.find?_map, hk, Option.map_some,
      Option.getD_some, Matrix.get_ofColumnMajor _ _ (by simp), Nat.add_zero, getD_map_finite]
  obtain ⟨hinitial, hfinal⟩ := hs.extent_time
  obtain ⟨hfirst, hsecond⟩ := hs.offset_ends
  rw [hvalue _ hinitial, hvalue _ hfinal, hfirst, hsecond]
  exact ⟨rfl, rfl⟩

namespace OnTime

variable (hs : s.OnTime grid q)

include hs

omit [IsStrictOrderedRing K] in
theorem placed (x : Array K) : Placed grid (s.valuesOf (x.map finite)) s := by
  obtain ⟨p, derivatives, slacks, hfull⟩ := hs.extents
  have hextents : s.extents = .full fun k => (s.valuesOf (x.map finite) k).extent :=
    extents_eq hfull
  have hkind : ∀ k, (s.valuesOf (x.map finite) k).extent =
      kindExtent p grid.size derivatives slacks k := by
    intro k
    have hfind := congrArg (fun t => t.find? k) (hextents.symm.trans hfull)
    simpa using hfind
  refine ⟨hs.pos, hextents, ?_, _, hs.times, timesExpr_isColumn hs.pos
    (finite_valuesOf s x .initialTime 0) (finite_valuesOf s x .finalTime 0) (hkind _) (hkind _)⟩
  intro k hk
  rw [hkind]
  cases k <;> first | rfl | cases hk

omit [IsStrictOrderedRing K] in
/-- What the functions of the problem are called with are the times between the ends of the decision
    vector. -/
theorem timesBetween_valuesOf (x : Array K) :
    timesBetween grid ((s.valuesOf (x.map finite) .initialTime).get 0)
      ((s.valuesOf (x.map finite) .finalTime).get 0) =
        timesBetween grid (finite (x.getD 0 0)) (finite (x.getD 1 0)) := by
  rw [(hs.valuesOf_ends x).1, (hs.valuesOf_ends x).2]

/-- Both forms of the times follow one law at every decision vector. -/
theorem keepsTime (hx : x.size = Layout.length s.extents) :
    s.KeepsTime grid.size q x (timesBetween grid (finite (x.getD 0 0)) (finite (x.getD 1 0))) := by
  have hsize : (timesBetween grid (finite (x.getD 0 0)) (finite (x.getD 1 0))).size = grid.size :=
    size_timesBetween _ _ _
  have hget : ∀ i < grid.size,
      (timesBetween grid (finite (x.getD 0 0)) (finite (x.getD 1 0))).getD i default =
        finite (timeLaw q (x.getD 0 0) (x.getD 1 0) i) :=
    fun i hi => getD_timesBetween hi (hs.climbs.get i hi) _ _
  obtain ⟨p, derivatives, slacks, hfull⟩ := hs.extents
  have hplaced := hs.placed x
  refine ⟨hsize, ?_, ?_, ?_, ?_, ?_, ?_, ?_, ?_⟩
  · refine ⟨_, hs.times, ?_⟩
    rw [evaluate_eq hfull (by rw [Array.size_map, hx])]
    obtain ⟨e, he, hcolumn⟩ := hplaced.times
    cases hs.times.symm.trans he
    rw [hs.timesBetween_valuesOf x] at hcolumn
    rw [hcolumn.data_eq hsize]
  · intro i hi
    exact hget i (hsize ▸ hi)
  · intro hlt j hj i hij
    rw [hsize] at hj
    rw [hget i (by omega), hget j hj, below_finite]
    exact timeLaw_lt_of_lt (hs.climbs.lt hij hj) hlt
  · intro heq i hi
    rw [hget i (hsize ▸ hi), heq, timeLaw_self]
  · intro hgt j hj i hij
    rw [hsize] at hj
    rw [hget i (by omega), hget j hj, below_finite]
    exact timeLaw_lt_of_gt (hs.climbs.lt hij hj) hgt
  · intro i hi
    rw [hsize] at hi
    obtain ⟨hzero, hone⟩ := hs.unit i hi
    rw [hget i hi, atMost_finite, atMost_finite]
    exact timeLaw_between hzero hone
  · intro i hi
    rw [hsize] at hi
    obtain ⟨args, hargs, hreads⟩ := hplaced.pointArguments_reads (position?_natCast hi)
    refine ⟨⟨args, hargs⟩, ?_⟩
    intro f e he
    unfold callAt at he
    rw [hargs] at he
    refine ⟨_, ?_, (Function.evaluate_of_call PointInput.mem_all he hreads).1⟩
    show Matrix.unit _ = _
    rw [hs.timesBetween_valuesOf x]
  · obtain ⟨args, hargs, hreads⟩ := hplaced.endpointArguments_reads
    refine ⟨args, hargs, ?_⟩
    intro f e he
    exact ⟨_, (hs.valuesOf_ends x).1, (hs.valuesOf_ends x).2,
      (Function.evaluate_of_call EndpointInput.mem_all he hreads).1⟩

/-- A trajectory that lives on the grid carries the times of its own values. -/
theorem keepsTime_of_livesOn {t : Trajectory (Extended K)} (ht : t.LivesOn s)
    (hx : t.flatten = .ok (x.map finite)) : s.KeepsTime grid.size q x t.times.written := by
  obtain ⟨values, htable, hfits⟩ := ht.values
  obtain ⟨initial, final, hinitial, hfinal, htimes⟩ := ht.times
  rw [hs.createTimes, Except.ok.injEq] at htimes
  rw [Trajectory.flatten_eq_ok htable, Except.ok.injEq] at hx
  have hsize : x.size = Layout.length s.extents := by
    rw [← Layout.size_flatten hfits, hx, Array.size_map]
  -- the first elements of the end times are the first two of the vector
  have hend : ∀ k a, s.extents.find? k = some .unit → t.first k = .ok (finite a) →
      a = x.getD (Layout.offset s.extents k) 0 := by
    intro k a hk ha
    obtain ⟨v, hv, -, hdata⟩ := hfits.exists_find? hk
    rw [Extent.size_unit] at hdata
    rw [Trajectory.first_eq_ok ht.distinct htable hv (by omega), Except.ok.injEq] at ha
    have hget := Layout.getD_flatten hfits hv (p := 0) (by omega)
    rw [hx, ha, Nat.add_zero, getD_map_finite] at hget
    exact (Extended.finite.inj hget).symm
  obtain ⟨hfirst, hsecond⟩ := hs.offset_ends
  have hstart := hend _ _ hs.extent_time.1 hinitial
  have hstop := hend _ _ hs.extent_time.2 hfinal
  rw [hfirst] at hstart
  rw [hsecond] at hstop
  rw [← htimes, hstart, hstop]
  exact hs.keepsTime hsize

/-- An iterate of finite values, of the sizes of the variables, carries their times. -/
theorem exists_iterateOf {values : Table (Tensor (Extended K))}
    (hfits : Layout.Fits s.extents values)
    (hfinite : ∀ k v, values.find? k = some v → ∀ place < v.data.size, ∃ y, v.get place = finite y)
    (p : Problem (Extended K)) :
    ∃ t x, s.iterateOf p values = .ok t ∧ t.flatten = .ok (x.map finite) ∧
      s.KeepsTime grid.size q x t.times.written := by
  obtain ⟨t, ht, hlives⟩ := hs.toOnGrid.exists_iterateOf hfits hfinite p
  obtain ⟨x, hx⟩ := Layout.exists_flatten_finite hfits hfinite
  have hvalues : t.values = Keyed.ofTable values := by
    obtain ⟨_, -, ht⟩ := bind_eq_ok ht
    cases ht
    rfl
  have hflatten : t.flatten = .ok (x.map finite) := by
    rw [Trajectory.flatten_eq_ok (hvalues ▸ Keyed.toTable_ofTable values), hx]
  exact ⟨t, x, ht, hflatten, hs.keepsTime_of_livesOn hlives hflatten⟩

omit [IsStrictOrderedRing K] in
/-- On a grid from zero to one the times begin and end with the end times. -/
theorem ends_of_keepsTime (h : s.KeepsTime grid.size q x times)
    (hfirst : grid.getD 0 default = finite 0)
    (hlast : grid.getD (grid.size - 1) default = finite 1) :
    times.getD 0 default = finite (x.getD 0 0) ∧
      times.getD (times.size - 1) default = finite (x.getD 1 0) := by
  have hpos := hs.pos
  have hsize := h.size
  rw [hs.climbs.get 0 hpos] at hfirst
  rw [hs.climbs.get _ (by omega)] at hlast
  rw [h.law 0 (by omega), h.law _ (by omega), timeLaw_of_zero (Extended.finite.inj hfirst), hsize,
    timeLaw_of_one (Extended.finite.inj hlast)]
  exact ⟨rfl, rfl⟩

end OnTime

/-- Let a scheme with variables that were made for a problem be transcribed on a grid without an
    undefined point, and its bounds and the functions that it keeps be whatever they have become
    since. In every finite vector of its length there is a solution, and its times are those that
    the scheme keeps at this vector: the value of the symbolic times, `t0 + grid i * (tf - t0)`
    index by index, in the order of the end times and between them. So are the times of every
    iterate that the scheme makes from finite values of the sizes of its variables, among them the
    iterates from its bounds. With a built-in rule the times begin and end with the end times. The
    cost is written by the scheme itself, and wherever the transcription writes a constraint,
    functions have the arguments that they have here. -/
theorem transcribed_times (hvariables : extentsFor p s.gridPoints = .ok s.extents)
    (h : transcribe p' s = .ok () s') (hgrid : s'.gridVector = .ok grid)
    (hdefined : ∀ x ∈ grid, x ≠ undefined) (hkept : s'.AgreesButConstraints r) :
    ∃ q, Climbs grid q ∧
      (∀ (problem : Problem (Extended K)) (x : Array K) stats,
        x.size = Layout.length r.extents →
          ∃ t, r.solutionOf problem ⟨x.map finite, stats⟩ = .ok t ∧
            r.KeepsTime grid.size q x t.times.written) ∧
      (∀ (problem : Problem (Extended K)) values, Layout.Fits r.extents values →
        (∀ k v, values.find? k = some v → ∀ place < v.data.size, ∃ y, v.get place = finite y) →
          ∃ t x, r.iterateOf problem values = .ok t ∧ t.flatten = .ok (x.map finite) ∧
            r.KeepsTime grid.size q x t.times.written) ∧
      (∀ problem : Problem (Extended K), r.checkVariables = .ok () →
        (∃ t x, r.guessFromBounds problem = .ok t ∧ t.flatten = .ok (x.map finite) ∧
          r.KeepsTime grid.size q x t.times.written) ∧
        ∀ uniform a b, (∀ n x y, ∃ z, uniform n (finite x) (finite y) = finite z) →
          r.settings.unboundedRange = (finite a, finite b) →
            ∃ t x, r.randomWithinBounds problem uniform = .ok t ∧
              t.flatten = .ok (x.map finite) ∧ r.KeepsTime grid.size q x t.times.written) ∧
      (∀ (b : BuiltIn) settings literal s₀, b.scheme settings p literal = .ok s₀ →
        s₀.AgreesButConstraints s → ∀ x times, r.KeepsTime grid.size q x times →
          times.getD 0 default = finite (x.getD 0 0) ∧
            times.getD (times.size - 1) default = finite (x.getD 1 0)) ∧
      (∃ weights, r.quadratureWeights = .ok weights ∧ r.costExpr p' weights = .ok r.objective) ∧
      ∃ s₁ s₂, prepare p' s = .ok () s₁ ∧ applyRule p' s₁ = .ok () s₂ ∧
        s' = { s₂ with transcribed := true } ∧
        ∀ u, Later p' s₁ u → u.times = r.times ∧ u.pointArguments = r.pointArguments ∧
          u.endpointArguments = r.endpointArguments := by
  obtain ⟨q, hs'⟩ := exists_onTime hvariables h hgrid hdefined
  have hr := hs'.of_agreesButConstraints hkept
  refine ⟨q, hr.climbs, ?_, fun problem values hfits hfinite =>
    hr.exists_iterateOf hfits hfinite problem, ?_, ?_, ?_, ?_⟩
  · intro problem x stats hx
    obtain ⟨t, ht, hlives, hflatten⟩ := hr.exists_solutionOf problem hx stats
    exact ⟨t, ht, hr.keepsTime_of_livesOn hlives hflatten⟩
  · intro problem hsizes
    constructor
    · obtain ⟨values, hguess, hfits, hfinite⟩ := OnGrid.exists_guessValues hsizes problem
      rw [hguess]
      exact hr.exists_iterateOf hfits hfinite problem
    · intro uniform a b huniform hrange
      obtain ⟨values, hdraw, hfits, hfinite⟩ :=
        OnGrid.exists_randomValues huniform hrange hsizes problem
      rw [hdraw]
      exact hr.exists_iterateOf hfits hfinite problem
  · intro b settings literal s₀ hs₀ hmade x times htimes
    obtain ⟨mesh, hmesh⟩ := BuiltIn.exists_mesh hs₀
    -- the grid is the one of the rule, as it was made
    have hwritten := written_of_checkedGrid (checkedGrid_of_transcribe h hgrid)
    obtain ⟨_, _, _, _, _, _, _, rfl⟩ := hmade
    rw [show s₀.grid = _ from (b.fresh hmesh hs₀).grid, Option.map_some, Tensor.written_vector,
      Option.some.injEq] at hwritten
    obtain ⟨hfirst, hlast⟩ := b.ends_of_grid hmesh
    rw [hwritten] at hfirst hlast
    exact hr.ends_of_keepsTime htimes hfirst hlast
  · obtain ⟨s₁, s₂, hprepare, happly, rfl⟩ := transcribe_eq_ok h
    obtain ⟨d, hd, rfl⟩ := prepare_eq_ok_iff.mp hprepare
    have hlater := steady_applyRule.later_of_ok happly
    obtain ⟨_, _, _, _, _, _, _, rfl⟩ := hkept
    refine ⟨d.weights, hlater.quadratureWeights.trans hd.weights, ?_⟩
    show costExpr _ _ _ = .ok s₂.objective
    rw [hlater.rest]
    exact hd.objective
  · obtain ⟨s₁, s₂, hprepare, happly, rfl⟩ := transcribe_eq_ok h
    have hlater := steady_applyRule.later_of_ok happly
    obtain ⟨_, _, _, _, _, _, _, rfl⟩ := hkept
    refine ⟨s₁, s₂, hprepare, happly, rfl, ?_⟩
    intro u hu
    rw [hu.rest, hlater.rest]
    exact ⟨rfl, rfl, rfl⟩

/-- From one back to zero, on three points that are not evenly spread. -/
theorem transcribed_times_slide :
    ∃ s s' t e,
      custom (.standard none) slide looseRule (some (.vector (#[0, 1 / 4, 1].map finite))) 3 true =
        .ok s ∧
      transcribe slide s = .ok () s' ∧
      s'.solutionOf slide ⟨#[1, 0, 5, 7, 6, 1, 2, 3].map finite, []⟩ = .ok t ∧ s'.times = some e ∧
      s'.evaluate e.expr (.column (#[1, 0, 5, 7, 6, 1, 2, 3].map finite)) = .ok t.times.written ∧
      t.times.written.size = 3 ∧ t.times.written.getD 1 default = finite (3 / 4) ∧
      Number.below (t.times.written.getD 2 default) (t.times.written.getD 0 default) := by
  have hpasses : transcribesTo slide
      (custom (.standard none) slide looseRule (some (.vector (#[0, 1 / 4, 1].map finite))) 3 true)
      (fun _ s' => s'.gridVector.toOption = some (#[0, 1 / 4, 1].map finite) &&
        Layout.length s'.extents = 8) := by
    decide +kernel
  obtain ⟨s, s', hs, hs', hcheck⟩ := exists_of_transcribesTo hpasses
  rw [Bool.and_eq_true, decide_eq_true_iff, decide_eq_true_iff] at hcheck
  obtain ⟨q, hclimbs, hsolution, -⟩ := transcribed_times (extents_of_custom hs) hs'
    (eq_ok_of_toOption hcheck.1) (by decide +kernel) (.refl s')
  obtain ⟨t, ht, htimes⟩ := hsolution slide #[1, 0, 5, 7, 6, 1, 2, 3] [] hcheck.2.symm
  obtain ⟨e, he, hvalue⟩ := htimes.symbolic
  have hsize : t.times.written.size = 3 := htimes.size.trans (by decide +kernel)
  have hpoint := hclimbs.get 1 (by decide +kernel)
  have hmiddle : q 1 = 1 / 4 := Extended.finite.inj (hpoint.symm.trans (by decide +kernel))
  refine ⟨s, s', t, e, hs, hs', ht, he, hvalue, hsize, ?_,
    htimes.backward (by decide +kernel) 2 (by omega) 0 (by omega)⟩
  rw [htimes.law 1 (by omega), timeLaw, hmiddle]
  decide +kernel

end Scheme
end Collocation
