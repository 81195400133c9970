import Collocation.Proofs.Resampling
import Collocation.Proofs.Scheme.Phases

/-! # Times in any order

  Times that do not increase are no abscissae. The rows are then interpolated over their positions,
  which are spread evenly from zero to one, at the positions of the new times. These need not lie
  between zero and one, but they are numbers, and nothing more is needed: whatever the old times and
  the new ones are, nothing is refused and no value leaves the range of its row. The positions begin
  with zero and end with one, so the ends of a row stay its ends. -/

namespace Collocation

open Extended

variable {K : Type} [Field K] [LinearOrder K] [FloorRing K] [Interpretation K]
  {oldTimes newTimes points : Array (Extended K)} {q : Nat → K}

/-! ## Increasing times -/

/-- Every point is above the one before it. -/
def Increases {α : Type} [Number α] (points : Array α) : Prop :=
  ∀ j, j + 1 < points.size → Number.below (points.getD j default) (points.getD (j + 1) default)

/-- All points are finite numbers. -/
def AllFinite (points : Array (Extended K)) : Prop := ∀ x ∈ points, ∃ z, x = finite z

instance (x : Extended K) : Decidable (∃ z, x = finite z) :=
  match x with
  | finite z => .isTrue ⟨z, rfl⟩
  | infinite _ => .isFalse fun ⟨_, h⟩ => nomatch h
  | undefined => .isFalse fun ⟨_, h⟩ => nomatch h

instance (points : Array (Extended K)) : Decidable (AllFinite points) :=
  inferInstanceAs (Decidable (∀ x ∈ points, ∃ z, x = finite z))

omit [FloorRing K] [Interpretation K] [LinearOrder K] [Field K] in
theorem AllFinite.getElem (h : AllFinite points) {j : Nat} (hj : j < points.size) :
    ∃ z, points[j] = finite z := h _ (Array.getElem_mem hj)

theorem AllFinite.exists_getD (h : AllFinite points) :
    ∃ q : Nat → K, ∀ j, points.getD j default = finite (q j) := by
  have hvalue : ∀ j, ∃ z, points.getD j default = finite z := by
    intro j
    by_cases hj : j < points.size
    · simpa [Array.getD, hj] using h.getElem hj
    · exact ⟨0, by simp [Array.getD, hj]⟩
  choose q hq using hvalue
  exact ⟨q, hq⟩

theorem Climbs.increases (h : Climbs points q) : Increases points := by
  intro j hj
  rw [h.get j (by omega), h.get (j + 1) hj]
  exact below_finite.mpr (h.climb j (by omega))

theorem Increases.climbs (h : Increases points) (hq : ∀ j, points.getD j default = finite (q j)) :
    Climbs points q where
  get j _ := hq j
  climb j hj := by
    have hstep := h j (by omega)
    rwa [hq, hq, below_finite] at hstep

theorem two_le_of_not_increases {α : Type} [Number α] {points : Array α} (h : ¬Increases points) :
    2 ≤ points.size := by
  by_contra hfew
  exact h fun j hj => by omega

section Positions

variable [IsStrictOrderedRing K]

/-- Finite points increase exactly if their differences are positive. -/
theorem all_differences_iff_increases (hq : ∀ j, points.getD j default = finite (q j)) :
    ((differences points).all fun d => Number.below Number.zero d) = true ↔ Increases points := by
  constructor
  · intro h j hj
    have hsize : j < (differences points).size := by
      simp only [differences, Array.size_ofFn]
      omega
    have hstep := Array.all_eq_true.mp h j hsize
    have hget := getD_differences hj
    rw [Array.getD_eq_getD_getElem?, Array.getElem?_eq_getElem hsize, Option.getD_some] at hget
    rw [hget, hq, hq, finite_sub, zero_eq, below_finite, sub_pos] at hstep
    rw [hq, hq]
    exact below_finite.mpr hstep
  · intro h
    exact all_differences_of_climbs (h.climbs hq)

end Positions

/-! ## Positions -/

/-- The positions of times: as the times are spaced, if they advance, and evenly spread if not. -/
def positionsOf {α : Type} [Number α] (times : Array α) : Array α :=
  let first := times.getD 0 default
  let span := times.getD (times.size - 1) default - first
  if Number.below Number.zero span then times.map fun t => (t - first) / span
  else evenPoints times.size

/-- A single position is the first one. -/
theorem getD_evenPoints_one (h : points.size = 1) :
    (evenPoints points.size : Array (Extended K)).getD 0 default = finite 0 := by
  simp [evenPoints, h]

section Positions

variable [IsStrictOrderedRing K]

theorem abscissae_of_not_increases (hold : AllFinite oldTimes) (h : ¬Increases oldTimes)
    (hsome : 0 < newTimes.size) :
    abscissae oldTimes newTimes = .ok ⟨evenPoints oldTimes.size, positionsOf newTimes⟩ := by
  obtain ⟨q, hq⟩ := hold.exists_getD
  have hsome' : newTimes.isEmpty = false := by
    rw [Array.isEmpty]
    exact decide_eq_false (by omega)
  unfold abscissae
  rw [if_neg (mt (all_differences_iff_increases hq).mp h), hsome', if_neg Bool.false_ne_true]
  rfl

/-- Positions are numbers; the first one is zero, and of more than one the last one is one. -/
theorem exists_positions (hnew : AllFinite newTimes) (hsome : 0 < newTimes.size) :
    ∃ a : Nat → K, (∀ k < newTimes.size, (positionsOf newTimes).getD k default = finite (a k)) ∧
      a 0 = 0 ∧ (2 ≤ newTimes.size → a (newTimes.size - 1) = 1) := by
  obtain ⟨r, hr⟩ := hnew.exists_getD
  unfold positionsOf
  simp only [hr, finite_sub, zero_eq]
  by_cases hadvance : 0 < r (newTimes.size - 1) - r 0
  · rw [if_pos (below_finite.mpr hadvance)]
    refine ⟨fun k => (r k - r 0) / (r (newTimes.size - 1) - r 0), ?_, ?_, ?_⟩
    · intro k hk
      have hget := hr k
      rw [Array.getD_eq_getD_getElem?, Array.getElem?_eq_getElem hk, Option.getD_some] at hget
      simp [Array.getD, hk, hget, finite_div _ hadvance.ne']
    · simp
    · intro _
      exact div_self hadvance.ne'
  rw [if_neg (below_finite.not.mpr hadvance)]
  rcases Nat.lt_or_ge newTimes.size 2 with hone | htwo
  · have hone' : newTimes.size = 1 := by omega
    refine ⟨fun _ => 0, ?_, rfl, fun htwo => by omega⟩
    intro k hk
    obtain rfl : k = 0 := by omega
    exact getD_evenPoints_one hone'
  · obtain ⟨a, hmesh⟩ := exists_isMesh_evenPoints (K := K) htwo
    have hlast := hmesh.last
    rw [size_evenPoints] at hlast
    exact ⟨a, fun k hk => hmesh.get k (by rwa [size_evenPoints]), hmesh.first, fun _ => hlast⟩

/-- For any finite times there are abscissae: the old ones climb, the new ones are numbers. Where
    the old times do not increase the new ends are the old ends. -/
theorem exists_abscissae (hold : AllFinite oldTimes) (hnew : AllFinite newTimes)
    (hsome : 0 < newTimes.size) :
    ∃ points, ∃ a a' : Nat → K, abscissae oldTimes newTimes = .ok points ∧
      points.old.size = oldTimes.size ∧ Climbs points.old a ∧
      (∀ k < newTimes.size, points.new.getD k default = finite (a' k)) ∧
      (¬Increases oldTimes → 2 ≤ newTimes.size →
        a' 0 = a 0 ∧ a' (newTimes.size - 1) = a (oldTimes.size - 1)) := by
  by_cases hincreases : Increases oldTimes
  · obtain ⟨q, hq⟩ := hold.exists_getD
    obtain ⟨r, hr⟩ := hnew.exists_getD
    have hclimbs := hincreases.climbs hq
    exact ⟨_, q, r, abscissae_of_climbs hclimbs newTimes, rfl, hclimbs, fun k _ => hr k,
      fun hnot => absurd hincreases hnot⟩
  · obtain ⟨a, hmesh⟩ :=
      exists_isMesh_evenPoints (K := K) (two_le_of_not_increases hincreases)
    have hlast := hmesh.last
    rw [size_evenPoints] at hlast
    obtain ⟨a', ha', hfirst', hlast'⟩ := exists_positions hnew hsome
    refine ⟨_, a, a', abscissae_of_not_increases hold hincreases hsome, size_evenPoints _,
      hmesh.toClimbs, ha', ?_⟩
    intro _ htwo'
    exact ⟨hfirst'.trans hmesh.first.symm, (hlast' htwo').trans hlast.symm⟩

end Positions

/-! ## Rows -/

/-- In every row the `m` values of `w` lie between values of `v`, of which there are `n`. So they
    keep all bounds that the row keeps, and a level row stays level. -/
structure KeptInRange (v w : Tensor (Extended K)) (rows n m : Nat) : Prop where
  old : v.shape = [rows, n]
  new : w.shape = [rows, m]
  between : ∀ i < rows, ∀ k < m,
    (∃ j < n, Number.atMost (v.get (i + rows * j)) (w.get (i + rows * k))) ∧
      ∃ j < n, Number.atMost (w.get (i + rows * k)) (v.get (i + rows * j))

/-- The first and the last of the `m` columns of `w` are those of the `n` columns of `v`. -/
structure KeepsEnds (v w : Tensor (Extended K)) (rows n m : Nat) : Prop where
  first : ∀ i < rows, w.get (i + rows * 0) = v.get (i + rows * 0)
  last : ∀ i < rows, w.get (i + rows * (m - 1)) = v.get (i + rows * (n - 1))

/-- A matrix that is carried from the old times to the new ones stays in its range, and where the
    old times do not increase it keeps its ends. -/
def StaysInRange (oldTimes newTimes : Array (Extended K)) (v w : Tensor (Extended K)) : Prop :=
  ∃ rows, KeptInRange v w rows oldTimes.size newTimes.size ∧
    (¬Increases oldTimes → 2 ≤ newTimes.size → KeepsEnds v w rows oldTimes.size newTimes.size)

namespace KeptInRange

variable {v w : Tensor (Extended K)} {rows n m i k : Nat}

theorem within (h : KeptInRange v w rows n m) (hi : i < rows) (hk : k < m)
    {lower upper : Extended K}
    (hv : ∀ j < n, Number.atMost lower (v.get (i + rows * j)) ∧
      Number.atMost (v.get (i + rows * j)) upper) :
    Number.atMost lower (w.get (i + rows * k)) ∧ Number.atMost (w.get (i + rows * k)) upper := by
  obtain ⟨⟨j, hj, hbelow⟩, j', hj', habove⟩ := h.between i hi k hk
  exact ⟨atMost_trans (hv j hj).1 hbelow, atMost_trans habove (hv j' hj').2⟩

theorem level (h : KeptInRange v w rows n m) (hi : i < rows) (hk : k < m) {c : K}
    (hv : ∀ j < n, v.get (i + rows * j) = finite c) : w.get (i + rows * k) = finite c := by
  have hrefl : Number.atMost (finite c) (finite c) = true := atMost_finite.mpr le_rfl
  have hbounds : ∀ j < n, Number.atMost (finite c) (v.get (i + rows * j)) ∧
      Number.atMost (v.get (i + rows * j)) (finite c) := by
    intro j hj
    rw [hv j hj]
    exact ⟨hrefl, hrefl⟩
  obtain ⟨hbelow, habove⟩ := h.within hi hk hbounds
  cases hw : w.get (i + rows * k) with
  | finite z =>
    rw [hw, atMost_finite] at hbelow habove
    rw [le_antisymm habove hbelow]
  | infinite negative =>
    rw [hw] at hbelow habove
    cases negative
    · cases habove
    · cases hbelow
  | undefined =>
    rw [hw] at hbelow
    cases hbelow

end KeptInRange

section Rows

variable [IsStrictOrderedRing K] {v : Tensor (Extended K)} {rows : Nat}

/-- A matrix with a column for each of its times is carried to any other times, and each of its
    values stays in the range of its row. -/
theorem exists_staysInRange (hold : AllFinite oldTimes) (hsome : 0 < oldTimes.size)
    (hnew : AllFinite newTimes) (hsome' : 0 < newTimes.size)
    (hshape : v.shape = [rows, oldTimes.size]) (hdata : AllFinite v.data) :
    ∃ w, resampleRows oldTimes newTimes v = .ok w ∧ StaysInRange oldTimes newTimes v w := by
  obtain ⟨points, a, a', hpoints, hsize, hclimbs, hplaces, hends⟩ :=
    exists_abscissae hold hnew hsome'
  obtain ⟨y, hy⟩ := hdata.exists_getD
  have hdefined : ∀ k < newTimes.size, points.new.getD k default ≠ undefined := by
    intro k hk
    rw [hplaces k hk]
    simp
  have hvalue : ∀ i < rows, ∀ j < oldTimes.size,
      (rowOf rows oldTimes.size i v).getD j default = finite (y (i + rows * j)) := by
    intro i _ j hj
    rw [getD_rowOf hj, Tensor.get, hy]
  refine ⟨_, resampleRows_of_abscissae hpoints hclimbs hsize hsome hshape hdefined, ?_⟩
  have hget : ∀ i < rows, ∀ k < newTimes.size,
      (interpolatedRows points.old points.new rows oldTimes.size newTimes.size v).get
        (i + rows * k) =
        interpolate points.old (rowOf rows oldTimes.size i v) (finite (a' k)) := by
    intro i hi k hk
    rw [get_interpolatedRows hi hk, hplaces k hk]
  refine ⟨rows, ⟨hshape, rfl, ?_⟩, ?_⟩
  · intro i hi k hk
    obtain ⟨j, hj, j', hj', w, hw, hw', hmean⟩ := interpolate_eq hclimbs (hsize ▸ hsome)
      (fun j hj => hvalue i hi j (hsize ▸ hj)) (a' k)
    rw [hsize] at hj hj'
    obtain ⟨hbelow, habove⟩ := mean_between hw hw' (y (i + rows * j)) (y (i + rows * j'))
    rw [hget i hi k hk, hmean]
    simp only [Tensor.get, hy, atMost_finite]
    constructor
    · rcases min_le_iff.mp hbelow with hleft | hright
      · exact ⟨j, hj, hleft⟩
      · exact ⟨j', hj', hright⟩
    · rcases le_max_iff.mp habove with hleft | hright
      · exact ⟨j, hj, hleft⟩
      · exact ⟨j', hj', hright⟩
  · intro hnot htwo
    obtain ⟨hfirst, hlast⟩ := hends hnot htwo
    constructor
    · intro i hi
      rw [hget i hi 0 hsome', hfirst, interpolate_knot hclimbs (by omega), getD_rowOf hsome]
    · intro i hi
      rw [hget i hi _ (by omega), hlast, interpolate_knot hclimbs (by omega),
        getD_rowOf (by omega)]

end Rows

/-! ## Trajectories -/

namespace Trajectory

/-- All values on the grid are finite numbers. -/
def HasFiniteGrid (t : Trajectory (Extended K)) : Prop :=
  ∀ e ∈ t.values, e.1.kind?.any Kind.onGrid = true → AllFinite e.2.data

instance (t : Trajectory (Extended K)) : Decidable t.HasFiniteGrid :=
  inferInstanceAs (Decidable
    (∀ e ∈ t.values, e.1.kind?.any Kind.onGrid = true → AllFinite e.2.data))

/-- Let the times of a trajectory, of which there is at least one, be any finite numbers, in any
    order, and let every value on the grid be finite, with a column for each of them. Then it is
    never refused to carry the trajectory to finite times, if there is one. The values on the grid
    keep their rows and get a column for each new time, and all that is new in a row lies between
    values of the row: it keeps its bounds, and a level row stays level. Where the old times do not
    increase, the first and the last column stay too. -/
theorem resample_in_range [IsStrictOrderedRing K] {t : Trajectory (Extended K)}
    (hold : AllFinite t.times.written) (hsome : 0 < t.times.written.size)
    (hcolumns : t.HasColumns t.times.written.size) (hfinite : t.HasFiniteGrid)
    (hnew : AllFinite newTimes) (hsome' : 0 < newTimes.size) :
    ∃ u, t.resample newTimes = .ok u ∧ u.times = .vector newTimes ∧
      u.values.map Prod.fst = t.values.map Prod.fst ∧
      ∀ k v, k.onGrid = true → Keyed.find? t.values (.kind k) = some v →
        ∃ rows w, Keyed.find? u.values (.kind k) = some w ∧
          KeptInRange v.atLeast2D w rows t.times.written.size newTimes.size ∧
          (∀ i < rows, ∀ m < newTimes.size,
            (∀ lower upper, (∀ j < t.times.written.size,
              Number.atMost lower (v.atLeast2D.get (i + rows * j)) ∧
                Number.atMost (v.atLeast2D.get (i + rows * j)) upper) →
              Number.atMost lower (w.get (i + rows * m)) ∧
                Number.atMost (w.get (i + rows * m)) upper) ∧
            ∀ c : K, (∀ j < t.times.written.size, v.atLeast2D.get (i + rows * j) = finite c) →
              w.get (i + rows * m) = finite c) ∧
          (¬Increases t.times.written → 2 ≤ newTimes.size →
            KeepsEnds v.atLeast2D w rows t.times.written.size newTimes.size) := by
  have hrows : ∀ e ∈ t.values, e.1.kind?.any Kind.onGrid = true → ∃ w,
      resampleRows t.times.written newTimes e.2.atLeast2D = .ok w ∧
        StaysInRange t.times.written newTimes e.2.atLeast2D w := by
    intro e he hkind
    obtain ⟨rows, hshape⟩ := hcolumns e he hkind
    exact exists_staysInRange hold hsome hnew hsome' hshape (hfinite e he hkind)
  have hcarried := carriedBy_carried hrows
  refine ⟨t.carried newTimes, resample_of_rows fun e he hkind => ?_, hcarried.times, hcarried.keys,
    ?_⟩
  · obtain ⟨w, hw, -⟩ := hrows e he hkind
    exact ⟨w, hw⟩
  · intro k v hk hv
    obtain ⟨w, hw, rows, hkept, hends⟩ := hcarried.grid k v hk hv
    exact ⟨rows, w, hw, hkept, fun i hi m hm => ⟨fun lower upper => hkept.within hi hm,
      fun c => hkept.level hi hm⟩, hends⟩

/-- The first time comes back, so the times do not increase. -/
def returningRun : Trajectory (Extended ℚ) :=
  { unevenRun with times := .vector (#[2, 0, 2].map finite) }

/-- New times that leave the range of positions on either side: the first state stays between one
    and seven, from where it began to where it ended. -/
theorem resample_in_range_returning :
    ∃ u w, returningRun.resample #[finite 0, finite 4, finite (-1), finite 2] = .ok u ∧
      Keyed.find? u.values (.kind .states) = some w ∧ w.shape = [2, 4] ∧
      (∀ m < 4, Number.atMost (finite 1) (w.get (0 + 2 * m)) ∧
        Number.atMost (w.get (0 + 2 * m)) (finite 7)) ∧
      w.get 0 = finite 1 ∧ w.get 6 = finite 7 := by
  have hcolumns : ∀ e ∈ returningRun.values, e.1.kind?.any Kind.onGrid = true →
      e.2.atLeast2D.shape = [e.2.atLeast2D.shape.getD 0 1, returningRun.times.written.size] := by
    decide +kernel
  have hnew : AllFinite (#[finite 0, finite 4, finite (-1), finite 2] : Array (Extended ℚ)) := by
    decide +kernel
  obtain ⟨u, hu, -, -, hgrid⟩ := resample_in_range (t := returningRun) (by decide +kernel)
    (by decide +kernel) (fun e he hk => ⟨_, hcolumns e he hk⟩) (by decide +kernel) hnew
    (by decide +kernel)
  obtain ⟨rows, w, hw, hkept, hbounds, hends⟩ := hgrid .states _ rfl rfl
  obtain rfl : 2 = rows := (List.cons.inj hkept.old).1
  have hnot : ¬Increases returningRun.times.written := fun h => by
    have hstep := h 0 (by decide +kernel)
    revert hstep
    decide +kernel
  obtain ⟨hfirst, hlast⟩ := hends hnot (by decide +kernel)
  refine ⟨u, w, hu, hw, hkept.new, ?_, (hfirst 0 (by decide)).trans (by decide +kernel),
    (hlast 0 (by decide)).trans (by decide +kernel)⟩
  intro m hm
  exact (hbounds 0 (by decide) m hm).1 (finite 1) (finite 7) (by decide +kernel)

end Trajectory

end Collocation
