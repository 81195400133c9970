import Collocation.Proofs.Positions

/-! # The direction of time

  Times that run down do not increase, so a trajectory along such times is carried by its positions.
  The columns then count as evenly spread, and so do the new times if they run down as well: neither
  are the old times looked at nor the new ones. The trajectory arrives as it does with all times
  turned around exactly if the new times lie among the old ones where their positions lie among the
  positions, as they do for two even grids with the same ends. -/

namespace Collocation

open Extended

variable {K : Type} [Field K] [LinearOrder K] [FloorRing K] [Interpretation K]
  {knots places values oldTimes newTimes times : Array (Extended K)} {q p r : Nat → K}

/-! ## Opposite times -/

/-- The times on the other side of zero. What ran up runs down. -/
def opposite {α : Type} [Number α] (times : Array α) : Array α := times.map fun t => -t

theorem size_opposite {α : Type} [Number α] (times : Array α) :
    (opposite times).size = times.size := Array.size_map

theorem getD_opposite (h : Climbs times q) {k : Nat} (hk : k < times.size) :
    (opposite times).getD k default = finite (-q k) := by
  have hget := h.get k hk
  rw [Array.getD_eq_getD_getElem?, Array.getElem?_eq_getElem hk, Option.getD_some] at hget
  simp [opposite, Array.getD, hk, hget]

theorem allFinite_opposite (h : Climbs times q) : AllFinite (opposite times) := by
  intro x hx
  obtain ⟨k, hk, rfl⟩ := Array.getElem_of_mem hx
  rw [size_opposite] at hk
  refine ⟨-q k, ?_⟩
  rw [← getD_opposite h hk]
  simp [Array.getD, size_opposite, hk]

section Opposite

variable [IsStrictOrderedRing K]

theorem not_increases_opposite (h : Climbs times q) (htwo : 2 ≤ times.size) :
    ¬Increases (opposite times) := by
  intro hup
  have hstep := hup 0 (by rw [size_opposite]; omega)
  rw [getD_opposite h (by omega), getD_opposite h (by omega), below_finite, neg_lt_neg_iff] at hstep
  exact absurd hstep (not_lt_of_gt (h.climb 0 (by omega)))

theorem positionsOf_opposite (h : Climbs times q) (hsome : 0 < times.size) :
    positionsOf (opposite times) = evenPoints times.size := by
  unfold positionsOf
  rw [size_opposite, getD_opposite h hsome, getD_opposite h (by omega)]
  simp only [finite_sub, zero_eq]
  refine if_neg ?_
  rw [below_finite, sub_neg_eq_add, neg_add_eq_sub, not_lt, sub_nonpos]
  exact h.le (Nat.zero_le _) (by omega)

end Opposite

/-! ## Positions among the times -/

section Places

variable [IsStrictOrderedRing K]

/-- Where knots are interpolated over other knots, values over the one are values over the other. -/
theorem interpolate_through (h : Climbs knots q) (hplaces : Climbs places p)
    (hsize : places.size = knots.size) (hsome : 0 < knots.size) (z : K) :
    interpolate places values (interpolate knots places (finite z)) =
      interpolate knots values (finite z) := by
  rcases place_of_defined q knots.size (x := finite z) (by simp) with
    hbefore | hafter | ⟨z, hz, hfirst, hlast⟩
  · rw [interpolate_before h hsome hbefore, interpolate_before h hsome hbefore,
      hplaces.get 0 (by omega), interpolate_knot hplaces (by omega)]
  · rw [interpolate_after h hsome hafter, interpolate_after h hsome hafter,
      hplaces.get _ (by omega), interpolate_knot hplaces (by omega)]
  rw [hz]
  obtain ⟨j, hj, rfl | ⟨hnext, hleft, hright⟩⟩ := h.exists_between hsome hfirst hlast
  · rw [interpolate_knot h hj, interpolate_knot h hj, hplaces.get j (by omega),
      interpolate_knot hplaces (by omega)]
  · -- the share of the way is the same among the knots and among the places
    have hclimb := hplaces.climb j (by omega)
    obtain ⟨hshare, hshare'⟩ := share_between (h.climb j (by omega)) hleft hright
    obtain ⟨hlow, hhigh⟩ := mean_between hshare hshare' (p j) (p (j + 1))
    rw [min_eq_left hclimb.le] at hlow
    rw [max_eq_right hclimb.le] at hhigh
    rw [interpolate_eq_mean h hnext hleft hright, interpolate_eq_mean h hnext hleft hright,
      hplaces.get j (by omega), hplaces.get (j + 1) (by omega), mean_finite,
      interpolate_eq_mean hplaces (j := j) (by omega) hlow hhigh, add_sub_cancel_left,
      mul_div_cancel_right₀ _ (sub_ne_zero.mpr hclimb.ne')]

/-- Interpolated over themselves knots give every number in their range. -/
theorem interpolate_self (h : Climbs knots q) (hsome : 0 < knots.size) {z : K} (hfirst : q 0 ≤ z)
    (hlast : z ≤ q (knots.size - 1)) : interpolate knots knots (finite z) = finite z := by
  have hpolygon : OnPolygon q knots.size _ (finite z) (interpolate knots knots (finite z)) :=
    onPolygon_interpolate h hsome (finite z)
  have hknots : ∀ j < knots.size, knots.getD j default = finite (0 + 1 * q j) := by
    intro j hj
    rw [h.get j hj, zero_add, one_mul]
  have hline := hpolygon.affine h hsome hknots rfl hfirst hlast
  rwa [zero_add, one_mul] at hline

theorem exists_evenPoint {n k : Nat} (hk : k < n) :
    ∃ z : K, (evenPoints n).getD k default = finite z ∧ 0 ≤ z ∧ z ≤ 1 := by
  rcases Nat.lt_or_ge n 2 with hone | htwo
  · obtain rfl : n = 1 := by omega
    obtain rfl : k = 0 := by omega
    exact ⟨0, by simp [evenPoints], le_rfl, zero_le_one⟩
  · obtain ⟨a, hmesh⟩ := exists_isMesh_evenPoints (K := K) htwo
    have hsize := size_evenPoints (α := Extended K) n
    refine ⟨a k, hmesh.get k (by omega), ?_, ?_⟩
    · rw [← hmesh.first]
      exact hmesh.le (Nat.zero_le k) (by omega)
    · rw [← hmesh.last]
      exact hmesh.le (by omega) (by omega)

end Places

/-- The new times lie among the old ones where their positions lie among the positions of the old
    ones. A single old time is everywhere. -/
def PlacedEvenly {α : Type} [Number α] (oldTimes newTimes : Array α) : Prop :=
  oldTimes.size = 1 ∨ ∀ k < newTimes.size,
    interpolate oldTimes (evenPoints oldTimes.size) (newTimes.getD k default) =
      (evenPoints newTimes.size).getD k default

/-! ## Rows -/

/-- A matrix of one row. -/
def Tensor.row {α : Type} (xs : Array α) : Tensor α := ⟨[1, xs.size], xs, by simp⟩

@[simp] theorem Tensor.shape_row {α : Type} (xs : Array α) : (row xs).shape = [1, xs.size] := rfl

theorem rowOf_row {α : Type} [Number α] (xs : Array α) : rowOf 1 xs.size 0 (.row xs) = xs := by
  refine Array.ext (by simp [rowOf]) ?_
  intro j hj hj'
  simp [rowOf, Tensor.get, Tensor.row]

section Rows

variable [IsStrictOrderedRing K] {v : Tensor (Extended K)} {rows : Nat}

/-- A single time runs in no direction. -/
theorem resampleRows_opposite_of_one {α : Type} [Number α] {oldTimes newTimes : Array α}
    {v : Tensor α} (hone : oldTimes.size = 1) (hshape : v.shape = [rows, oldTimes.size]) :
    resampleRows (opposite oldTimes) (opposite newTimes) v = resampleRows oldTimes newTimes v := by
  have hone' : (opposite oldTimes).size = 1 := (size_opposite oldTimes).trans hone
  by_cases hrows : rows = 0
  · subst hrows
    rw [resampleRows_of_no_rows hshape, resampleRows_of_no_rows (by rw [hshape, hone, hone']),
      size_opposite]
  · rw [hone] at hshape
    rw [resampleRows_of_one_column hshape hrows hone, resampleRows_of_one_column hshape hrows hone',
      size_opposite]

variable (h : Climbs oldTimes q) (h' : Climbs newTimes r) (hsome' : 0 < newTimes.size)
  (hshape : v.shape = [rows, oldTimes.size])

include h h' hsome' hshape

/-- Between times that run down the rows are interpolated over even positions, at even positions. -/
theorem resampleRows_opposite (htwo : 2 ≤ oldTimes.size) :
    resampleRows (opposite oldTimes) (opposite newTimes) v =
      .ok (interpolatedRows (evenPoints oldTimes.size) (evenPoints newTimes.size) rows
        oldTimes.size newTimes.size v) := by
  have hpoints : abscissae (opposite oldTimes) (opposite newTimes) = _ :=
    abscissae_of_not_increases (allFinite_opposite h) (not_increases_opposite h htwo)
      (by rwa [size_opposite])
  rw [positionsOf_opposite h' hsome', size_opposite] at hpoints
  obtain ⟨a, hmesh⟩ := exists_isMesh_evenPoints (K := K) htwo
  have hdefined : ∀ k < (opposite newTimes).size,
      (evenPoints newTimes.size : Array (Extended K)).getD k default ≠ undefined := by
    intro k hk
    rw [size_opposite] at hk
    obtain ⟨z, hz, -⟩ := exists_evenPoint (K := K) hk
    rw [hz]
    simp
  have hrows := resampleRows_of_abscissae hpoints hmesh.toClimbs
    (by rw [size_evenPoints, size_opposite]) (by rw [size_opposite]; omega)
    (hshape.trans (by rw [size_opposite])) hdefined
  rwa [size_opposite, size_opposite] at hrows

/-- Rows that are placed evenly arrive with all times turned around as they do without. -/
theorem resampleRows_turned (hsome : 0 < oldTimes.size) (hplaced : PlacedEvenly oldTimes newTimes) :
    resampleRows (opposite oldTimes) (opposite newTimes) v = resampleRows oldTimes newTimes v := by
  rcases hplaced with hone | hplaced
  · exact resampleRows_opposite_of_one hone hshape
  rcases Nat.lt_or_ge oldTimes.size 2 with hfew | htwo
  · exact resampleRows_opposite_of_one (by omega) hshape
  obtain ⟨a, hmesh⟩ := exists_isMesh_evenPoints (K := K) htwo
  rw [resampleRows_opposite h h' hsome' hshape htwo,
    resampleRows_of_defined h hsome hshape h'.defined]
  refine congrArg Except.ok (Tensor.ext_elements rfl rfl ?_)
  intro i hi k hk
  rw [get_interpolatedRows hi hk, get_interpolatedRows hi hk, ← hplaced k hk, h'.get k hk]
  exact interpolate_through h hmesh.toClimbs (size_evenPoints _) hsome _

end Rows

/-! ## Trajectories -/

namespace Trajectory

section Turned

variable {α : Type} [Number α]

/-- The trajectory along the opposite times. -/
def turned (t : Trajectory α) : Trajectory α :=
  { t with times := .vector (opposite t.times.written) }

theorem written_turned (t : Trajectory α) : t.turned.times.written = opposite t.times.written :=
  Tensor.written_vector _

/-- A trajectory of one state. -/
def ofState (times state : Array α) : Trajectory α :=
  .iterate [(.kind .states, .row state)] (.vector times) {}

theorem written_ofState (times state : Array α) : (ofState times state).times.written = times :=
  Tensor.written_vector times

omit [Number α] in
theorem hasColumns_ofState {times state : Array α} (h : state.size = times.size) :
    (ofState times state).HasColumns times.size := by
  intro e he _
  obtain rfl := List.mem_singleton.mp he
  exact ⟨1, by rw [← h]; rfl⟩

/-- A single state is carried, and nothing else. -/
theorem values_carried {t : Trajectory α} {times newTimes state : Array α} {w : Tensor α}
    (ht : t.values = [(.kind .states, .row state)]) (htimes : t.times.written = times)
    (hw : resampleRows times newTimes (.row state) = .ok w) :
    (t.carried newTimes).values = [(.kind .states, w)] := by
  show t.values.map _ = _
  rw [ht, htimes]
  exact congrArg (fun w => [(Key.kind .states, w)]) (carriedValue_of_onGrid rfl hw)

end Turned

variable [IsStrictOrderedRing K] {t : Trajectory (Extended K)}

/-- A trajectory is never refused for the direction of its times. -/
theorem resample_turned (h : Climbs t.times.written q) (hsome : 0 < t.times.written.size)
    (hcolumns : t.HasColumns t.times.written.size) (h' : Climbs newTimes r)
    (hsome' : 0 < newTimes.size) :
    t.turned.resample (opposite newTimes) = .ok (t.turned.carried (opposite newTimes)) := by
  refine resample_of_rows fun e he hkind => ?_
  obtain ⟨rows, hshape⟩ := hcolumns e he hkind
  rw [written_turned]
  rcases Nat.lt_or_ge t.times.written.size 2 with hfew | htwo
  · rw [resampleRows_opposite_of_one (by omega) hshape]
    exact ⟨_, resampleRows_of_defined h hsome hshape h'.defined⟩
  · exact ⟨_, resampleRows_opposite h h' hsome' hshape htwo⟩

/-- Values that are placed evenly arrive with all times turned around as they do without. -/
theorem values_turned (h : Climbs t.times.written q) (hsome : 0 < t.times.written.size)
    (hcolumns : t.HasColumns t.times.written.size) (h' : Climbs newTimes r)
    (hsome' : 0 < newTimes.size) (hplaced : PlacedEvenly t.times.written newTimes) :
    (t.turned.carried (opposite newTimes)).values = (t.carried newTimes).values := by
  show (t.values.map fun e : Key (Extended K) × Tensor (Extended K) => (e.1,
    carriedValue t.turned.times.written (opposite newTimes) e.1.kind? e.2)) = t.values.map _
  rw [written_turned]
  refine List.map_congr_left fun e he => congrArg (Prod.mk e.1) ?_
  by_cases hkind : e.1.kind?.any Kind.onGrid = true
  · obtain ⟨rows, hshape⟩ := hcolumns e he hkind
    unfold carriedValue
    rw [resampleRows_turned h h' hsome' hshape hsome hplaced]
  · rw [carriedValue_of_not_onGrid hkind, carriedValue_of_not_onGrid hkind]

/-- A state that is the position of its times shows how the new times are placed. -/
theorem placedEvenly_of_values (h : Climbs oldTimes q) (htwo : 2 ≤ oldTimes.size)
    (h' : Climbs newTimes r) (hsome' : 0 < newTimes.size)
    (hvalues : ((ofState oldTimes (evenPoints oldTimes.size)).turned.carried
        (opposite newTimes)).values =
      ((ofState oldTimes (evenPoints oldTimes.size)).carried newTimes).values) :
    PlacedEvenly oldTimes newTimes := by
  have hshape : (Tensor.row (evenPoints oldTimes.size : Array (Extended K))).shape =
      [1, oldTimes.size] := by rw [Tensor.shape_row, size_evenPoints]
  have hrows := resampleRows_of_defined h (by omega) hshape h'.defined
  have hrows' := resampleRows_opposite h h' hsome' hshape htwo
  rw [values_carried rfl (written_ofState _ _) hrows,
    values_carried rfl ((written_turned _).trans (congrArg opposite (written_ofState _ _))) hrows',
    List.singleton_inj, Prod.mk.injEq] at hvalues
  have hrow := rowOf_row (evenPoints oldTimes.size : Array (Extended K))
  rw [size_evenPoints] at hrow
  obtain ⟨a, hmesh⟩ := exists_isMesh_evenPoints (K := K) htwo
  refine .inr fun k hk => ?_
  have hget := congrArg (fun w : Tensor (Extended K) => w.get (0 + 1 * k)) hvalues.2
  simp only [get_interpolatedRows Nat.one_pos hk, hrow] at hget
  obtain ⟨z, hz, hlow, hhigh⟩ := exists_evenPoint (K := K) hk
  rw [← hget, hz, interpolate_self hmesh.toClimbs (by rw [size_evenPoints]; omega)
    (hmesh.first.trans_le hlow) (hhigh.trans_eq hmesh.last.symm)]

/-- Let old times climb, and new ones, at least one of each. Every trajectory along the old times,
    with a column for each of them in every value on the grid, can be carried to the new times, and
    from the opposite times to the opposite times. All of them have the same values both ways if the
    new times are placed evenly among the old ones, and only then. -/
theorem values_turned_iff (h : Climbs oldTimes q) (hsome : 0 < oldTimes.size)
    (h' : Climbs newTimes r) (hsome' : 0 < newTimes.size) :
    (∀ t : Trajectory (Extended K), t.times.written = oldTimes → t.HasColumns oldTimes.size →
      ∃ u u', t.resample newTimes = .ok u ∧ t.turned.resample (opposite newTimes) = .ok u') ∧
    ((∀ t : Trajectory (Extended K), t.times.written = oldTimes → t.HasColumns oldTimes.size →
      ∀ u u', t.resample newTimes = .ok u → t.turned.resample (opposite newTimes) = .ok u' →
        u'.values = u.values) ↔ PlacedEvenly oldTimes newTimes) := by
  refine ⟨?_, ?_, ?_⟩
  · rintro t rfl hcolumns
    exact ⟨_, _, resample_eq_carried h hsome hcolumns newTimes,
      resample_turned h hsome hcolumns h' hsome'⟩
  · intro hsame
    rcases Nat.lt_or_ge oldTimes.size 2 with hfew | htwo
    · exact .inl (by omega)
    have htimes := written_ofState oldTimes (evenPoints oldTimes.size)
    have hcolumns := hasColumns_ofState (size_evenPoints (α := Extended K) oldTimes.size)
    refine placedEvenly_of_values h htwo h' hsome' (hsame _ htimes hcolumns _ _ ?_ ?_)
    · exact resample_eq_carried (htimes ▸ h) (by rwa [htimes]) (by rwa [htimes]) newTimes
    · exact resample_turned (htimes ▸ h) (by rwa [htimes]) (by rwa [htimes]) h' hsome'
  · rintro hplaced t rfl hcolumns u u' hu hu'
    rw [resample_eq_carried h hsome hcolumns newTimes] at hu
    rw [resample_turned h hsome hcolumns h' hsome'] at hu'
    cases hu
    cases hu'
    exact values_turned h hsome hcolumns h' hsome' hplaced

/-- The middles of uneven steps are placed evenly. -/
theorem values_turned_iff_halved :
    PlacedEvenly unevenRun.times.written (#[0, 1 / 2, 1, 2, 3].map finite) ∧
      ∃ u u', unevenRun.resample (#[0, 1 / 2, 1, 2, 3].map finite) = .ok u ∧
        unevenRun.turned.resample (opposite (#[0, 1 / 2, 1, 2, 3].map finite)) = .ok u' ∧
        u'.values = u.values := by
  have hnew : Climbs ((#[0, 1 / 2, 1, 2, 3] : Array ℚ).map finite)
      fun j => ([0, 1 / 2, 1, 2, 3] : List ℚ).getD j 0 := ⟨by decide +kernel, by decide +kernel⟩
  have hplaced : PlacedEvenly unevenRun.times.written (#[0, 1 / 2, 1, 2, 3].map finite) :=
    .inr (by decide +kernel)
  obtain ⟨hcarried, hsame⟩ := values_turned_iff climbs_unevenRun (by decide +kernel) hnew
    (by decide +kernel)
  obtain ⟨u, u', hu, hu'⟩ := hcarried unevenRun rfl hasColumns_unevenRun
  exact ⟨hplaced, u, u', hu, hu', hsame.mpr hplaced unevenRun rfl hasColumns_unevenRun u u' hu hu'⟩

/-- A state that is the time itself, along times that are not evenly spread. -/
def rampRun : Trajectory (Extended ℚ) :=
  ofState (#[0, 1, 3].map finite) (#[0, 1, 3].map finite)

/-- At times of the same ends the state is the time again. Along the opposite times it comes back
    with the values that it had at the old times. -/
theorem values_turned_differ_ramp :
    Increases rampRun.times.written ∧ Increases ((#[0, 2, 3] : Array ℚ).map finite) ∧
      ∃ u u', rampRun.resample (#[0, 2, 3].map finite) = .ok u ∧
        rampRun.turned.resample (opposite (#[0, 2, 3].map finite)) = .ok u' ∧
        (Keyed.find? u.values (.kind .states)).map Tensor.data = some (#[0, 2, 3].map finite) ∧
        (Keyed.find? u'.values (.kind .states)).map Tensor.data = some (#[0, 1, 3].map finite) := by
  have hold : Climbs rampRun.times.written fun j => ([0, 1, 3] : List ℚ).getD j 0 :=
    ⟨by decide +kernel, by decide +kernel⟩
  have hnew : Climbs ((#[0, 2, 3] : Array ℚ).map finite) fun j => ([0, 2, 3] : List ℚ).getD j 0 :=
    ⟨by decide +kernel, by decide +kernel⟩
  have hcolumns : rampRun.HasColumns rampRun.times.written.size := by
    rw [rampRun, written_ofState]
    exact hasColumns_ofState rfl
  exact ⟨hold.increases, hnew.increases, _, _,
    resample_eq_carried hold (by decide +kernel) hcolumns _,
    resample_turned hold (by decide +kernel) hcolumns hnew (by decide +kernel),
    by decide +kernel, by decide +kernel⟩

end Trajectory

end Collocation
