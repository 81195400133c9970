import Collocation.Proofs.Resampling
import Collocation.Proofs.Scheme.Phases

/-! # Trajectories with more times

  A trajectory that is carried to more times than it has, its own among them, keeps all that it
  had. Between two neighbours of the new times there is no old one, so there the old polygon is one
  line, or level outside of the old range, and the new polygon has the same values. Whatever it is
  then carried to, it arrives as if it had been carried there at once; carried back to its own times
  it is what it was. -/

namespace Collocation

open Extended

variable {K : Type} [Field K] [LinearOrder K] [FloorRing K] [Interpretation K]
  {knots values fine oldTimes times : Array (Extended K)} {q f : Nat → K} {x : Extended K}

/-! ## Outside of the knots -/

theorem below_finite_of_le {a b : K} (h : Number.below x (finite a)) (hab : a ≤ b) :
    Number.below x (finite b) := by
  cases x with
  | finite z => exact below_finite.mpr ((below_finite.mp h).trans_le hab)
  | infinite => exact h
  | undefined => cases h

theorem finite_below_of_le {a b : K} (h : Number.below (finite b) x) (hab : a ≤ b) :
    Number.below (finite a) x := by
  cases x with
  | finite z => exact below_finite.mpr (hab.trans_lt (below_finite.mp h))
  | infinite => exact h
  | undefined => cases h

section Range

variable (h : Climbs knots q) (hsome : 0 < knots.size)

include h hsome

theorem interpolate_upTo_first {z : K} (hz : z ≤ q 0) :
    interpolate knots values (finite z) = values.getD 0 default := by
  rcases hz.eq_or_lt with rfl | hlt
  · exact interpolate_knot h hsome
  · exact interpolate_before h hsome (below_finite.mpr hlt)

theorem interpolate_from_last {z : K} (hz : q (knots.size - 1) ≤ z) :
    interpolate knots values (finite z) = values.getD (knots.size - 1) default := by
  rcases hz.eq_or_lt with rfl | hlt
  · exact interpolate_knot h (by omega)
  · exact interpolate_after h hsome (below_finite.mpr hlt)

end Range

variable [IsStrictOrderedRing K]

/-! ## Between the knots -/

/-- From one number to another without a knot strictly between them the interpolation has the means
    of its values at the two. -/
theorem interpolate_gap (h : Climbs knots q) (hsome : 0 < knots.size) {a b z : K} (hab : a < b)
    (hgap : ∀ j < knots.size, q j ≤ a ∨ b ≤ q j) (haz : a ≤ z) (hzb : z ≤ b) :
    interpolate knots values (finite z) = mean ((z - a) / (b - a))
      (interpolate knots values (finite a)) (interpolate knots values (finite b)) := by
  have hpos : 0 < b - a := sub_pos.mpr hab
  obtain ⟨hshare, hshare'⟩ := share_between hab haz hzb
  -- the last knot that is not after the first number
  obtain ⟨hcount, hbelow, habove⟩ := knotsUpTo_iff h.get a
  rcases Nat.eq_zero_or_pos (knotsUpTo knots (finite a)) with hnone | hleft
  · rw [hnone] at habove
    have hb : b ≤ q 0 := (hgap 0 hsome).resolve_left (not_le_of_gt (habove hsome))
    rw [interpolate_upTo_first h hsome hb, interpolate_upTo_first h hsome (hab.le.trans hb),
      interpolate_upTo_first h hsome (hzb.trans hb), mean_self hshare hshare']
  obtain ⟨j, hj⟩ : ∃ j, knotsUpTo knots (finite a) = j + 1 := ⟨_, (Nat.sub_add_cancel hleft).symm⟩
  rw [hj] at hcount hbelow habove
  have hqa : q j ≤ a := hbelow j (Nat.lt_succ_self j)
  rcases hcount.eq_or_lt with hall | hnext
  · have ha : q (knots.size - 1) ≤ a := by rwa [← hall, Nat.add_sub_cancel]
    rw [interpolate_from_last h hsome ha, interpolate_from_last h hsome (ha.trans haz),
      interpolate_from_last h hsome (ha.trans hab.le), mean_self hshare hshare']
  -- both numbers lie between the same two knots
  have hqb : b ≤ q (j + 1) := (hgap (j + 1) hnext).resolve_left (not_le_of_gt (habove hnext))
  have hclimb := h.climb j (by omega)
  have hstep : 0 < q (j + 1) - q j := sub_pos.mpr hclimb
  rw [interpolate_eq_mean h hnext hqa (hab.le.trans hqb),
    interpolate_eq_mean h hnext (hqa.trans hab.le) hqb,
    interpolate_eq_mean h hnext (hqa.trans haz) (hzb.trans hqb), mean_mean _ _ _ hshare hshare']
  · congr 1
    field_simp
    ring
  · exact (share_between hclimb hqa (hab.le.trans hqb)).1
  · exact div_le_div_of_nonneg_right (by linarith) hstep.le
  · exact (share_between hclimb (hqa.trans hab.le) hqb).2

/-- Knots that are added on the polygon do not change it. -/
theorem interpolate_refined (h : Climbs knots q) (hsome : 0 < knots.size) (hfine : Climbs fine f)
    (hmem : ∀ j < knots.size, ∃ m < fine.size, f m = q j) {carried : Array (Extended K)}
    (hcarried : ∀ m < fine.size,
      carried.getD m default = interpolate knots values (finite (f m))) (hx : x ≠ undefined) :
    interpolate fine carried x = interpolate knots values x := by
  obtain ⟨m₀, hm₀, hfirst⟩ := hmem 0 hsome
  obtain ⟨m₁, hm₁, hlast⟩ := hmem (knots.size - 1) (by omega)
  have hstart : f 0 ≤ q 0 := hfirst ▸ hfine.le (Nat.zero_le m₀) hm₀
  have hstop : q (knots.size - 1) ≤ f (fine.size - 1) := hlast ▸ hfine.le (by omega) (by omega)
  have hsome' : 0 < fine.size := by omega
  rcases place_of_defined f fine.size hx with hbefore | hafter | ⟨z, rfl, hleft, hright⟩
  · rw [interpolate_before hfine hsome' hbefore, hcarried 0 hsome',
      interpolate_upTo_first h hsome hstart,
      interpolate_before h hsome (below_finite_of_le hbefore hstart)]
  · rw [interpolate_after hfine hsome' hafter, hcarried _ (by omega),
      interpolate_from_last h hsome hstop,
      interpolate_after h hsome (finite_below_of_le hafter hstop)]
  obtain ⟨m, hm, rfl | ⟨hnext, hlo, hhi⟩⟩ := hfine.exists_between hsome' hleft hright
  · rw [interpolate_knot hfine hm, hcarried m hm]
  · have hgap : ∀ j < knots.size, q j ≤ f m ∨ f (m + 1) ≤ q j := by
      intro j hj
      obtain ⟨m', hm', hknot⟩ := hmem j hj
      rw [← hknot]
      rcases Nat.lt_or_ge m m' with hlater | hearlier
      · exact .inr (hfine.le hlater hm')
      · exact .inl (hfine.le hearlier hm)
    rw [interpolate_eq_mean hfine hnext hlo hhi, hcarried m hm, hcarried (m + 1) hnext,
      interpolate_gap h hsome (hfine.climb m (by omega)) hgap hlo hhi]

/-! ## Rows -/

section Rows

variable {v : Tensor (Extended K)} {rows : Nat}

/-- Carried to its own times a matrix stays as it is. -/
theorem resampleRows_own (h : Climbs oldTimes q) (hsome : 0 < oldTimes.size)
    (hshape : v.shape = [rows, oldTimes.size]) : resampleRows oldTimes oldTimes v = .ok v := by
  rw [resampleRows_of_defined h hsome hshape h.defined]
  refine congrArg Except.ok (Tensor.ext_elements rfl hshape ?_)
  intro i hi j hj
  rw [get_interpolatedRows hi hj, h.get j hj, interpolate_knot h hj, getD_rowOf hj]

/-- A matrix that is carried to more times arrives everywhere as the matrix itself does. -/
theorem resampleRows_refined (h : Climbs oldTimes q) (hsome : 0 < oldTimes.size)
    (hfine : Climbs fine f) (hmem : ∀ j < oldTimes.size, ∃ m < fine.size, f m = q j)
    (hshape : v.shape = [rows, oldTimes.size]) :
    ∃ w, resampleRows oldTimes fine v = .ok w ∧ w.shape = [rows, fine.size] ∧
      ∀ times : Array (Extended K), (∀ m < times.size, times.getD m default ≠ undefined) →
        resampleRows fine times w = resampleRows oldTimes times v := by
  obtain ⟨m₀, hm₀, -⟩ := hmem 0 hsome
  refine ⟨_, resampleRows_of_defined h hsome hshape hfine.defined, rfl, ?_⟩
  intro times hdefined
  rw [resampleRows_of_defined hfine (by omega) rfl hdefined,
    resampleRows_of_defined h hsome hshape hdefined]
  refine congrArg Except.ok (Tensor.ext_elements rfl rfl ?_)
  intro i hi m hm
  rw [get_interpolatedRows hi hm, get_interpolatedRows hi hm]
  refine interpolate_refined h hsome hfine hmem ?_ (hdefined m hm)
  intro m' hm'
  rw [getD_rowOf hm', get_interpolatedRows hi hm', hfine.get m' hm']

end Rows

/-! ## Trajectories -/

section Values

variable {kind : Option Kind} {v : Tensor (Extended K)}

variable (h : Climbs oldTimes q) (hsome : 0 < oldTimes.size)
  (hcolumns : kind.any Kind.onGrid = true → ∃ rows, v.atLeast2D.shape = [rows, oldTimes.size])

include h hsome hcolumns

/-- Carried to its own times a value stays as it is. -/
theorem carriedValue_own : carriedValue oldTimes oldTimes kind v = v.atLeast2D := by
  by_cases hkind : kind.any Kind.onGrid = true
  · obtain ⟨rows, hshape⟩ := hcolumns hkind
    exact carriedValue_of_onGrid hkind (resampleRows_own h hsome hshape)
  · exact carriedValue_of_not_onGrid hkind

/-- A value that is carried to more times has a column for each of them, and arrives everywhere as
    the value itself does. -/
theorem carriedValue_refined (hfine : Climbs fine f)
    (hmem : ∀ j < oldTimes.size, ∃ m < fine.size, f m = q j) :
    (kind.any Kind.onGrid = true →
      ∃ rows, (carriedValue oldTimes fine kind v).atLeast2D.shape = [rows, fine.size]) ∧
    ∀ times : Array (Extended K), (∀ m < times.size, times.getD m default ≠ undefined) →
      carriedValue fine times kind (carriedValue oldTimes fine kind v) =
        carriedValue oldTimes times kind v := by
  by_cases hkind : kind.any Kind.onGrid = true
  · obtain ⟨rows, hshape⟩ := hcolumns hkind
    obtain ⟨w, hw, hwshape, hsame⟩ := resampleRows_refined h hsome hfine hmem hshape
    have hmatrix : w.atLeast2D = w := atLeast2D_of_matrix (by simp [hwshape])
    rw [carriedValue_of_onGrid hkind hw]
    refine ⟨fun _ => ⟨rows, by rw [hmatrix, hwshape]⟩, ?_⟩
    intro times hdefined
    have htimes := resampleRows_of_defined h hsome hshape hdefined
    rw [carriedValue_of_onGrid hkind htimes]
    refine carriedValue_of_onGrid hkind ?_
    rw [hmatrix, hsame times hdefined, htimes]
  · refine ⟨fun hgrid => absurd hgrid hkind, ?_⟩
    intro times _
    rw [carriedValue_of_not_onGrid hkind, carriedValue_of_not_onGrid hkind,
      carriedValue_of_not_onGrid hkind, atLeast2D_idem]

end Values

namespace Trajectory

/-- Values that arrive from other times as they do at once make up the trajectory that does. -/
theorem carried_carried {α : Type} [Number α] {t : Trajectory α} {fine times : Array α}
    (h : ∀ e ∈ t.values,
      carriedValue fine times e.1.kind? (carriedValue t.times.written fine e.1.kind? e.2) =
        carriedValue t.times.written times e.1.kind? e.2) :
    (t.carried fine).carried times = t.carried times := by
  have htimes : (t.carried fine).times.written = fine := Tensor.written_vector fine
  refine congrArg (fun values => iterate values (.vector times) t.names) ?_
  show ((t.carried fine).values.map fun e : Key α × Tensor α =>
    (e.1, carriedValue (t.carried fine).times.written times e.1.kind? e.2)) = _
  rw [htimes]
  show (t.values.map _).map _ = _
  rw [List.map_map]
  refine List.map_congr_left fun e he => ?_
  exact congrArg (Prod.mk e.1) (h e he)

variable {t : Trajectory (Extended K)}

/-- Let the times of a trajectory, of which there is at least one, climb, let every value on the
    grid have a column for each of them, and let further times climb among which they all are.
    Carried to these and then to any others, in any order, the trajectory is what it is when it is
    carried there at once; and carried back to its own times it has its own values again. -/
theorem resample_of_refined (h : Climbs t.times.written q) (hsome : 0 < t.times.written.size)
    (hcolumns : t.HasColumns t.times.written.size) (hfine : Climbs fine f)
    (hsub : ∀ x ∈ t.times.written, x ∈ fine) :
    ∃ u, t.resample fine = .ok u ∧
      (∀ times : Array (Extended K), (∀ x ∈ times, x ≠ undefined) →
        ∃ w, t.resample times = .ok w ∧ u.resample times = .ok w) ∧
      ∃ w, u.resample t.times.written = .ok w ∧
        w.values = t.values.map fun e => (e.1, e.2.atLeast2D) := by
  have hmem : ∀ j < t.times.written.size, ∃ m < fine.size, f m = q j := by
    intro j hj
    obtain ⟨m, hm, hknot⟩ := Array.getElem_of_mem (hsub _ (Array.getElem_mem hj))
    refine ⟨m, hm, Extended.finite.inj ?_⟩
    rw [← hfine.get m hm, ← h.get j hj]
    simp [Array.getD, hj, hm, hknot]
  obtain ⟨m₀, hm₀, -⟩ := hmem 0 hsome
  have hvalue := fun e he => carriedValue_refined h hsome (hcolumns e he) hfine hmem
  have htimes : (t.carried fine).times.written = fine := Tensor.written_vector fine
  have hcolumns' : (t.carried fine).HasColumns (t.carried fine).times.written.size := by
    rw [htimes]
    intro e' he' hkind
    obtain ⟨e, he, rfl⟩ := List.mem_map.mp he'
    exact (hvalue e he).1 hkind
  -- what arrives from the finer times arrives from the old ones
  have hcarried : ∀ times : Array (Extended K),
      (∀ m < times.size, times.getD m default ≠ undefined) →
        (t.carried fine).resample times = .ok (t.carried times) := by
    intro times hdefined
    rw [resample_eq_carried (htimes ▸ hfine) (by rw [htimes]; omega) hcolumns' times,
      carried_carried fun e he => (hvalue e he).2 times hdefined]
  refine ⟨t.carried fine, resample_eq_carried h hsome hcolumns fine, ?_, ?_⟩
  · intro times hdefined
    exact ⟨_, resample_eq_carried h hsome hcolumns times,
      hcarried times (getD_ne_undefined hdefined)⟩
  · refine ⟨_, hcarried _ h.defined, ?_⟩
    refine List.map_congr_left fun e he => ?_
    exact congrArg (Prod.mk e.1) (carriedValue_own h hsome (hcolumns e he))

/-- More times in the range and on either side of it. -/
theorem resample_of_refined_uneven :
    ∃ u w, unevenRun.resample (#[-1, 0, 1 / 2, 1, 3, 5].map finite) = .ok u ∧
      unevenRun.resample (#[2, 4, -2].map finite) = .ok w ∧
      u.resample (#[2, 4, -2].map finite) = .ok w ∧
      ∃ w', u.resample unevenRun.times.written = .ok w' ∧
        Keyed.find? w'.values (.kind .states) = Keyed.find? unevenRun.values (.kind .states) := by
  have hfine : Climbs ((#[-1, 0, 1 / 2, 1, 3, 5] : Array ℚ).map finite)
      fun j => ([-1, 0, 1 / 2, 1, 3, 5] : List ℚ).getD j 0 :=
    ⟨by decide +kernel, by decide +kernel⟩
  obtain ⟨u, hu, hthere, w', hback, hvalues⟩ := resample_of_refined climbs_unevenRun
    (by decide +kernel) hasColumns_unevenRun hfine (by decide +kernel)
  obtain ⟨w, hw, hw'⟩ := hthere (#[2, 4, -2].map finite) (by decide +kernel)
  refine ⟨u, w, hu, hw, hw', w', hback, ?_⟩
  rw [hvalues]
  rfl

end Trajectory

end Collocation
