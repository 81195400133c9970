import Collocation.Proofs.Interpolation
import Collocation.Proofs.Scheme.Steps
import Collocation.Proofs.Scheme.Values
import Collocation.Proofs.Trajectory

/-! # Trajectories on the grid of a scheme

  A transcribed scheme, of whatever rule, has a grid that climbs and decision variables that fit
  it. A trajectory that lives there has values of these sizes and the times of the grid between its
  own end times; carried to the scheme it stays what it is. -/

namespace Collocation

open Extended

variable {K : Type} [Field K] [LinearOrder K] [FloorRing K] [Interpretation K]
  [IsStrictOrderedRing K] {p : Problem (Extended K)} {s s' : Scheme (Extended K)}
  {grid : Array (Extended K)} {q : Nat → K}

namespace Scheme

/-! ## Transcribed schemes -/

/-- A transcribed scheme with variables that were made for a problem, on a grid of finite points. -/
structure OnGrid (s : Scheme (Extended K)) (grid : Array (Extended K)) (q : Nat → K) : Prop where
  transcribed : s.transcribed = true
  gridVector : s.gridVector = .ok grid
  climbs : Climbs grid q
  pos : 0 < grid.size
  extents : ∃ (p : Problem (Extended K)) (derivatives slacks : Nat),
    s.extents = .full (kindExtent p grid.size derivatives slacks)

/-- An accepted grid without an undefined point is finite. -/
theorem exists_climbs_of_checkedGrid (h : s.checkedGrid = .ok grid)
    (hdefined : ∀ x ∈ grid, x ≠ undefined) : 0 < grid.size ∧ ∃ q, Climbs grid q := by
  obtain ⟨-, -, hpos, hdescent, hfirst, hlast⟩ := checkedGrid_eq_ok_iff.mp h
  have hget := getD_ne_undefined hdefined
  -- the first point is not below zero and the last one not above one
  have hstart : (grid.getD 0 default).IsUpper := by
    have hne := hget 0 hpos
    cases hpoint : grid.getD 0 default with
    | finite x => exact .inl ⟨x, rfl⟩
    | infinite negative =>
      cases negative with
      | false => exact .inr rfl
      | true =>
        rw [hpoint, zero_eq] at hfirst
        cases hfirst
    | undefined => exact absurd hpoint hne
  have hend : grid.getD (grid.size - 1) default ≠ infinite false := by
    intro hinfinite
    rw [hinfinite, one_eq] at hlast
    cases hlast
  choose q hq using getD_finite_of_climb hdescent hget hstart hend
  exact ⟨hpos, q, climbs_of_hasDescent hdescent hq⟩

omit [IsStrictOrderedRing K] in
/-- The points of an accepted grid that climbs lie in the unit interval. -/
theorem unit_of_checkedGrid (h : s.checkedGrid = .ok grid) (hclimbs : Climbs grid q) {i : Nat}
    (hi : i < grid.size) : 0 ≤ q i ∧ q i ≤ 1 := by
  obtain ⟨-, -, hpos, -, hfirst, hlast⟩ := checkedGrid_eq_ok_iff.mp h
  rw [hclimbs.get 0 hpos, zero_eq, ← Bool.not_eq_true, below_finite, not_lt] at hfirst
  rw [hclimbs.get _ (by omega), one_eq, ← Bool.not_eq_true, below_finite, not_lt] at hlast
  exact ⟨hfirst.trans (hclimbs.le (Nat.zero_le i) hi),
    (hclimbs.le (by omega) (by omega)).trans hlast⟩

section Accepted

variable {α : Type} [Number α] {p : Problem α} {s s' : Scheme α}

/-- A transcription ends on the grid that it accepted. -/
theorem exists_points_of_transcribe (h : transcribe p s = .ok () s') :
    ∃ points, s.checkedGrid = .ok points ∧ s'.gridVector = .ok points := by
  obtain ⟨s₁, s₂, hprepare, happly, rfl⟩ := transcribe_eq_ok h
  obtain ⟨d, hd, rfl⟩ := prepare_eq_ok_iff.mp hprepare
  have hpoints : s₂.gridVector = .ok d.points := by
    rw [(steady_applyRule.later_of_ok happly).rest]
    exact congrArg Except.ok (Tensor.written_vector _)
  exact ⟨d.points, hd.points, hpoints⟩

/-- The grid of a transcribed scheme was accepted. -/
theorem checkedGrid_of_transcribe {grid : Array α} (h : transcribe p s = .ok () s')
    (hgrid : s'.gridVector = .ok grid) : s.checkedGrid = .ok grid := by
  obtain ⟨points, hchecked, hpoints⟩ := exists_points_of_transcribe h
  exact hchecked.trans (hpoints.symm.trans hgrid)

/-- The grid of a transcribed scheme is the one that was set. -/
theorem gridVector_of_transcribe (h : transcribe p s = .ok () s') :
    s'.gridVector = s.gridVector := by
  obtain ⟨points, hchecked, hpoints⟩ := exists_points_of_transcribe h
  obtain ⟨grid, hgrid, hwritten⟩ := Option.map_eq_some_iff.mp (written_of_checkedGrid hchecked)
  rw [hpoints]
  unfold gridVector
  rw [hgrid, ← hwritten]

end Accepted

/-- A transcribed scheme has the variables it had before, and those on the grid have a column for
    every grid point. -/
theorem columns_of_transcribe {α : Type} [Number α] {p p' : Problem α} {s s' : Scheme α}
    {grid : Array α} (hvariables : extentsFor p s.gridPoints = .ok s.extents)
    (h : transcribe p' s = .ok () s') (hgrid : s'.gridVector = .ok grid) :
    s'.transcribed = true ∧ s'.extents = s.extents ∧ 0 < grid.size ∧
      ∀ k e, k.onGrid = true → s'.extents.find? k = some e → e.cols = grid.size := by
  have hchecked := checkedGrid_of_transcribe h hgrid
  obtain ⟨derivatives, slacks, -, -, hextents⟩ := extentsFor_eq_ok hvariables
  obtain ⟨s₁, s₂, hprepare, happly, rfl⟩ := transcribe_eq_ok h
  obtain ⟨d, hd, rfl⟩ := prepare_eq_ok_iff.mp hprepare
  have hsame : s₂.extents = s.extents := (steady_applyRule.later_of_ok happly).extents
  refine ⟨rfl, hsame, (checkedGrid_eq_ok_iff.mp hchecked).2.2.1, fun k e hk he => ?_⟩
  change s₂.extents.find? k = some e at he
  rw [hsame, hextents, Table.find?_full, Option.some.injEq] at he
  rw [← he, kindExtent_eq, if_pos hk, gridPoints_of_checkedGrid hchecked]

/-- Every transcription ends on a grid. -/
theorem exists_onGrid (hvariables : extentsFor p s.gridPoints = .ok s.extents)
    {p' : Problem (Extended K)} (h : transcribe p' s = .ok () s')
    (hgrid : s'.gridVector = .ok grid) (hdefined : ∀ x ∈ grid, x ≠ undefined) :
    ∃ q, s'.OnGrid grid q := by
  have hchecked := checkedGrid_of_transcribe h hgrid
  obtain ⟨hpos, q, hclimbs⟩ := exists_climbs_of_checkedGrid hchecked hdefined
  obtain ⟨htranscribed, hsame, -⟩ := columns_of_transcribe hvariables h hgrid
  obtain ⟨derivatives, slacks, -, -, hextents⟩ := extentsFor_eq_ok hvariables
  refine ⟨q, htranscribed, hgrid, hclimbs, hpos, p, derivatives, slacks, ?_⟩
  rw [hsame, ← gridPoints_of_checkedGrid hchecked]
  exact hextents

omit [IsStrictOrderedRing K] in
/-- Bounds that are written later and functions that are built later change nothing. -/
theorem OnGrid.of_agreesButConstraints (hs : s.OnGrid grid q) (h : s.AgreesButConstraints s') :
    s'.OnGrid grid q := by
  obtain ⟨_, _, _, _, _, _, _, rfl⟩ := h
  exact ⟨hs.transcribed, hs.gridVector, hs.climbs, hs.pos, hs.extents⟩

namespace OnGrid

variable (hs : s.OnGrid grid q)

include hs

omit [IsStrictOrderedRing K] in
theorem createTimes (initial final : Extended K) :
    s.createTimes initial final = .ok (timesBetween grid initial final) :=
  createTimes_eq hs.gridVector initial final

omit [IsStrictOrderedRing K] in
/-- A kind on the grid has a column for every grid point. -/
theorem exists_rows {k : Kind} (hk : k.onGrid) {e : Extent} (he : s.extents.find? k = some e) :
    ∃ rows, e = ⟨rows, grid.size⟩ := by
  obtain ⟨p, derivatives, slacks, hextents⟩ := hs.extents
  rw [hextents, Table.find?_full] at he
  cases he
  cases k <;> first | exact ⟨_, rfl⟩ | cases hk

omit [IsStrictOrderedRing K] in
theorem extent_time : s.extents.find? .initialTime = some .unit ∧
    s.extents.find? .finalTime = some .unit := by
  obtain ⟨p, derivatives, slacks, hextents⟩ := hs.extents
  rw [hextents]
  exact ⟨rfl, rfl⟩

end OnGrid
end Scheme

/-! ## Trajectories -/

/-- The trajectory has values of the sizes of the scheme's decision variables, each under one key,
    finite end times, and the times of the scheme's grid between them. -/
structure Trajectory.LivesOn (t : Trajectory (Extended K)) (s : Scheme (Extended K)) : Prop where
  distinct : t.values.Distinct
  values : ∃ values, t.values.toTable = .ok values ∧ Layout.Fits s.extents values
  times : ∃ initial final : K, t.first .initialTime = .ok (finite initial) ∧
    t.first .finalTime = .ok (finite final) ∧
    s.createTimes (finite initial) (finite final) = .ok t.times.written

namespace Scheme.OnGrid

variable (hs : s.OnGrid grid q)

include hs

/-- A value on the grid is carried to the grid as it is. -/
theorem resampleValue_self {values : Table (Tensor (Extended K))}
    (hfits : Layout.Fits s.extents values) {k : Kind} {v : Tensor (Extended K)}
    (hv : values.find? k = some v) (initial final : K) :
    Trajectory.resampleValue (timesBetween grid (finite initial) (finite final))
      (timesBetween grid (finite initial) (finite final)) (.kind k) v = .ok v := by
  have hshape := hfits k
  rw [hv, Option.map_some] at hshape
  obtain ⟨e, he, hshape⟩ := Option.map_eq_some_iff.mp hshape.symm
  have hself : v.atLeast2D = v := atLeast2D_of_shape hshape.symm
  unfold Trajectory.resampleValue
  simp only [Key.kind?, hself]
  by_cases hk : k.onGrid
  · rw [if_pos hk]
    obtain ⟨rows, rfl⟩ := hs.exists_rows hk he
    exact resampleRows_self hs.climbs hs.pos hshape.symm initial final
  · rw [if_neg hk]

/-- A trajectory that lives on the grid becomes the vector of its own values. -/
theorem exists_carried {t : Trajectory (Extended K)} (ht : t.LivesOn s) :
    ∃ x guess, t.flatten = .ok x ∧ s.carryGuess t = .ok guess ∧ s.flattenGuess guess = .ok x := by
  obtain ⟨values, htable, hfits⟩ := ht.values
  obtain ⟨initial, final, hinitial, hfinal, htimes⟩ := ht.times
  rw [hs.createTimes, Except.ok.injEq] at htimes
  have hself : ∀ k v, values.find? k = some v →
      Trajectory.resampleValue t.times.written t.times.written (.kind k) v = .ok v := by
    intro k v hv
    rw [← htimes]
    exact hs.resampleValue_self hfits hv initial final
  obtain ⟨carried, hcarried, hfind⟩ := Trajectory.resample_eq_ok ht.distinct htable hself
  refine ⟨_, .iterate carried (.vector t.times.written) t.names, Trajectory.flatten_eq_ok htable,
    ?_, flattenGuess_eq_ok hfits ?_⟩
  · rw [carryGuess_eq hs.gridVector hinitial hfinal, htimes]
    exact hcarried
  · intro k
    rw [Trajectory.iterate, hfind]
    simp

end Scheme.OnGrid
end Collocation
