import Collocation.Proofs.Literal
import Collocation.Proofs.Scheme.Construction
import Collocation.Scheme.Transcription

/-! # The phases of a transcription

  A transcription first prepares the scheme: it fixes the grid and sets the time law, the weights,
  the mask and the objective. Then the rule writes its constraints, and at last the scheme is
  closed. -/

namespace Collocation

variable {α : Type} [Number α]

/-- A vector is written in the order in which it is kept. -/
theorem Tensor.written_vector (xs : Array α) : (Tensor.vector xs).written = xs :=
  written_of_shape (n := xs.size) rfl

namespace Scheme

variable {p : Problem α} {s s' : Scheme α}

/-! ## Preparing -/

/-- Times are set exactly if the end times are there and both expressions fit together. -/
theorem setTimes_eq_ok_iff : setTimes s = .ok () s' ↔
    ∃ initial final duration points times,
      s.wholeOf .initialTime = .ok initial ∧ s.wholeOf .finalTime = .ok final ∧
      Sized.ofExpr (final.expr - initial.expr) = .ok duration ∧ s.gridVector = .ok points ∧
      Sized.ofExpr (timesExpr points initial.expr final.expr) = .ok times ∧
      s' = { s with duration := some duration, times := some times } := by
  constructor
  · intro h
    unfold setTimes at h
    rw [run_get_bind] at h
    obtain ⟨initial, hinitial, h⟩ := run_attempt_bind_eq_ok h
    obtain ⟨final, hfinal, h⟩ := run_attempt_bind_eq_ok h
    obtain ⟨duration, hduration, h⟩ := run_attempt_bind_eq_ok h
    rw [run_set_bind] at h
    obtain ⟨points, hpoints, h⟩ := run_attempt_bind_eq_ok h
    obtain ⟨times, htimes, h⟩ := run_attempt_bind_eq_ok h
    cases h
    exact ⟨initial, final, duration, points, times, hinitial, hfinal, hduration, hpoints, htimes,
      rfl⟩
  · rintro ⟨initial, final, duration, points, times, hinitial, hfinal, hduration, hpoints, htimes,
      rfl⟩
    unfold setTimes
    rw [run_get_bind]
    apply run_attempt_bind_of_ok hinitial
    apply run_attempt_bind_of_ok hfinal
    apply run_attempt_bind_of_ok hduration
    rw [run_set_bind]
    apply run_attempt_bind_of_ok hpoints
    exact run_attempt_bind_of_ok htimes rfl

/-- A grid is accepted if it has as many points as are declared, and some, if no point fails to lie
    above the one before it, and if the first one is not below zero and the last one not above
    one. -/
theorem checkedGrid_eq_ok_iff {points : Array α} : s.checkedGrid = .ok points ↔
    s.grid.map Tensor.written = some points ∧ points.size = s.gridPoints ∧ 0 < points.size ∧
      hasDescent points = false ∧ Number.below (points.getD 0 default) Number.zero = false ∧
      Number.below Number.one (points.getD (points.size - 1) default) = false := by
  unfold checkedGrid
  cases hgrid : s.grid with
  | none => simp
  | some grid =>
    rw [Option.map_some, Option.some.injEq]
    constructor
    · intro h
      simp only at h
      split_ifs at h with hsize hempty hrefused
      cases h
      simp only [Bool.or_eq_true, not_or, Bool.not_eq_true] at hrefused
      exact ⟨rfl, not_not.mp hsize, by simpa [Array.size_pos_iff] using hempty, hrefused.1.1,
        hrefused.1.2, hrefused.2⟩
    · rintro ⟨rfl, hsize, hpos, hdescent, hfirst, hlast⟩
      have hsome : ¬grid.written.isEmpty = true := by simpa [Array.size_pos_iff] using hpos
      simp only
      rw [if_neg (not_not.mpr hsize), if_neg hsome, hdescent, hfirst, hlast]
      rfl

/-- A grid is checked as it is written. -/
theorem written_of_checkedGrid {points : Array α} (h : s.checkedGrid = .ok points) :
    s.grid.map Tensor.written = some points :=
  (checkedGrid_eq_ok_iff.mp h).1

theorem gridPoints_of_checkedGrid {points : Array α} (h : s.checkedGrid = .ok points) :
    s.gridPoints = points.size :=
  (checkedGrid_eq_ok_iff.mp h).2.1.symm

/-- A grid that was checked has points. -/
theorem gridPoints_pos_of_checkedGrid {points : Array α} (h : s.checkedGrid = .ok points) :
    0 < s.gridPoints := by
  rw [gridPoints_of_checkedGrid h]
  exact (checkedGrid_eq_ok_iff.mp h).2.2.1

omit [Number α] in
theorem checkGridVector_eq_ok {which : GridVector} {v w : Array α}
    (h : s.checkGridVector which v = .ok w) : w = v := by
  unfold checkGridVector at h
  split_ifs at h
  cases h
  rfl

/-- The weights are those of the rule. -/
theorem quadratureWeights_eq_ok {weights : Array α} (h : s.quadratureWeights = .ok weights) :
    s.rule.quadratureWeights s.gridPoints s.grid = .ok weights := by
  obtain ⟨w, hw, hcheck⟩ := bind_eq_ok h
  rw [hw, checkGridVector_eq_ok hcheck]

/-- What a preparation finds. -/
structure Draft (α : Type) where
  points : Array α
  initial : Sized Kind α
  final : Sized Kind α
  duration : Sized Kind α
  times : Sized Kind α
  weights : Array α
  mask : Array α
  objective : Expr Kind α

/-- The scheme with what a preparation found. -/
def Draft.write (d : Draft α) (s : Scheme α) : Scheme α :=
  { s with
    grid := some (.vector d.points), gridLocked := true, duration := some d.duration,
    times := some d.times, weights := some d.weights, mask := some d.mask,
    objective := d.objective }

/-- What there is to find in a scheme for a problem. -/
structure Draft.Of (d : Draft α) (p : Problem α) (s : Scheme α) : Prop where
  untouched : s.transcribed = false
  points : s.checkedGrid = .ok d.points
  complete : s.checkVariables = .ok ()
  initial : s.wholeOf .initialTime = .ok d.initial
  final : s.wholeOf .finalTime = .ok d.final
  duration : Sized.ofExpr (d.final.expr - d.initial.expr) = .ok d.duration
  times : Sized.ofExpr (timesExpr d.points d.initial.expr d.final.expr) = .ok d.times
  weights : (d.write s).quadratureWeights = .ok d.weights
  mask : (d.write s).kinematicMask = .ok d.mask
  objective : (d.write s).costExpr p d.weights = .ok d.objective

/-- A preparation ends well exactly if there is everything to find. -/
theorem prepare_eq_ok_iff : prepare p s = .ok () s' ↔ ∃ d : Draft α, d.Of p s ∧ s' = d.write s := by
  have hwritten : ∀ points : Array α,
      { s with grid := some (.vector points), gridLocked := true }.gridVector = .ok points := by
    intro points
    exact congrArg Except.ok (Tensor.written_vector points)
  constructor
  · intro h
    unfold prepare at h
    rw [run_get_bind] at h
    by_cases htranscribed : s.transcribed
    · rw [if_pos htranscribed] at h
      cases h
    rw [if_neg htranscribed] at h
    -- the grid is fixed before anything that depends on it
    obtain ⟨points, hpoints, h⟩ := run_attempt_bind_eq_ok h
    rw [run_set_bind] at h
    obtain ⟨_, hvariables, h⟩ := run_attempt_bind_eq_ok h
    obtain ⟨_, s₁, hset, h⟩ := run_bind_eq_ok h
    obtain ⟨initial, final, duration, points', times, hinitial, hfinal, hduration, hpoints', htimes,
      rfl⟩ := setTimes_eq_ok_iff.mp hset
    cases (hwritten points).symm.trans hpoints'
    rw [run_get_bind] at h
    obtain ⟨weights, hweights, h⟩ := run_attempt_bind_eq_ok h
    rw [run_modify_bind, run_get_bind] at h
    obtain ⟨mask, hmask, h⟩ := run_attempt_bind_eq_ok h
    rw [run_modify_bind, run_get_bind] at h
    obtain ⟨objective, hobjective, h⟩ := run_attempt_bind_eq_ok h
    cases h
    exact ⟨⟨points, initial, final, duration, times, weights, mask, objective⟩,
      ⟨Bool.eq_false_iff.mpr htranscribed, hpoints, hvariables, hinitial, hfinal, hduration, htimes,
        hweights, hmask, hobjective⟩, rfl⟩
  · rintro ⟨d, hd, rfl⟩
    -- the same steps, each of which finds what it looks for
    have hset : setTimes { s with grid := some (.vector d.points), gridLocked := true } = .ok ()
        { s with
          grid := some (.vector d.points), gridLocked := true, duration := some d.duration,
          times := some d.times } :=
      setTimes_eq_ok_iff.mpr ⟨d.initial, d.final, d.duration, d.points, d.times, hd.initial,
        hd.final, hd.duration, hwritten d.points, hd.times, rfl⟩
    unfold prepare
    rw [run_get_bind, if_neg (by simp [hd.untouched])]
    apply run_attempt_bind_of_ok hd.points
    rw [run_set_bind]
    apply run_attempt_bind_of_ok hd.complete
    rw [run_ok_bind hset, run_get_bind]
    apply run_attempt_bind_of_ok hd.weights
    rw [run_modify_bind, run_get_bind]
    apply run_attempt_bind_of_ok hd.mask
    rw [run_modify_bind, run_get_bind]
    exact run_attempt_bind_of_ok hd.objective rfl

/-! ## The whole transcription -/

theorem transcribe_eq_ok (h : transcribe p s = .ok () s') :
    ∃ s₁ s₂, prepare p s = .ok () s₁ ∧ applyRule p s₁ = .ok () s₂ ∧
      s' = { s₂ with transcribed := true } := by
  obtain ⟨_, s₁, hprepare, h⟩ := run_bind_eq_ok h
  obtain ⟨_, s₂, happly, h⟩ := run_bind_eq_ok h
  cases h
  exact ⟨s₁, s₂, hprepare, happly, rfl⟩

theorem transcribe_eq_error {fault : Fault α} (h : transcribe p s = .error fault s') :
    prepare p s = .error fault s' ∨
      ∃ s₁, prepare p s = .ok () s₁ ∧ applyRule p s₁ = .error fault s' := by
  rcases run_bind_eq_error h with hprepare | ⟨_, s₁, hprepare, h₁⟩
  · exact .inl hprepare
  · rcases run_bind_eq_error h₁ with happly | ⟨_, s₂, -, hend⟩
    · exact .inr ⟨s₁, hprepare, happly⟩
    · cases hend

end Scheme
end Collocation
