import Collocation.Interpolation
import Collocation.Proofs.Layout
import Collocation.Proofs.Mesh
import Collocation.Proofs.Times

/-! # Interpolation between knots

  Through knots that climb there is one line for every place between two of them. At a knot the
  interpolation has the value of the knot, and everywhere it stays within all bounds that the values
  keep. Rows that are carried between the times of two grids keep their end values, and carried to
  their own times they stay as they are. -/

namespace Collocation

open Extended

variable {K : Type} [Field K] [LinearOrder K] [FloorRing K] [Interpretation K]
  {knots values : Array (Extended K)} {q : Nat → K}

/-! ## Climbing points -/

theorem Climbs.lt (h : Climbs knots q) {i j : Nat} (hij : i < j) (hj : j < knots.size) :
    q i < q j := by
  induction j with
  | zero => omega
  | succ j ih =>
    have hstep := h.climb j (by omega)
    rcases Nat.lt_succ_iff_lt_or_eq.mp hij with hlt | rfl
    · exact (ih hlt (by omega)).trans hstep
    · exact hstep

theorem Climbs.le (h : Climbs knots q) {i j : Nat} (hij : i ≤ j) (hj : j < knots.size) :
    q i ≤ q j := by
  rcases Nat.lt_or_eq_of_le hij with hlt | rfl
  · exact (h.lt hlt hj).le
  · exact le_rfl

theorem Climbs.defined (h : Climbs knots q) :
    ∀ j < knots.size, knots.getD j default ≠ undefined := by
  intro j hj
  rw [h.get j hj]
  simp

/-! ## Places among the knots -/

theorem takeWhile_iff {β : Type} {p : β → Bool} {l : List β} {i : Nat} (hi : i < l.length) :
    (i < (l.takeWhile p).length → p l[i]) ∧ (i = (l.takeWhile p).length → ¬p l[i]) := by
  induction l generalizing i with
  | nil => cases hi
  | cons x l ih =>
    rw [List.takeWhile_cons]
    by_cases hx : p x
    · cases i with
      | zero => simp [hx]
      | succ i => simpa [hx] using ih (Nat.lt_of_succ_lt_succ hi)
    · simp only [hx, Bool.false_eq_true, if_false, List.length_nil, Nat.not_lt_zero, false_imp_iff,
        true_and]
      rintro rfl
      exact hx

/-- The knots up to a place are those at or below it. -/
theorem knotsUpTo_iff (h : ∀ i < knots.size, knots.getD i default = finite (q i)) (x : K) :
    knotsUpTo knots (finite x) ≤ knots.size ∧
      (∀ i < knotsUpTo knots (finite x), q i ≤ x) ∧
      (knotsUpTo knots (finite x) < knots.size → x < q (knotsUpTo knots (finite x))) := by
  have hsize : knotsUpTo knots (finite x) ≤ knots.size :=
    (List.takeWhile_sublist _).length_le.trans_eq Array.length_toList
  have hget : ∀ i, ∀ hi : i < knots.toList.length, knots.toList[i] = finite (q i) := by
    intro i hi
    rw [Array.length_toList] at hi
    rw [Array.getElem_toList, ← h i hi, Array.getD_eq_getD_getElem?, Array.getElem?_eq_getElem hi,
      Option.getD_some]
  refine ⟨hsize, ?_, ?_⟩
  · intro i hi
    have hi' : i < knots.size := by omega
    have hknot := (takeWhile_iff (p := fun knot => Number.atMost knot (finite x)) hi').1 hi
    rw [hget i hi', atMost_finite] at hknot
    exact hknot
  · intro hi
    have hknot := (takeWhile_iff (p := fun knot => Number.atMost knot (finite x)) hi).2 rfl
    rw [hget _ hi, atMost_finite] at hknot
    exact lt_of_not_ge hknot

/-- From a knot on, up to the next one, the count stays the same. -/
theorem knotsUpTo_eq (h : Climbs knots q) {j : Nat} {x : K} (hj : j < knots.size) (hle : q j ≤ x)
    (hlt : j + 1 < knots.size → x < q (j + 1)) : knotsUpTo knots (finite x) = j + 1 := by
  obtain ⟨hsize, hbelow, habove⟩ := knotsUpTo_iff h.get x
  rcases lt_trichotomy (knotsUpTo knots (finite x)) (j + 1) with hfew | heq | hmany
  · -- the knot itself would not be counted
    have hstop := habove (by omega)
    have hstep := h.le (show knotsUpTo knots (finite x) ≤ j by omega) hj
    exact absurd (hstep.trans hle) (not_le_of_gt hstop)
  · exact heq
  · -- the next knot would be counted
    have hnext := hbelow (j + 1) hmany
    exact absurd (hlt (by omega)) (not_lt_of_ge hnext)

theorem knotsUpTo_knot (h : Climbs knots q) {j : Nat} (hj : j < knots.size) :
    knotsUpTo knots (finite (q j)) = j + 1 :=
  knotsUpTo_eq h hj le_rfl fun hnext => h.lt (Nat.lt_succ_self j) hnext

/-! ## Values -/

/-- At a knot the interpolation has the value of the knot. -/
theorem interpolate_knot (h : Climbs knots q) {j : Nat} (hj : j < knots.size) :
    interpolate knots values (finite (q j)) = values.getD j default := by
  have hequal : Number.equal (knots.getD j default) (finite (q j)) = true := by
    rw [equal_iff, h.get j hj]
    simp
  have hdefined : Number.isUndefined (finite (q j)) = false := by
    rw [← Bool.not_eq_true, isUndefined_iff]
    simp
  unfold interpolate
  simp only [hdefined, knotsUpTo_knot h hj, Nat.add_sub_cancel, hequal, Bool.false_eq_true,
    if_false, if_true, Nat.succ_ne_zero, ite_self]

/-- The line through two knots. -/
theorem lineAt_eq {j : Nat} {a b u v : K} (ha : knots.getD j default = finite a)
    (hb : knots.getD (j + 1) default = finite b) (hu : values.getD j default = finite u)
    (hv : values.getD (j + 1) default = finite v) (hne : a ≠ b) (x : K) :
    lineAt knots values j (finite x) = finite (u + (v - u) * (x - a) / (b - a)) := by
  have hnonzero : b - a ≠ 0 := sub_ne_zero.mpr hne.symm
  have hline : (finite v - finite u) / (finite b - finite a) * (finite x - finite a) + finite u =
      (finite ((v - u) / (b - a) * (x - a) + u) : Extended K) := by
    simp only [finite_sub, finite_div _ hnonzero, finite_mul, finite_add]
  unfold lineAt
  simp only [ha, hb, hu, hv, hline]
  rw [if_pos (by
    rw [Bool.not_eq_true', ← Bool.not_eq_true, isUndefined_iff]
    simp)]
  congr 1
  ring

variable [IsStrictOrderedRing K]

/-- On a line between two knots the value is a mean of their values. -/
theorem lineAt_between {j : Nat} {a b u v x : K} (ha : knots.getD j default = finite a)
    (hb : knots.getD (j + 1) default = finite b) (hu : values.getD j default = finite u)
    (hv : values.getD (j + 1) default = finite v) (hax : a ≤ x) (hxb : x < b) :
    ∃ w, 0 ≤ w ∧ w ≤ 1 ∧ lineAt knots values j (finite x) = finite (u + w * (v - u)) := by
  have hpos : 0 < b - a := sub_pos.mpr (hax.trans_lt hxb)
  refine ⟨(x - a) / (b - a), div_nonneg (sub_nonneg.mpr hax) hpos.le, ?_, ?_⟩
  · rw [div_le_one hpos]
    linarith
  · rw [lineAt_eq ha hb hu hv (hax.trans_lt hxb).ne]
    congr 1
    ring

/-- The interpolation at a number is the value of a knot or a mean of the values of two. -/
theorem interpolate_eq (h : Climbs knots q) (hsize : 0 < knots.size) {y : Nat → K}
    (hy : ∀ i < knots.size, values.getD i default = finite (y i)) (x : K) :
    ∃ i < knots.size, ∃ j < knots.size, ∃ w, 0 ≤ w ∧ w ≤ 1 ∧
      interpolate knots values (finite x) = finite (y i + w * (y j - y i)) := by
  have hdefined : Number.isUndefined (finite x) = false := by
    rw [← Bool.not_eq_true, isUndefined_iff]
    simp
  obtain ⟨hcount, hbelow, habove⟩ := knotsUpTo_iff h.get x
  have hvalue : ∀ i < knots.size, ∃ i' < knots.size, ∃ j < knots.size, ∃ w : K, 0 ≤ w ∧ w ≤ 1 ∧
      values.getD i default = finite (y i' + w * (y j - y i')) := by
    intro i hi
    exact ⟨i, hi, i, hi, 0, le_rfl, zero_le_one, by rw [hy i hi]; simp⟩
  unfold interpolate
  simp only [hdefined, Bool.false_eq_true, if_false]
  split_ifs with hnone hall hknot
  · exact hvalue 0 hsize
  · exact hvalue _ (by omega)
  · exact hvalue _ (by omega)
  · -- between two knots
    have hnext : knotsUpTo knots (finite x) - 1 + 1 = knotsUpTo knots (finite x) := by omega
    obtain ⟨w, hw, hw', hline⟩ := lineAt_between
      (h.get (knotsUpTo knots (finite x) - 1) (by omega))
      (hnext ▸ h.get (knotsUpTo knots (finite x)) (by omega))
      (hy (knotsUpTo knots (finite x) - 1) (by omega))
      (hnext ▸ hy (knotsUpTo knots (finite x)) (by omega))
      (hbelow _ (by omega)) (habove (by omega))
    exact ⟨_, by omega, _, by omega, w, hw, hw', hline⟩

/-! ## Between two grids -/

section Grids

variable {grid grid' : Array (Extended K)} {q' : Nat → K} {initial final : K}

/-- The times climb with the grid if the final time is after the initial time. -/
theorem climbs_timesBetween (h : Climbs grid q) (hlt : initial < final) :
    Climbs (Scheme.timesBetween grid (finite initial) (finite final))
      (timeLaw q initial final) := by
  constructor
  · intro i hi
    rw [size_timesBetween] at hi
    exact getD_timesBetween hi (h.get i hi) initial final
  · intro k hk
    rw [size_timesBetween] at hk
    rw [← sub_pos, timeLaw_sub]
    exact mul_pos (sub_pos.mpr hlt) (sub_pos.mpr (h.climb k hk))

/-- The abscissae for rows that are carried between the times of two grids. -/
def betweenGrids (grid grid' : Array (Extended K)) (initial final : K) :
    Abscissae (Extended K) :=
  if initial < final then
    ⟨Scheme.timesBetween grid (finite initial) (finite final),
      Scheme.timesBetween grid' (finite initial) (finite final)⟩
  else ⟨evenPoints grid.size, evenPoints grid'.size⟩

/-- Points that climb have positive differences. -/
theorem all_differences_of_climbs {points : Array (Extended K)} (h : Climbs points q) :
    ((differences points).all fun d => Number.below Number.zero d) = true := by
  rw [Array.all_eq_true]
  intro i hi
  have hi' : i + 1 < points.size := by
    simp only [differences, Array.size_ofFn] at hi
    omega
  have hget := getD_differences hi'
  rw [Array.getD_eq_getD_getElem?, Array.getElem?_eq_getElem hi, Option.getD_some] at hget
  rw [hget, h.get _ hi', h.get i (by omega), finite_sub, zero_eq, below_finite, sub_pos]
  exact h.climb i (by omega)

/-- The times of a grid increase exactly if the final time is after the initial time. -/
theorem all_differences_iff (h : Climbs grid q) (htwo : 2 ≤ grid.size) :
    ((differences (Scheme.timesBetween grid (finite initial) (finite final))).all
      fun d => Number.below Number.zero d) = true ↔ initial < final := by
  have hsize : (Scheme.timesBetween grid (finite initial) (finite final)).size = grid.size :=
    size_timesBetween _ _ _
  have hdifference :
      (differences (Scheme.timesBetween grid (finite initial) (finite final))).getD 0 default =
        finite ((final - initial) * (q 1 - q 0)) := by
    rw [getD_differences (by omega), getD_timesBetween (by omega) (h.get _ (by omega)),
      getD_timesBetween (by omega) (h.get 0 (by omega)), finite_sub, timeLaw_sub]
  have hsteps : (differences (Scheme.timesBetween grid (finite initial) (finite final))).size =
      grid.size - 1 := by
    simp [differences, hsize]
  constructor
  · intro hall
    have hfirst := Array.all_eq_true.mp hall 0 (by omega)
    rw [Array.getD_eq_getD_getElem?, Array.getElem?_eq_getElem (by omega), Option.getD_some]
      at hdifference
    rw [hdifference, zero_eq, below_finite] at hfirst
    exact sub_pos.mp (pos_of_mul_pos_left hfirst (sub_nonneg.mpr (h.climb 0 (by omega)).le))
  · intro hlt
    exact all_differences_of_climbs (climbs_timesBetween h hlt)

/-- Times that climb are abscissae themselves. -/
theorem abscissae_of_climbs {old : Array (Extended K)} (h : Climbs old q)
    (new : Array (Extended K)) : abscissae old new = .ok ⟨old, new⟩ := by
  unfold abscissae
  rw [if_pos (all_differences_of_climbs h)]

theorem abscissae_eq (h : Climbs grid q) (htwo : 2 ≤ grid.size) (h' : Climbs grid' q')
    (hsome : 0 < grid'.size) :
    abscissae (Scheme.timesBetween grid (finite initial) (finite final))
        (Scheme.timesBetween grid' (finite initial) (finite final)) =
      .ok (betweenGrids grid grid' initial final) := by
  unfold abscissae betweenGrids
  by_cases hlt : initial < final
  · rw [if_pos ((all_differences_iff h htwo).mpr hlt), if_pos hlt]
  have hsize' : (Scheme.timesBetween grid' (finite initial) (finite final)).size = grid'.size :=
    size_timesBetween _ _ _
  have hempty : (Scheme.timesBetween grid' (finite initial) (finite final)).isEmpty = false := by
    rw [Array.isEmpty, hsize']
    exact decide_eq_false (by omega)
  -- the new times do not advance either
  have hspan : Number.below Number.zero
      ((Scheme.timesBetween grid' (finite initial) (finite final)).getD (grid'.size - 1) default -
        (Scheme.timesBetween grid' (finite initial) (finite final)).getD 0 default) = false := by
    rw [getD_timesBetween (by omega) (h'.get _ (by omega)),
      getD_timesBetween hsome (h'.get 0 hsome), finite_sub, timeLaw_sub, zero_eq,
      ← Bool.not_eq_true, below_finite, not_lt]
    exact mul_nonpos_of_nonpos_of_nonneg (sub_nonpos.mpr (le_of_not_gt hlt))
      (sub_nonneg.mpr (h'.le (Nat.zero_le _) (by omega)))
  rw [if_neg (mt (all_differences_iff h htwo).mp hlt), if_neg hlt, hempty]
  simp only [Bool.false_eq_true, if_false, size_timesBetween, hspan]

/-- The old abscissae climb, whatever the direction of time. -/
theorem exists_climbs_betweenGrids (h : Climbs grid q) (htwo : 2 ≤ grid.size)
    (grid' : Array (Extended K)) (initial final : K) :
    ∃ a, Climbs (betweenGrids grid grid' initial final).old a := by
  unfold betweenGrids
  by_cases hlt : initial < final
  · rw [if_pos hlt]
    exact ⟨_, climbs_timesBetween h hlt⟩
  · rw [if_neg hlt]
    obtain ⟨a, ha⟩ := exists_isMesh_evenPoints (K := K) htwo
    exact ⟨a, ha.toClimbs⟩

/-- Between meshes the new abscissae begin and end where the old ones do. -/
theorem exists_ends_betweenGrids (h : IsMesh grid q) (h' : IsMesh grid' q') (initial final : K) :
    ∃ a a' : Nat → K, Climbs (betweenGrids grid grid' initial final).old a ∧
      (∀ j < grid'.size, (betweenGrids grid grid' initial final).new.getD j default =
        finite (a' j)) ∧ a' 0 = a 0 ∧ a' (grid'.size - 1) = a (grid.size - 1) := by
  have htwo := h.two_le
  have htwo' := h'.two_le
  unfold betweenGrids
  by_cases hlt : initial < final
  · rw [if_pos hlt]
    refine ⟨_, timeLaw q' initial final, climbs_timesBetween h.toClimbs hlt, ?_, ?_, ?_⟩
    · intro j hj
      exact getD_timesBetween hj (h'.get j hj) initial final
    · rw [timeLaw_of_zero h'.first, timeLaw_of_zero h.first]
    · rw [timeLaw_of_one h'.last, timeLaw_of_one h.last]
  · rw [if_neg hlt]
    obtain ⟨a, hmesh⟩ := exists_isMesh_evenPoints (K := K) htwo
    obtain ⟨a', hmesh'⟩ := exists_isMesh_evenPoints (K := K) htwo'
    have hlast := hmesh.last
    have hlast' := hmesh'.last
    rw [size_evenPoints] at hlast hlast'
    refine ⟨a, a', hmesh.toClimbs, ?_, hmesh'.first.trans hmesh.first.symm,
      hlast'.trans hlast.symm⟩
    intro j hj
    exact hmesh'.get j (by rwa [size_evenPoints])

omit [IsStrictOrderedRing K] in
theorem size_old_betweenGrids (grid grid' : Array (Extended K)) (initial final : K) :
    (betweenGrids grid grid' initial final).old.size = grid.size := by
  unfold betweenGrids
  split_ifs
  · exact size_timesBetween _ _ _
  · simp [evenPoints]

omit [IsStrictOrderedRing K] in
theorem new_betweenGrids_self (grid : Array (Extended K)) (initial final : K) :
    (betweenGrids grid grid initial final).new = (betweenGrids grid grid initial final).old := by
  unfold betweenGrids
  split_ifs <;> rfl

end Grids

/-! ## Rows -/

section Rows

variable {α : Type} [Number α] {oldTimes newTimes : Array α} {t : Tensor α} {rows : Nat}

/-- The rows of a matrix with `cols` columns, interpolated over the knots at `n` places. -/
def interpolatedRows (knots places : Array α) (rows cols n : Nat) (t : Tensor α) : Tensor α :=
  .ofFn [rows, n] fun p =>
    interpolate knots (rowOf rows cols (p % rows) t) (places.getD (p / rows) default)

theorem get_interpolatedRows {knots places : Array α} {cols n i j : Nat} (hi : i < rows)
    (hj : j < n) :
    (interpolatedRows knots places rows cols n t).get (i + rows * j) =
      interpolate knots (rowOf rows cols i t) (places.getD j default) := by
  have hin : i + rows * j < volume [rows, n] := by simpa using index_lt hi hj
  unfold interpolatedRows
  rw [Tensor.get_ofFn _ _ hin, (index_row_col hi j).1, (index_row_col hi j).2]

/-- The rows are interpolated one by one. -/
theorem resampleRows_eq (hshape : t.shape = [rows, oldTimes.size]) (hrows : rows ≠ 0)
    (htwo : 2 ≤ oldTimes.size) {points : Abscissae α}
    (h : abscissae oldTimes newTimes = .ok points) :
    resampleRows oldTimes newTimes t =
      .ok (interpolatedRows points.old points.new rows oldTimes.size newTimes.size t) := by
  have hsome : oldTimes.isEmpty = false := by
    rw [Array.isEmpty]
    exact decide_eq_false (by omega)
  have hone : oldTimes.size ≠ 1 := by omega
  unfold resampleRows
  simp only [hshape, List.getD_cons_zero, List.getD_cons_succ, ne_eq, not_true_eq_false, if_false,
    hrows, hone, h, hsome]
  refine congrArg Except.ok (Tensor.ext_elements rfl rfl ?_)
  intro i hi j hj
  have hin : i + rows * j < volume [rows, newTimes.size] := by simpa using index_lt hi hj
  rw [get_interpolatedRows hi hj, Tensor.get_ofFn _ _ hin, (index_row_col hi j).1,
    (index_row_col hi j).2]
  congr 1
  simp [Array.getD, hshape, hi]

theorem resampleRows_of_no_rows (hshape : t.shape = [0, oldTimes.size]) :
    resampleRows oldTimes newTimes t = .ok (.fill [0, newTimes.size] Number.zero) := by
  unfold resampleRows
  simp [hshape, pure, Except.pure]

theorem resampleRows_of_one_column (hshape : t.shape = [rows, 1]) (hrows : rows ≠ 0)
    (hone : oldTimes.size = 1) :
    resampleRows oldTimes newTimes t = .ok (repeatColumn newTimes.size t) := by
  unfold resampleRows
  simp [hshape, hrows, hone, pure, Except.pure]

theorem get_repeatColumn {n i j : Nat} (hshape : t.shape = [rows, 1]) (hi : i < rows) (hj : j < n) :
    (repeatColumn n t).get (i + rows * j) = t.get i := by
  have hin : i + rows * j < rows * n := index_lt hi hj
  simp only [repeatColumn, hshape, List.getD_cons_zero, List.drop_succ_cons, List.drop_nil]
  rw [Tensor.get_ofFn _ _ (by simpa using hin), (index_row_col hi j).1, Nat.div_eq_of_lt hin,
    Nat.mul_zero, Nat.add_zero]

theorem getD_rowOf {cols i j : Nat} (hj : j < cols) :
    (rowOf rows cols i t).getD j default = t.get (i + rows * j) := by
  simp [rowOf, hj]

end Rows

/-- Carried to its own times a matrix stays as it is. -/
theorem resampleRows_self {grid : Array (Extended K)} (h : Climbs grid q) (hsome : 0 < grid.size)
    {t : Tensor (Extended K)} {rows : Nat} (hshape : t.shape = [rows, grid.size])
    (initial final : K) :
    resampleRows (Scheme.timesBetween grid (finite initial) (finite final))
      (Scheme.timesBetween grid (finite initial) (finite final)) t = .ok t := by
  have hsize : (Scheme.timesBetween grid (finite initial) (finite final)).size = grid.size :=
    size_timesBetween _ _ _
  by_cases hrows : rows = 0
  · subst hrows
    rw [resampleRows_of_no_rows (by rw [hshape, hsize]), hsize]
    refine congrArg Except.ok (Tensor.ext_elements rfl hshape ?_)
    exact fun i hi => absurd hi (Nat.not_lt_zero i)
  by_cases hone : grid.size = 1
  · rw [hone] at hshape
    rw [resampleRows_of_one_column hshape hrows (hsize.trans hone), hsize, hone]
    refine congrArg Except.ok (Tensor.ext_elements (by simp [repeatColumn, hshape]) hshape ?_)
    intro i hi j hj
    rw [get_repeatColumn hshape hi hj, Nat.lt_one_iff.mp hj, Nat.mul_zero, Nat.add_zero]
  have htwo : 2 ≤ grid.size := by omega
  obtain ⟨a, ha⟩ := exists_climbs_betweenGrids h htwo grid initial final
  have hold := size_old_betweenGrids grid grid initial final
  rw [resampleRows_eq (by rw [hshape, hsize]) hrows (by omega) (abscissae_eq h htwo h hsome), hsize]
  refine congrArg Except.ok (Tensor.ext_elements rfl hshape ?_)
  intro i hi j hj
  rw [get_interpolatedRows hi hj, new_betweenGrids_self, ha.get j (by omega),
    interpolate_knot ha (by omega), getD_rowOf hj]

/-- The matrix has the first and the last column of another one, and in every row that is finite
    there its values are means of two old values. -/
structure CarriedFrom (t u : Tensor (Extended K)) (rows cols cols' : Nat) : Prop where
  shape : u.shape = [rows, cols']
  first : ∀ i < rows, u.get (i + rows * 0) = t.get (i + rows * 0)
  last : ∀ i < rows, u.get (i + rows * (cols' - 1)) = t.get (i + rows * (cols - 1))
  mean : ∀ i < rows, ∀ y : Nat → K, (∀ j < cols, t.get (i + rows * j) = finite (y j)) →
    ∀ j' < cols', ∃ j₁ < cols, ∃ j₂ < cols, ∃ w, 0 ≤ w ∧ w ≤ 1 ∧
      u.get (i + rows * j') = finite (y j₁ + w * (y j₂ - y j₁))

/-- From mesh to mesh a matrix is never refused. -/
theorem exists_carriedFrom {grid grid' : Array (Extended K)} {q' : Nat → K} (h : IsMesh grid q)
    (h' : IsMesh grid' q') {t : Tensor (Extended K)} {rows : Nat}
    (hshape : t.shape = [rows, grid.size]) (initial final : K) :
    ∃ u, resampleRows (Scheme.timesBetween grid (finite initial) (finite final))
        (Scheme.timesBetween grid' (finite initial) (finite final)) t = .ok u ∧
      CarriedFrom t u rows grid.size grid'.size := by
  have hsize : (Scheme.timesBetween grid (finite initial) (finite final)).size = grid.size :=
    size_timesBetween _ _ _
  have hsize' : (Scheme.timesBetween grid' (finite initial) (finite final)).size = grid'.size :=
    size_timesBetween _ _ _
  have htwo := h.two_le
  have htwo' := h'.two_le
  by_cases hrows : rows = 0
  · subst hrows
    refine ⟨_, resampleRows_of_no_rows (by rw [hshape, hsize]), ?_⟩
    rw [hsize']
    exact ⟨rfl, fun i hi => by omega, fun i hi => by omega, fun i hi => by omega⟩
  obtain ⟨a, a', ha, hnew, hfirst, hlast⟩ := exists_ends_betweenGrids h h' initial final
  have hold := size_old_betweenGrids grid grid' initial final
  refine ⟨_, resampleRows_eq (by rw [hshape, hsize]) hrows (by omega)
    (abscissae_eq h.toClimbs htwo h'.toClimbs (by omega)), ?_⟩
  rw [hsize, hsize']
  have hget : ∀ i < rows, ∀ j < grid'.size,
      (interpolatedRows (betweenGrids grid grid' initial final).old
        (betweenGrids grid grid' initial final).new rows grid.size grid'.size t).get
          (i + rows * j) =
        interpolate (betweenGrids grid grid' initial final).old (rowOf rows grid.size i t)
          (finite (a' j)) := by
    intro i hi j hj
    rw [get_interpolatedRows hi hj, hnew j hj]
  refine ⟨rfl, ?_, ?_, ?_⟩
  · intro i hi
    rw [hget i hi 0 (by omega), hfirst, interpolate_knot ha (by omega), getD_rowOf (by omega)]
  · intro i hi
    rw [hget i hi _ (by omega), hlast, interpolate_knot ha (by omega), getD_rowOf (by omega)]
  · intro i hi y hy j hj
    have hvalues : ∀ j < (betweenGrids grid grid' initial final).old.size,
        (rowOf rows grid.size i t).getD j default = finite (y j) := by
      intro j hj
      rw [hold] at hj
      rw [getD_rowOf hj, hy j hj]
    obtain ⟨j₁, hj₁, j₂, hj₂, w, hw, hw', hvalue⟩ :=
      interpolate_eq ha (by omega) hvalues (a' j)
    exact ⟨j₁, hold ▸ hj₁, j₂, hold ▸ hj₂, w, hw, hw', (hget i hi j hj).trans hvalue⟩

end Collocation
