import Collocation.Proofs.Comparison
import Collocation.Proofs.Means
import Collocation.Proofs.Trajectory
import Mathlib.Data.List.TakeWhile

/-! # Trajectories between their knots

  A trajectory whose times climb is a polygon: each row of a kind on the grid is the piecewise
  linear function through its values, level before the first time and after the last one. Carried
  to other times, which need not be in order, a row has the values of this function there. A single
  time and a kind without rows are no exceptions, though both are treated apart.

  Whatever is affine in time lies on its own polygon, so it is carried without a change, and so are
  the end times and the parameters, which do not belong to the grid. -/

namespace Collocation

open Extended

variable {K : Type} [Field K] [LinearOrder K] [FloorRing K] [Interpretation K]
  {knots values oldTimes : Array (Extended K)} {q : Nat → K}

/-! ## Polygons -/

/-- The piecewise linear function through the values `v j` at the knots `q j`, for `j < n`, has the
    value `w` at `x`. -/
structure OnPolygon (q : Nat → K) (n : Nat) (v : Nat → Extended K) (x w : Extended K) :
    Prop where
  before : Number.below x (finite (q 0)) → w = v 0
  after : Number.below (finite (q (n - 1))) x → w = v (n - 1)
  knot : ∀ j < n, x = finite (q j) → w = v j
  between : ∀ j, j + 1 < n → ∀ z a b, x = finite z → q j ≤ z → z ≤ q (j + 1) →
    v j = finite a → v (j + 1) = finite b →
    w = finite (a + (b - a) * (z - q j) / (q (j + 1) - q j))

/-- The polygon of a single knot is level. -/
theorem onPolygon_level (q : Nat → K) (v : Nat → Extended K) (x : Extended K) :
    OnPolygon q 1 v x (v 0) where
  before _ := rfl
  after _ := rfl
  knot j hj _ := by rw [Nat.lt_one_iff.mp hj]
  between j hj := by omega

/-- A number between the first knot and the last one is the only knot, or lies between two
    neighbours. -/
theorem Climbs.exists_between (h : Climbs knots q) (hsome : 0 < knots.size) {z : K}
    (hfirst : q 0 ≤ z) (hlast : z ≤ q (knots.size - 1)) :
    ∃ j < knots.size, z = q j ∨ j + 1 < knots.size ∧ q j ≤ z ∧ z ≤ q (j + 1) := by
  obtain ⟨hsize, hbelow, habove⟩ := knotsUpTo_iff h.get z
  -- the last knot that is not above the number
  have hcount : 0 < knotsUpTo knots (finite z) := by
    by_contra hnone
    rw [Nat.not_lt, Nat.le_zero] at hnone
    rw [hnone] at habove
    exact absurd hfirst (not_le_of_gt (habove hsome))
  have hleft := hbelow (knotsUpTo knots (finite z) - 1) (by omega)
  refine ⟨knotsUpTo knots (finite z) - 1, by omega, ?_⟩
  by_cases hall : knotsUpTo knots (finite z) = knots.size
  · rw [hall] at hleft ⊢
    exact .inl (le_antisymm hlast hleft)
  · have hnext : knotsUpTo knots (finite z) - 1 + 1 = knotsUpTo knots (finite z) := by omega
    rw [hnext]
    exact .inr ⟨by omega, hleft, (habove (by omega)).le⟩

/-- Values that are affine in the knots are affine throughout. -/
theorem OnPolygon.affine {v : Nat → Extended K} {x w : Extended K}
    (h : OnPolygon q knots.size v x w) (hclimbs : Climbs knots q) (hsome : 0 < knots.size)
    {c d z : K} (hv : ∀ j < knots.size, v j = finite (c + d * q j)) (hx : x = finite z)
    (hfirst : q 0 ≤ z) (hlast : z ≤ q (knots.size - 1)) : w = finite (c + d * z) := by
  obtain ⟨j, hj, rfl | ⟨hnext, hleft, hright⟩⟩ := hclimbs.exists_between hsome hfirst hlast
  · exact (h.knot j hj hx).trans (hv j hj)
  · have hne : q (j + 1) - q j ≠ 0 := sub_ne_zero.mpr (hclimbs.climb j (by omega)).ne'
    rw [h.between j hnext z _ _ hx hleft hright (hv j hj) (hv (j + 1) hnext)]
    congr 1
    field_simp
    ring

/-! ## The interpolation -/

theorem isUndefined_of_below {a b : Extended K} (h : Number.below a b) :
    Number.isUndefined a = false ∧ Number.isUndefined b = false := by
  rw [isUndefined_eq_false, isUndefined_eq_false]
  exact defined_of_atMost (by rw [Number.atMost, h, Bool.true_or])

/-- A defined number lies before all knots, after all of them, or in their range. -/
theorem place_of_defined (q : Nat → K) (n : Nat) (hx : x ≠ undefined) :
    Number.below x (finite (q 0)) ∨ Number.below (finite (q (n - 1))) x ∨
      ∃ z, x = finite z ∧ q 0 ≤ z ∧ z ≤ q (n - 1) := by
  cases x with
  | finite z =>
    rw [below_finite, below_finite]
    rcases lt_or_ge z (q 0) with hbefore | hfirst
    · exact .inl hbefore
    rcases lt_or_ge (q (n - 1)) z with hafter | hlast
    · exact .inr (.inl hafter)
    · exact .inr (.inr ⟨z, rfl, hfirst, hlast⟩)
  | infinite negative =>
    cases negative
    · exact .inr (.inl rfl)
    · exact .inl rfl
  | undefined => exact absurd rfl hx

section Ends

variable {x : Extended K} (h : Climbs knots q) (hsome : 0 < knots.size)

include h hsome

/-- Before the first knot there is its value. -/
theorem interpolate_before (hx : Number.below x (finite (q 0))) :
    interpolate knots values x = values.getD 0 default := by
  have hknot : Number.atMost (knots.getD 0 default) x = false := by
    rw [h.get 0 hsome, ← Bool.not_eq_true]
    intro hle
    have hdefined := defined_of_atMost hle
    rw [(atMost_iff_not_below hdefined.1 hdefined.2).mp hle] at hx
    cases hx
  have hcount : knotsUpTo knots x = 0 := by
    rw [knotsUpTo, List.length_eq_zero_iff, List.takeWhile_eq_nil_iff]
    intro _
    rw [Array.getD_eq_getD_getElem?, Array.getElem?_eq_getElem hsome, Option.getD_some] at hknot
    simp [hknot]
  unfold interpolate
  rw [(isUndefined_of_below hx).1, hcount]
  rfl

/-- After the last knot there is its value. -/
theorem interpolate_after (hx : Number.below (finite (q (knots.size - 1))) x) :
    interpolate knots values x = values.getD (knots.size - 1) default := by
  have hknots : ∀ knot ∈ knots.toList, Number.atMost knot x = true := by
    intro knot hmem
    obtain ⟨i, hi, rfl⟩ := List.getElem_of_mem hmem
    rw [Array.length_toList] at hi
    have hget := h.get i hi
    rw [Array.getD_eq_getD_getElem?, Array.getElem?_eq_getElem hi, Option.getD_some] at hget
    rw [Array.getElem_toList, hget]
    -- no knot is above the last one
    exact atMost_trans (atMost_finite.mpr (h.le (show i ≤ knots.size - 1 by omega) (by omega)))
      (by rw [Number.atMost, hx, Bool.true_or])
  have hcount : knotsUpTo knots x = knots.size := by
    rw [knotsUpTo, List.takeWhile_eq_self_iff.mpr hknots, Array.length_toList]
  unfold interpolate
  rw [(isUndefined_of_below hx).2, hcount]
  simp [hsome.ne']

/-- Over a single knot everything is level. -/
theorem interpolate_only (hone : knots.size = 1) (hx : x ≠ undefined) :
    interpolate knots values x = values.getD 0 default := by
  rcases place_of_defined q knots.size hx with hbefore | hafter | ⟨z, rfl, hfirst, hlast⟩
  · exact interpolate_before h hsome hbefore
  · rw [interpolate_after h hsome hafter, hone]
  · rw [hone] at hlast
    obtain rfl : q 0 = z := le_antisymm hfirst hlast
    exact interpolate_knot h hsome

end Ends

/-- The interpolation between two neighbours lies on the line through them, the ends included. -/
theorem interpolate_between [IsStrictOrderedRing K] (h : Climbs knots q) {j : Nat}
    (hj : j + 1 < knots.size) {z a b : K} (hleft : q j ≤ z) (hright : z ≤ q (j + 1))
    (ha : values.getD j default = finite a) (hb : values.getD (j + 1) default = finite b) :
    interpolate knots values (finite z) =
      finite (a + (b - a) * (z - q j) / (q (j + 1) - q j)) := by
  rw [interpolate_eq_mean h hj hleft hright, ha, hb, mean_finite]
  congr 1
  ring

/-- The interpolation is the polygon through the knots, wherever it is asked for. -/
theorem onPolygon_interpolate [IsStrictOrderedRing K] (h : Climbs knots q)
    (hsome : 0 < knots.size) (x : Extended K) :
    OnPolygon q knots.size (fun j => values.getD j default) x (interpolate knots values x) where
  before hx := interpolate_before h hsome hx
  after hx := interpolate_after h hsome hx
  knot j hj hx := by rw [hx, interpolate_knot h hj]
  between j hj z a b hx hleft hright ha hb := by
    rw [hx, interpolate_between h hj hleft hright ha hb]

/-! ## Rows -/

/-- The rows of `w` are the rows of `v`, carried from the times `q j`, for `j < n`, to others. -/
structure CarriedTo (q : Nat → K) (n : Nat) (times : Array (Extended K)) (rows : Nat)
    (v w : Tensor (Extended K)) : Prop where
  old : v.shape = [rows, n]
  new : w.shape = [rows, times.size]
  value : ∀ i < rows, ∀ m < times.size,
    OnPolygon q n (fun j => v.get (i + rows * j)) (times.getD m default) (w.get (i + rows * m))
  affine : ∀ i < rows, ∀ c d : K, (∀ j < n, v.get (i + rows * j) = finite (c + d * q j)) →
    ∀ m < times.size, ∀ z, times.getD m default = finite z → q 0 ≤ z → z ≤ q (n - 1) →
      w.get (i + rows * m) = finite (c + d * z)

variable {times : Array (Extended K)} {rows : Nat} {v w : Tensor (Extended K)}

theorem CarriedTo.of_values (h : Climbs oldTimes q) (hsome : 0 < oldTimes.size)
    (hold : v.shape = [rows, oldTimes.size]) (hnew : w.shape = [rows, times.size])
    (hvalue : ∀ i < rows, ∀ m < times.size, OnPolygon q oldTimes.size
      (fun j => v.get (i + rows * j)) (times.getD m default) (w.get (i + rows * m))) :
    CarriedTo q oldTimes.size times rows v w where
  old := hold
  new := hnew
  value := hvalue
  affine i hi _ _ hv m hm _ hz hfirst hlast :=
    (hvalue i hi m hm).affine h hsome hv hz hfirst hlast

theorem OnPolygon.congr {n : Nat} {f g : Nat → Extended K} {x y : Extended K}
    (h : OnPolygon q n f x y) (hn : 0 < n) (hfg : ∀ j < n, f j = g j) : OnPolygon q n g x y where
  before hx := (h.before hx).trans (hfg 0 hn)
  after hx := (h.after hx).trans (hfg (n - 1) (by omega))
  knot j hj hx := (h.knot j hj hx).trans (hfg j hj)
  between j hj z a b hx hleft hright ha hb :=
    h.between j hj z a b hx hleft hright ((hfg j (by omega)).trans ha) ((hfg (j + 1) hj).trans hb)

/-- Every row of a matrix with a column for each of its times is interpolated over the abscissae,
    also where there are no rows or only one column. -/
theorem resampleRows_of_abscissae {points : Abscissae (Extended K)}
    (hpoints : abscissae oldTimes times = .ok points) (h : Climbs points.old q)
    (hsize : points.old.size = oldTimes.size) (hsome : 0 < oldTimes.size)
    (hshape : v.shape = [rows, oldTimes.size])
    (hdefined : ∀ m < times.size, points.new.getD m default ≠ undefined) :
    resampleRows oldTimes times v =
      .ok (interpolatedRows points.old points.new rows oldTimes.size times.size v) := by
  by_cases hrows : rows = 0
  · subst hrows
    rw [resampleRows_of_no_rows hshape]
    exact congrArg Except.ok (Tensor.ext_elements rfl rfl fun i hi => absurd hi (Nat.not_lt_zero i))
  by_cases hone : oldTimes.size = 1
  · rw [hone] at hshape
    rw [resampleRows_of_one_column hshape hrows hone]
    refine congrArg Except.ok (Tensor.ext_elements (by simp [repeatColumn, hshape]) rfl ?_)
    intro i hi m hm
    rw [get_repeatColumn hshape hi hm, get_interpolatedRows hi hm,
      interpolate_only h (by omega) (hsize.trans hone) (hdefined m hm), hone,
      getD_rowOf Nat.one_pos, Nat.mul_zero, Nat.add_zero]
  · exact resampleRows_eq hshape hrows (by omega) hpoints

variable [IsStrictOrderedRing K]

/-- Times that climb are their own abscissae. -/
theorem resampleRows_of_defined (h : Climbs oldTimes q) (hsome : 0 < oldTimes.size)
    (hshape : v.shape = [rows, oldTimes.size])
    (hdefined : ∀ m < times.size, times.getD m default ≠ undefined) :
    resampleRows oldTimes times v =
      .ok (interpolatedRows oldTimes times rows oldTimes.size times.size v) :=
  resampleRows_of_abscissae (abscissae_of_climbs h times) h rfl hsome hshape hdefined

/-- A matrix with a column for each of its times is carried to any other times. -/
theorem exists_carriedTo (h : Climbs oldTimes q) (hsome : 0 < oldTimes.size)
    (hshape : v.shape = [rows, oldTimes.size]) (times : Array (Extended K)) :
    ∃ w, resampleRows oldTimes times v = .ok w ∧ CarriedTo q oldTimes.size times rows v w := by
  by_cases hrows : rows = 0
  · subst hrows
    exact ⟨_, resampleRows_of_no_rows hshape,
      .of_values h hsome hshape rfl fun i hi => absurd hi (Nat.not_lt_zero i)⟩
  by_cases hone : oldTimes.size = 1
  · rw [hone] at hshape
    refine ⟨_, resampleRows_of_one_column hshape hrows hone,
      .of_values h hsome (hone ▸ hshape) (by simp [repeatColumn, hshape]) ?_⟩
    intro i hi m hm
    have hget : v.get i = v.get (i + rows * 0) := rfl
    rw [get_repeatColumn hshape hi hm, hget, hone]
    exact onPolygon_level q _ _
  · refine ⟨_, resampleRows_eq hshape hrows (by omega) (abscissae_of_climbs h times),
      .of_values h hsome hshape rfl ?_⟩
    intro i hi m hm
    rw [get_interpolatedRows hi hm]
    exact (onPolygon_interpolate h hsome _).congr hsome fun j hj => getD_rowOf hj

/-! ## Trajectories -/

/-- The value under a key of some kind, carried to other times. -/
def carriedValue {α : Type} [Number α] (oldTimes newTimes : Array α) (kind : Option Kind)
    (v : Tensor α) : Tensor α :=
  if kind.any Kind.onGrid then (resampleRows oldTimes newTimes v.atLeast2D).toOption.getD v
  else v.atLeast2D

section Values

variable {α : Type} [Number α] {oldTimes newTimes : Array α} {kind : Option Kind} {v w : Tensor α}

theorem carriedValue_of_onGrid (hkind : kind.any Kind.onGrid = true)
    (hw : resampleRows oldTimes newTimes v.atLeast2D = .ok w) :
    carriedValue oldTimes newTimes kind v = w := by
  unfold carriedValue
  rw [if_pos hkind, hw]
  rfl

theorem carriedValue_of_not_onGrid (hkind : ¬kind.any Kind.onGrid = true) :
    carriedValue oldTimes newTimes kind v = v.atLeast2D := if_neg hkind

end Values

theorem atLeast2D_of_matrix {α : Type} {v : Tensor α} (h : 2 ≤ v.shape.length) :
    v.atLeast2D = v := by
  refine Tensor.ext ?_ rfl
  show Tensor.matrixShape v.shape = v.shape
  rcases hshape : v.shape with _ | ⟨n, _ | ⟨m, rest⟩⟩
  · rw [hshape] at h
    cases h
  · rw [hshape] at h
    simp at h
  · rfl

theorem atLeast2D_idem {α : Type} (v : Tensor α) : v.atLeast2D.atLeast2D = v.atLeast2D := by
  refine atLeast2D_of_matrix ?_
  show 2 ≤ (Tensor.matrixShape v.shape).length
  rcases v.shape with _ | ⟨n, _ | ⟨m, rest⟩⟩ <;> simp [Tensor.matrixShape]

namespace Trajectory

/-- Every value on the grid is a matrix with so many columns. -/
def HasColumns {α : Type} (t : Trajectory α) (n : Nat) : Prop :=
  ∀ e ∈ t.values, e.1.kind?.any Kind.onGrid = true → ∃ rows, e.2.atLeast2D.shape = [rows, n]

/-- The first element of a kind does not depend on the dimensions of its value. -/
theorem first_eq_of_atLeast2D {α : Type} [Number α] {t u : Trajectory α} {k : Kind}
    (h : Keyed.find? u.values (.kind k) =
      (Keyed.find? t.values (.kind k)).map Tensor.atLeast2D) : u.first k = t.first k := by
  unfold first Keyed.get
  rw [h]
  cases Keyed.find? t.values (.kind k) <;> rfl

/-- The trajectory `u` is `t` at other times: the kinds on the grid have values that `R` relates to
    the old ones, and everything else is as it was. -/
structure CarriedBy {α : Type} [Number α] (R : Tensor α → Tensor α → Prop) (times : Array α)
    (t u : Trajectory α) : Prop where
  iterate : u.isSolution = false
  times : u.times = .vector times
  names : u.names = t.names
  keys : u.values.map Prod.fst = t.values.map Prod.fst
  grid : ∀ k v, k.onGrid = true → Keyed.find? t.values (.kind k) = some v →
    ∃ w, Keyed.find? u.values (.kind k) = some w ∧ R v.atLeast2D w
  kept : ∀ k, k.onGrid = false →
    Keyed.find? u.values (.kind k) = (Keyed.find? t.values (.kind k)).map Tensor.atLeast2D

section Values

variable {α : Type} [Number α] {t : Trajectory α} {times : Array α}

/-- The trajectory with every value carried by itself. -/
def carried (t : Trajectory α) (times : Array α) : Trajectory α :=
  .iterate (t.values.map fun e => (e.1, carriedValue t.times.written times e.1.kind? e.2))
    (.vector times) t.names

/-- If no value on the grid is refused, the trajectory is not. -/
theorem resample_of_rows (h : ∀ e ∈ t.values, e.1.kind?.any Kind.onGrid = true →
    ∃ w, resampleRows t.times.written times e.2.atLeast2D = .ok w) :
    t.resample times = .ok (t.carried times) := by
  refine resample_eq_map ?_
  rintro ⟨key, v⟩ hmem
  unfold resampleValue carriedValue
  cases hkind : key.kind? with
  | none => rfl
  | some k =>
    by_cases hgrid : k.onGrid = true
    · obtain ⟨w, hw⟩ := h _ hmem (by simp [hkind, hgrid])
      simp [hgrid, hw, Except.toOption]
    · simp [hgrid]

/-- What holds of all rows that are carried holds of the trajectory that they make up. -/
theorem carriedBy_carried {R : Tensor α → Tensor α → Prop}
    (h : ∀ e ∈ t.values, e.1.kind?.any Kind.onGrid = true →
      ∃ w, resampleRows t.times.written times e.2.atLeast2D = .ok w ∧ R e.2.atLeast2D w) :
    CarriedBy R times t (t.carried times) where
  iterate := rfl
  times := rfl
  names := rfl
  keys := by
    show (t.values.map _).map Prod.fst = _
    rw [List.map_map]
    rfl
  grid k v hk hv := by
    obtain ⟨⟨key, v'⟩, hentry, rfl⟩ := Option.map_eq_some_iff.mp hv
    have hkey := List.find?_some hentry
    rw [Key.same_kind_iff] at hkey
    obtain ⟨w, hw, hrelated⟩ := h _ (List.mem_of_find?_eq_some hentry) (by simp [hkey, hk])
    refine ⟨w, ?_, hrelated⟩
    show Keyed.find? (t.values.map _) (.kind k) = some w
    rw [Keyed.find?_map, hv, Option.map_some]
    exact congrArg some (carriedValue_of_onGrid hk hw)
  kept k hk := by
    show Keyed.find? (t.values.map _) (.kind k) = _
    rw [Keyed.find?_map]
    refine congrArg (Option.map · _) (funext fun v => ?_)
    exact carriedValue_of_not_onGrid (by simp [hk])

end Values

variable {t : Trajectory (Extended K)}

/-- With a column for every time no value stands in the way. -/
theorem resample_eq_carried (h : Climbs t.times.written q) (hsome : 0 < t.times.written.size)
    (hcolumns : t.HasColumns t.times.written.size) (times : Array (Extended K)) :
    t.resample times = .ok (t.carried times) := by
  refine resample_of_rows fun e he hkind => ?_
  obtain ⟨rows, hshape⟩ := hcolumns e he hkind
  obtain ⟨w, hw, -⟩ := exists_carriedTo h hsome hshape times
  exact ⟨w, hw⟩

/-- Let the times of a trajectory, of which there is at least one, climb, and let every value on the
    grid have a column for each of them. Carried to any times, in any order, it has the same keys;
    the rows of every kind on the grid are the polygons through their values there, so an affine
    row stays affine within the range and the values at the knots are kept. The end times and the
    parameters stay as they are. -/
theorem resample_on_polygons (h : Climbs t.times.written q) (hsome : 0 < t.times.written.size)
    (hcolumns : ∀ e ∈ t.values, e.1.kind?.any Kind.onGrid = true →
      ∃ rows, e.2.atLeast2D.shape = [rows, t.times.written.size]) (times : Array (Extended K)) :
    ∃ u : Trajectory (Extended K), t.resample times = .ok u ∧
      u.isSolution = false ∧ u.times = .vector times ∧ u.names = t.names ∧
      u.values.map Prod.fst = t.values.map Prod.fst ∧
      (∀ k v, k.onGrid = true → Keyed.find? t.values (.kind k) = some v →
        ∃ rows w, Keyed.find? u.values (.kind k) = some w ∧
          CarriedTo q t.times.written.size times rows v.atLeast2D w) ∧
      (∀ k v, k.onGrid = false → Keyed.find? t.values (.kind k) = some v →
        Keyed.find? u.values (.kind k) = some v.atLeast2D ∧
          (2 ≤ v.shape.length → v.atLeast2D = v)) ∧
      u.first .initialTime = t.first .initialTime ∧ u.first .finalTime = t.first .finalTime := by
  have hcarried : CarriedBy
      (fun v w => ∃ rows, CarriedTo q t.times.written.size times rows v w) times t
      (t.carried times) := by
    refine carriedBy_carried fun e he hkind => ?_
    obtain ⟨rows, hshape⟩ := hcolumns e he hkind
    obtain ⟨w, hw, hto⟩ := exists_carriedTo h hsome hshape times
    exact ⟨w, hw, rows, hto⟩
  refine ⟨_, resample_eq_carried h hsome hcolumns times, hcarried.iterate, hcarried.times,
    hcarried.names, hcarried.keys, ?_, ?_, first_eq_of_atLeast2D (hcarried.kept _ rfl),
    first_eq_of_atLeast2D (hcarried.kept _ rfl)⟩
  · intro k v hk hv
    obtain ⟨w, hw, rows, hto⟩ := hcarried.grid k v hk hv
    exact ⟨rows, w, hw, hto⟩
  · intro k v hk hv
    exact ⟨by rw [hcarried.kept k hk, hv]; rfl, atLeast2D_of_matrix⟩

/-- Two states and a control along three times that are not evenly spread. -/
def unevenRun : Trajectory (Extended ℚ) :=
  .iterate
    [(.kind .initialTime, .scalar (finite 0)), (.kind .finalTime, .vector (#[3].map finite)),
      (.kind .states, ⟨[2, 3], #[1, 0, 3, 1, 7, 5].map finite, by simp⟩),
      (.index .controls (.whole 3), .vector (#[2, 0, 4].map finite)),
      (.kind .multipliers, ⟨[0, 3], #[], by simp⟩),
      (.kind .parameters, ⟨[1, 1], #[9].map finite, by simp⟩)]
    (.vector (#[0, 1, 3].map finite)) {}

theorem climbs_unevenRun :
    Climbs unevenRun.times.written fun j => ([0, 1, 3] : List ℚ).getD j 0 :=
  ⟨by decide +kernel, by decide +kernel⟩

theorem hasColumns_unevenRun : unevenRun.HasColumns unevenRun.times.written.size := by
  have hcolumns : ∀ e ∈ unevenRun.values, e.1.kind?.any Kind.onGrid = true →
      e.2.atLeast2D.shape = [e.2.atLeast2D.shape.getD 0 1, unevenRun.times.written.size] := by
    decide +kernel
  exact fun e he hk => ⟨_, hcolumns e he hk⟩

/-- Between two knots, before the first one, after the last one, and again between the first two:
    the first state is `1 + 2 * t`, the second one bends. -/
theorem resample_on_polygons_uneven :
    ∃ u w, unevenRun.resample #[finite 2, finite (-1), finite 4, finite (1 / 2)] = .ok u ∧
      Keyed.find? u.values (.kind .states) = some w ∧ w.shape = [2, 4] ∧
      w.get 0 = finite 5 ∧ w.get 1 = finite 3 ∧ w.get 2 = finite 1 ∧ w.get 5 = finite 5 ∧
      w.get 6 = finite 2 ∧ u.first .finalTime = .ok (finite 3) := by
  obtain ⟨u, hu, -, -, -, -, hgrid, -, -, hfinal⟩ := resample_on_polygons climbs_unevenRun
    (by decide +kernel) hasColumns_unevenRun #[finite 2, finite (-1), finite 4, finite (1 / 2)]
  obtain ⟨rows, w, hw, hcarried⟩ := hgrid .states _ rfl rfl
  obtain rfl : 2 = rows := (List.cons.inj hcarried.old).1
  refine ⟨u, w, hu, hw, hcarried.new, ?_, ?_, ?_, ?_, ?_,
    hfinal.trans (eq_ok_of_toOption (by decide +kernel))⟩
  · exact (hcarried.affine 0 (by decide) 1 2 (by decide +kernel) 0 (by decide) 2 rfl
      (by decide +kernel) (by decide +kernel)).trans (by decide +kernel)
  · exact ((hcarried.value 1 (by decide) 0 (by decide)).between 1 (by decide +kernel) 2 1 5 rfl
      (by decide +kernel) (by decide +kernel) (by decide +kernel) (by decide +kernel)).trans
      (by decide +kernel)
  · exact ((hcarried.value 0 (by decide) 1 (by decide)).before (by decide +kernel)).trans
      (by decide +kernel)
  · exact ((hcarried.value 1 (by decide) 2 (by decide)).after (by decide +kernel)).trans
      (by decide +kernel)
  · exact (hcarried.affine 0 (by decide) 1 2 (by decide +kernel) 3 (by decide) (1 / 2)
      (by decide +kernel) (by decide +kernel) (by decide +kernel)).trans (by decide +kernel)

end Trajectory

end Collocation
