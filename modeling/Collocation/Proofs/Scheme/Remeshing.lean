import Collocation.Proofs.Scheme.BackendBounds
import Collocation.Proofs.Scheme.BoundTables
import Collocation.Proofs.Scheme.Exactness

/-! # Guesses from other meshes

  A trajectory that keeps the bounds of one scheme is a guess for every other scheme of a built-in
  rule on the same problem, whatever the two meshes. Between two old values the carried ones are
  means of them, and the bounds along the way are intervals; at the ends, where the bounds may be
  tighter, nothing is changed. So the backend starts within the bounds, if the bounds at the ends
  lie inside of those along the way. -/

namespace Collocation

open Extended

variable {K : Type} [Field K] [LinearOrder K] [FloorRing K] [Interpretation K]
  [IsStrictOrderedRing K] {p : Problem (Extended K)} {s s' r r' : Scheme (Extended K)}
  {mesh grid grid' : Array (Extended K)} {q q' : Nat → K} {Γ Γ' : Kind → Extent}
  {view : BoundView (Extended K)}

/-! ## Untouched schemes -/

/-- Rows of all kinds with as many columns as there are grid points, or a single one. -/
def gridExtent (rows : Kind → Nat) (gridPoints : Nat) (k : Kind) : Extent :=
  ⟨rows k, if k.onGrid then gridPoints else 1⟩

namespace Scheme

omit [IsStrictOrderedRing K] in
/-- A transcription leaves the bounds of the variables as they are. -/
theorem Shows.transcribe (hs : s.Shows Γ view) (h : transcribe p s = .ok () s') :
    s'.Shows Γ view := by
  obtain ⟨s₁, s₂, hprepare, happly, rfl⟩ := transcribe_eq_ok h
  obtain ⟨d, -, rfl⟩ := prepare_eq_ok_iff.mp hprepare
  rw [(steady_applyRule.later_of_ok happly).rest]
  refine ⟨hs.extents, fun which => ?_, fun which k => ?_⟩
  · cases which
    · exact hs.strays .lower
    · exact hs.strays .upper
  · cases which
    · exact hs.tables .lower k
    · exact hs.tables .upper k

/-- A scheme of a built-in rule for a problem, transcribed with the bounds that it was made with. -/
structure Untouched (p : Problem (Extended K)) (rows : Kind → Nat) (grid : Array (Extended K))
    (q : Nat → K) (s : Scheme (Extended K)) : Prop where
  transcribed : s.transcribed = true
  gridVector : s.gridVector = .ok grid
  mesh : IsMesh grid q
  shows : s.Shows (gridExtent rows grid.size) (problemView p rows)
  ordered : s.BlocksOrdered

end Scheme

/-- The rows depend on the problem alone. -/
theorem BuiltIn.exists_untouched {b : BuiltIn} {settings : Settings (Extended K)}
    {literal : Literal (Extended K)} (hmesh : Mesh.ofLiteral literal = .ok mesh)
    (hdefined : ∀ x ∈ mesh, x ≠ undefined) (hs : b.scheme settings p literal = .ok s)
    (h : Scheme.transcribe p s = .ok () s') :
    ∃ derivatives slacks, Problem.rowsOf p.derivativeCount = .ok derivatives ∧
      Problem.rowsOf p.slackCount = .ok slacks ∧
      ∃ q, s'.Untouched p (fun k => (Scheme.kindExtent p 0 derivatives slacks k).rows)
        (b.grid mesh) q := by
  obtain ⟨q, hmeshed, -⟩ := Mesh.exists_isMesh hmesh hdefined
  have hgrid : IsMesh (b.grid mesh) (b.gridNumber q) := BuiltIn.isMesh_grid hmeshed
  obtain ⟨s₁, hfrom, -⟩ := BuiltIn.exists_from hmesh hdefined hs h
  obtain ⟨s₂, happly, hs'⟩ := hfrom.written
  obtain ⟨derivatives, slacks, hderivatives, hslacks, hshows⟩ :=
    Scheme.shows_of_createVariables hgrid.two_le (fun which => by cases which <;> rfl)
      (BuiltIn.createVariables_eq_ok hmesh hs)
  have hextent : Scheme.kindExtent p (b.grid mesh).size derivatives slacks =
      gridExtent (fun k => (Scheme.kindExtent p 0 derivatives slacks k).rows) (b.grid mesh).size :=
    funext (Scheme.kindExtent_eq p _ derivatives slacks)
  have hordered : s₂.BlocksOrdered := Scheme.blocksOrdered_of_applyRule hfrom.prepared happly
  change s.Shows (Scheme.kindExtent p (b.grid mesh).size derivatives slacks)
    (Scheme.problemView p fun k =>
      (Scheme.kindExtent p (b.grid mesh).size derivatives slacks k).rows) at hshows
  rw [hextent] at hshows
  refine ⟨derivatives, slacks, hderivatives, hslacks, b.gridNumber q, ?_, hfrom.gridVector, hgrid,
    hshows.transcribe h, ?_⟩
  · rw [hs']
  · rw [hs']
    exact hordered

/-! ## Carried values -/

/-- Values of all kinds on a grid of `n` points, and what they become on one of `n'` points. -/
structure CarriedValues (rows : Kind → Nat) (n n' : Nat) (V U : Kind → Tensor (Extended K)) :
    Prop where
  old : ∀ k, (V k).shape = (gridExtent rows n k).toList
  new : ∀ k, (U k).shape = (gridExtent rows n' k).toList
  onGrid : ∀ k, k.onGrid → CarriedFrom (V k) (U k) (rows k) n n'
  offGrid : ∀ k, ¬k.onGrid → U k = V k

theorem exists_carriedValues {rows : Kind → Nat} (h : IsMesh grid q) (h' : IsMesh grid' q')
    {V : Kind → Tensor (Extended K)} (hV : ∀ k, (V k).shape = (gridExtent rows grid.size k).toList)
    (initial final : K) :
    ∃ U, CarriedValues rows grid.size grid'.size V U ∧
      ∀ k, Trajectory.resampleValue (Scheme.timesBetween grid (finite initial) (finite final))
        (Scheme.timesBetween grid' (finite initial) (finite final)) (.kind k) (V k) =
          .ok (U k) := by
  have hkind : ∀ k, ∃ u : Tensor (Extended K), u.shape = (gridExtent rows grid'.size k).toList ∧
      (k.onGrid → CarriedFrom (V k) u (rows k) grid.size grid'.size) ∧ (¬k.onGrid → u = V k) ∧
      Trajectory.resampleValue (Scheme.timesBetween grid (finite initial) (finite final))
        (Scheme.timesBetween grid' (finite initial) (finite final)) (.kind k) (V k) = .ok u := by
    intro k
    have hself : (V k).atLeast2D = V k := Scheme.atLeast2D_of_shape (hV k)
    unfold Trajectory.resampleValue
    simp only [Key.kind?, hself]
    by_cases hk : k.onGrid
    · have hshape : (V k).shape = [rows k, grid.size] := by
        simp [hV k, gridExtent, hk, Extent.toList]
      obtain ⟨u, hu, hcarried⟩ := exists_carriedFrom h h' hshape initial final
      refine ⟨u, ?_, fun _ => hcarried, fun hoff => absurd hk hoff, by rw [if_pos hk, hu]⟩
      simp [hcarried.shape, gridExtent, hk, Extent.toList]
    · refine ⟨V k, ?_, fun hon => absurd hon hk, fun _ => rfl, by rw [if_neg hk]⟩
      simp [hV k, gridExtent, hk]
  choose U hnew hon hoff hU using hkind
  exact ⟨U, ⟨hV, hnew, hon, hoff⟩, hU⟩

/-- A mean of admitted numbers is admitted. -/
theorem Admits.mean {bounds : Extended K × Extended K} {x y w : K} (hx : Admits bounds (finite x))
    (hy : Admits bounds (finite y)) (hw : 0 ≤ w) (hw' : w ≤ 1) :
    Admits bounds (finite (x + w * (y - x))) := by
  rcases le_total x y with hle | hle
  · -- from `x` up to `y`
    have hlow : x ≤ x + w * (y - x) := le_add_of_nonneg_right (mul_nonneg hw (sub_nonneg.mpr hle))
    have hhigh : x + w * (y - x) ≤ y := by
      have hstep := mul_le_of_le_one_left (sub_nonneg.mpr hle) hw'
      linarith
    exact ⟨atMost_trans hx.1 (atMost_finite.mpr hlow), atMost_trans (atMost_finite.mpr hhigh) hy.2⟩
  · have hlow : y ≤ x + w * (y - x) := by
      have hstep := mul_le_of_le_one_left (sub_nonneg.mpr hle) hw'
      linarith
    have hhigh : x + w * (y - x) ≤ x := by
      have hstep := mul_nonneg hw (sub_nonneg.mpr hle)
      linarith
    exact ⟨atMost_trans hy.1 (atMost_finite.mpr hlow), atMost_trans (atMost_finite.mpr hhigh) hx.2⟩

/-- Carried values are admitted where the old ones were, if the bounds between the ends are the
    widest ones. -/
theorem CarriedValues.admits {rows : Kind → Nat} {n n' : Nat} {V U : Kind → Tensor (Extended K)}
    (h : CarriedValues rows n n' V U) (htwo : 2 ≤ n) (htwo' : 2 ≤ n')
    (hwidest : ∀ k, k.onGrid → view.Widest k)
    (hfinite : ∀ k p, ∃ y, (V k).get p = finite y)
    (hV : ∀ k, ∀ i < rows k, ∀ j < (gridExtent rows n k).cols,
      Admits (view k i (placeOf (gridExtent rows n k).cols j)) ((V k).get (i + rows k * j)))
    (k : Kind) {i j : Nat} (hi : i < rows k) (hj : j < (gridExtent rows n' k).cols) :
    Admits (view k i (placeOf (gridExtent rows n' k).cols j)) ((U k).get (i + rows k * j)) := by
  by_cases hk : k.onGrid
  · have hcols : ∀ n, (gridExtent rows n k).cols = n := fun n => if_pos hk
    rw [hcols] at hj
    have hcarried := h.onGrid k hk
    have hold := hV k i hi
    simp only [hcols] at hold ⊢
    by_cases hzero : j = 0
    · subst hzero
      rw [hcarried.first i hi]
      exact hold 0 (by omega)
    by_cases hlast : j = n' - 1
    · subst hlast
      have hend := hold (n - 1) (by omega)
      rw [placeOf_last htwo] at hend
      rw [placeOf_last htwo', hcarried.last i hi]
      exact hend
    · -- between the ends the value is a mean of two old ones
      have hmiddle : placeOf n' j = .middle := by
        unfold placeOf
        rw [if_neg hzero, if_neg (by omega)]
      choose y hy using fun j => hfinite k (i + rows k * j)
      have hadmits : ∀ j < n, Admits (view k i .middle) (finite (y j)) := by
        intro j hj
        rw [← hy j]
        exact hwidest k hk i _ _ (hold j hj)
      obtain ⟨j₁, hj₁, j₂, hj₂, w, hw, hw', hvalue⟩ :=
        hcarried.mean i hi y (fun j _ => hy j) j hj
      rw [hmiddle, hvalue]
      exact (hadmits j₁ hj₁).mean (hadmits j₂ hj₂) hw hw'
  · have hcols : ∀ n, (gridExtent rows n k).cols = 1 := fun n => if_neg hk
    rw [hcols] at hj ⊢
    rw [h.offGrid k hk, ← hcols n]
    exact hV k i hi j (by rw [hcols]; exact hj)

/-! ## Guesses -/

namespace Scheme

variable {rows : Kind → Nat} {t : Trajectory (Extended K)} {V : Kind → Tensor (Extended K)}

/-- A trajectory that lives on one scheme is carried to the other one. -/
theorem Untouched.exists_carried (hs : s.Untouched p rows grid q) (hr : r.Untouched p rows grid' q')
    (ht : t.LivesOn s) :
    ∃ V U guess, CarriedValues rows grid.size grid'.size V U ∧
      t.flatten = .ok (Layout.flatten (.full V)) ∧ r.carryGuess t = .ok guess ∧
      r.flattenGuess guess = .ok (Layout.flatten (.full U)) := by
  obtain ⟨values, htable, hfits⟩ := ht.values
  obtain ⟨initial, final, hinitial, hfinal, htimes⟩ := ht.times
  rw [createTimes_eq hs.gridVector, Except.ok.injEq] at htimes
  have hkind : ∀ k, ∃ v, values.find? k = some v ∧
      v.shape = (gridExtent rows grid.size k).toList := by
    intro k
    have hextent : s.extents.find? k = some (gridExtent rows grid.size k) := by
      rw [hs.shows.extents, Table.find?_full]
    obtain ⟨v, hv, hshape, -⟩ := hfits.exists_find? hextent
    exact ⟨v, hv, hshape⟩
  choose V hV hshape using hkind
  have hvalues : values = .full V := by
    ext1 k
    rw [hV, Table.find?_full]
  subst hvalues
  obtain ⟨U, hcarried, hU⟩ := exists_carriedValues hs.mesh hr.mesh hshape initial final
  have hresample : ∀ k v, (Table.full V).find? k = some v →
      Trajectory.resampleValue t.times.written (timesBetween grid' (finite initial) (finite final))
        (.kind k) v = .ok (U k) := by
    intro k v hv
    rw [Table.find?_full, Option.some.injEq] at hv
    rw [← hv, ← htimes]
    exact hU k
  obtain ⟨carried, hcarry, hfind⟩ := Trajectory.resample_eq_ok ht.distinct htable hresample
  have hfits : Layout.Fits r.extents (.full U) :=
    hr.shows.extents ▸ Layout.fits_full hcarried.new
  refine ⟨V, U, .iterate carried (.vector (timesBetween grid' (finite initial) (finite final)))
    t.names, hcarried, Trajectory.flatten_eq_ok htable, ?_, flattenGuess_eq_ok hfits ?_⟩
  · rw [carryGuess_eq hr.gridVector hinitial hfinal]
    exact hcarry
  · intro k
    rw [Trajectory.iterate, hfind, Table.find?_full, Table.find?_full]
    rfl

/-- Where some vector keeps the bounds of the variables, no bound is reported. -/
theorem Untouched.checkBounds_eq_ok (hr : r.Untouched p rows grid q) {x : Array (Extended K)}
    (hx : Within (Layout.flatten r.lower) (Layout.flatten r.upper) x) : r.checkBounds = .ok () :=
  checkBounds_of_ordered hr.shows.strays hx.ordered hr.ordered.ordered

omit [IsStrictOrderedRing K] in
/-- The values in a stacked vector are what was stacked. -/
theorem valuesOf_flatten (hs : s.extents = .full Γ) (hV : ∀ k, (V k).shape = (Γ k).toList)
    (k : Kind) :
    (s.valuesOf (Layout.flatten (.full V)) k).extent = Γ k ∧
      (s.valuesOf (Layout.flatten (.full V)) k).data = (V k).data := by
  have hcut := congrArg (Table.find? · k) (Layout.cut_flatten (Layout.fits_full hV))
  have hvalues : (Layout.cut (.full Γ) (Layout.flatten (.full V))).find? k =
      some (s.valuesOf (Layout.flatten (.full V)) k) := by
    simp [valuesOf, Table.values, Layout.cut, hs]
  simp only [Table.find?_map, Table.find?_full, hvalues, Option.map_some, Option.some.injEq] at hcut
  refine ⟨?_, congrArg Tensor.data hcut⟩
  simp [valuesOf, Table.values, Layout.cut, hs]

omit [IsStrictOrderedRing K] in
theorem columnArray_eq {a b : Matrix (Extended K)} {j j' : Nat} (hrows : a.rows = b.rows)
    (h : ∀ i < a.rows, a.get (i + a.rows * j) = b.get (i + b.rows * j')) :
    a.columnArray j = b.columnArray j' := by
  apply Array.ext
  · simp [Matrix.columnArray, hrows]
  · intro i hi hi'
    have hrow : i < a.rows := by simpa [Matrix.columnArray] using hi
    have hget := h i hrow
    rw [Nat.add_comm, Nat.mul_comm, Nat.add_comm i, Nat.mul_comm b.rows] at hget
    simpa [Matrix.columnArray] using hget

omit [IsStrictOrderedRing K] in
/-- In the decision vectors, too, the ends of the grid and everything off the grid are the same. -/
theorem valuesOf_carried {n n' : Nat} {U : Kind → Tensor (Extended K)}
    (h : CarriedValues rows n n' V U) (hs : s.extents = .full (gridExtent rows n))
    (hr : r.extents = .full (gridExtent rows n')) (k : Kind) :
    (k.onGrid →
      (r.valuesOf (Layout.flatten (.full U)) k).columnArray 0 =
        (s.valuesOf (Layout.flatten (.full V)) k).columnArray 0 ∧
      (r.valuesOf (Layout.flatten (.full U)) k).columnArray
          ((r.valuesOf (Layout.flatten (.full U)) k).cols - 1) =
        (s.valuesOf (Layout.flatten (.full V)) k).columnArray
          ((s.valuesOf (Layout.flatten (.full V)) k).cols - 1)) ∧
    (¬k.onGrid →
      r.valuesOf (Layout.flatten (.full U)) k = s.valuesOf (Layout.flatten (.full V)) k) := by
  obtain ⟨hextent, hdata⟩ := valuesOf_flatten hs h.old k
  obtain ⟨hextent', hdata'⟩ := valuesOf_flatten hr h.new k
  have hget : ∀ p, (s.valuesOf (Layout.flatten (.full V)) k).get p = (V k).get p :=
    fun p => congrArg (·.getD p default) hdata
  have hget' : ∀ p, (r.valuesOf (Layout.flatten (.full U)) k).get p = (U k).get p :=
    fun p => congrArg (·.getD p default) hdata'
  constructor
  · intro hk
    have hcarried := h.onGrid k hk
    simp only [gridExtent, if_pos hk] at hextent hextent'
    have hcolumn : ∀ j j',
        (∀ i < rows k, (U k).get (i + rows k * j') = (V k).get (i + rows k * j)) →
          (r.valuesOf (Layout.flatten (.full U)) k).columnArray j' =
            (s.valuesOf (Layout.flatten (.full V)) k).columnArray j := by
      intro j j' hsame
      apply columnArray_eq (by rw [Matrix.rows, Matrix.rows, hextent, hextent'])
      intro i hi
      rw [Matrix.rows, hextent'] at hi
      rw [Matrix.rows, Matrix.rows, hextent, hextent', hget, hget', hsame i hi]
    rw [Matrix.cols, Matrix.cols, hextent, hextent']
    exact ⟨hcolumn _ _ hcarried.first, hcolumn _ _ hcarried.last⟩
  · intro hk
    have hsame : gridExtent rows n' k = gridExtent rows n k := by simp [gridExtent, hk]
    refine Matrix.ext ?_ ?_
    · rw [hextent, hextent', hsame]
    · rw [hdata, hdata', h.offGrid k hk]

/-- Between untouched schemes, values are carried from within the bounds to within the bounds. -/
theorem Untouched.within_of_carried {U : Kind → Tensor (Extended K)}
    (hs : s.Untouched p rows grid q) (hr : r.Untouched p rows grid' q')
    (hends : ∀ c ∈ p.states ++ p.controls ++ p.multipliers, c.EndsInside)
    (h : CarriedValues rows grid.size grid'.size V U) {x : Array K}
    (hx : Layout.flatten (.full V) = x.map finite)
    (hbounds : Within (Layout.flatten s.lower) (Layout.flatten s.upper)
      (Layout.flatten (.full V))) :
    Within (Layout.flatten r.lower) (Layout.flatten r.upper) (Layout.flatten (.full U)) := by
  have hfinite : ∀ k p, ∃ y, (V k).get p = finite y := by
    intro k p
    obtain ⟨-, hdata⟩ := valuesOf_flatten hs.shows.extents h.old k
    obtain ⟨y, hy⟩ := finite_valuesOf s x k p
    rw [← hx, Matrix.get, hdata] at hy
    exact ⟨y, hy⟩
  rw [hs.shows.within_iff h.old] at hbounds
  rw [hr.shows.within_iff h.new]
  intro k i hi j hj
  exact h.admits hs.mesh.two_le hr.mesh.two_le (fun k hk => widest_problemView hends hk rows)
    hfinite hbounds k hi hj

/-- Let the bounds that a problem sets at the ends lie inside of those along the way, and let two
    schemes of built-in rules be made for it and transcribed, on meshes without undefined points.
    A trajectory that lives on the one, with finite values within its bounds, is accepted by the
    other one: the program starts within the bounds of the variables, whatever the order of the end
    times. At the ends of the grid, and in everything that is not on the grid, it starts at the
    values of the trajectory. -/
theorem carried_guess_within_bounds {a b : BuiltIn} {settings settings' : Settings (Extended K)}
    {literal literal' : Literal (Extended K)} {mesh mesh' : Array (Extended K)}
    (hends : ∀ c ∈ p.states ++ p.controls ++ p.multipliers, c.EndsInside)
    (hmesh : Mesh.ofLiteral literal = .ok mesh) (hdefined : ∀ x ∈ mesh, x ≠ undefined)
    (hs : a.scheme settings p literal = .ok s) (h : transcribe p s = .ok () s')
    (hmesh' : Mesh.ofLiteral literal' = .ok mesh') (hdefined' : ∀ x ∈ mesh', x ≠ undefined)
    (hr : b.scheme settings' p literal' = .ok r) (h' : transcribe p r = .ok () r')
    (ht : t.LivesOn s') {x : Array K} (hx : t.flatten = .ok (x.map finite))
    (hbounds : Within (Layout.flatten s'.lower) (Layout.flatten s'.upper) (x.map finite)) :
    ∃ program v w, r'.program t = .ok program ∧
      (∀ problem backend answer, backend program = .ok answer →
        r'.solve problem backend t = do
          return ⟨program, ← r'.solutionOf problem answer⟩) ∧
      program.lower = Layout.flatten r'.lower ∧ program.upper = Layout.flatten r'.upper ∧
      Within program.lower program.upper program.start ∧
      s'.expand (x.map finite) = .ok v ∧ r'.expand program.start = .ok w ∧
      ∀ k : Kind,
        (k.onGrid →
          (w.values k).columnArray 0 = (v.values k).columnArray 0 ∧
          (w.values k).columnArray ((w.values k).cols - 1) =
            (v.values k).columnArray ((v.values k).cols - 1)) ∧
        (¬k.onGrid → w.values k = v.values k) := by
  obtain ⟨derivatives, slacks, hderivatives, hslacks, q, hs'⟩ :=
    BuiltIn.exists_untouched hmesh hdefined hs h
  obtain ⟨derivatives', slacks', hderivatives', hslacks', q', hr'⟩ :=
    BuiltIn.exists_untouched hmesh' hdefined' hr h'
  cases hderivatives.symm.trans hderivatives'
  cases hslacks.symm.trans hslacks'
  obtain ⟨V, U, guess, hcarried, hV, hcarry, hflatten⟩ := hs'.exists_carried hr' ht
  rw [hV, Except.ok.injEq] at hx
  rw [← hx] at hbounds ⊢
  have hwithin := hs'.within_of_carried hr' hends hcarried hx hbounds
  have hprogram : r'.program t = .ok (r'.programFrom (Layout.flatten (.full U))) := by
    rw [program_of_carried hr'.transcribed hcarry hflatten, hr'.checkBounds_eq_ok hwithin]
    rfl
  have hsize : (Layout.flatten (.full V)).size = Layout.length s'.extents := by
    rw [hs'.shows.extents, Layout.size_flatten (Layout.fits_full hcarried.old)]
  have hsize' : (Layout.flatten (.full U)).size = Layout.length r'.extents := by
    rw [hr'.shows.extents, Layout.size_flatten (Layout.fits_full hcarried.new)]
  refine ⟨_, _, _, hprogram, ?_, rfl, rfl, hwithin, expand_eq hsize, expand_eq hsize',
    valuesOf_carried hcarried hs'.shows.extents hr'.shows.extents⟩
  intro problem backend answer hanswer
  unfold solve
  rw [hprogram]
  simp only [bind, Except.bind, hanswer]

/-- The slide between bounds, which are tighter at the ends. -/
def fencedSlide : Problem (Extended ℚ) where
  name := "fenced slide"
  initialTime := .between (.whole 1) (.whole 1)
  states := [⟨"x", .between (.whole 5) (.whole 7), .between (.whole 5) (.whole 5),
    .between (.whole 6) (.whole 7)⟩]
  controls := [⟨"u", .between (.whole 0) (.whole 3), .unset, .between (.whole 3) (.whole 3)⟩]
  dynamics := some (.name "u")

/-- The vector lies within the bounds of the variables. -/
def keepsBounds (x : Array (Extended ℚ)) (s' : Scheme (Extended ℚ)) : Bool :=
  decide (Within (Layout.flatten s'.lower) (Layout.flatten s'.upper) x)

/-- The program for the guess starts at a vector. -/
def startsAt (t : Trajectory (Extended ℚ)) (x : Array (Extended ℚ)) (_ s' : Scheme (Extended ℚ)) :
    Bool :=
  (s'.program t).toOption.map (·.start) = some x

/-- The slide that runs backwards is carried to five points. -/
theorem carried_guess_within_bounds_slide :
    ∃ s s' r r' program,
      trapezoidal (.standard none) fencedSlide
        (.list [.whole 0, .real (finite (1 / 4)), .whole 1]) = .ok s ∧
      transcribe fencedSlide s = .ok () s' ∧ keepsBounds (#[1, 0, 5, 7, 6, 1, 2, 3].map finite) s' ∧
      hermiteSimpson (.standard none) fencedSlide (.whole 3) true = .ok r ∧
      transcribe fencedSlide r = .ok () r' ∧ r'.program backwardSlide = .ok program ∧
      program.start = #[1, 0, 5, 6, 7, 13 / 2, 6, 1, 3 / 2, 2, 5 / 2, 3].map finite ∧
      Within program.lower program.upper program.start := by
  have hpasses : transcribesTo fencedSlide
      (trapezoidal (.standard none) fencedSlide
        (.list [.whole 0, .real (finite (1 / 4)), .whole 1]))
      (fun s s' => isOpenFor backwardSlide 1 0 (#[0, 1 / 4, 1].map finite) s s' &&
        keepsBounds (#[1, 0, 5, 7, 6, 1, 2, 3].map finite) s') := by
    decide +kernel
  have hcarries : transcribesTo fencedSlide
      (hermiteSimpson (.standard none) fencedSlide (.whole 3) true)
      (startsAt backwardSlide
        (#[1, 0, 5, 6, 7, 13 / 2, 6, 1, 3 / 2, 2, 5 / 2, 3].map finite)) := by
    decide +kernel
  obtain ⟨s, s', hs, hs', hcheck⟩ := exists_of_transcribesTo hpasses
  obtain ⟨r, r', hr, hr', hstart⟩ := exists_of_transcribesTo hcarries
  obtain ⟨hopen, hkeeps⟩ := Bool.and_eq_true_iff.mp hcheck
  obtain ⟨hlives, -, -⟩ := livesOn_of_isOpenFor hopen (by decide +kernel)
  have hmesh : Mesh.ofLiteral (.list [.whole 0, .real (finite (1 / 4)), .whole 1]) =
      .ok (#[0, 1 / 4, 1].map finite : Array (Extended ℚ)) :=
    eq_ok_of_toOption (by decide +kernel)
  have hmesh' : Mesh.ofLiteral (.whole 3) = .ok (evenPoints 3 : Array (Extended ℚ)) := rfl
  have hvector : backwardSlide.flatten = .ok (#[1, 0, 5, 7, 6, 1, 2, 3].map finite) :=
    eq_ok_of_toOption (by decide +kernel)
  obtain ⟨program, v, w, hprogram, -, -, -, hwithin, -⟩ :=
    carried_guess_within_bounds (a := .trapezoidal) (b := .hermiteSimpson true) (by decide +kernel)
      hmesh (by decide +kernel) hs hs' hmesh' (by decide +kernel) hr hr' hlives hvector
      (of_decide_eq_true hkeeps)
  unfold startsAt at hstart
  rw [hprogram] at hstart
  exact ⟨s, s', r, r', program, hs, hs', hkeeps, hr, hr', hprogram,
    Option.some.inj (of_decide_eq_true hstart), hwithin⟩

end Scheme
end Collocation
