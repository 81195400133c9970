import Collocation.Proofs.Scheme.BoundTables
import Collocation.Proofs.Scheme.WarmStart

/-! # The guess in the middle of the bounds

  An element is guessed in the middle of its bounds, at the only finite one of them, or at zero. So
  the guess is a number even where there are no bounds, and it is admitted wherever some number is.

  It has a value for every kind, of the size of the variables, and as many times as the grid has
  points. Nothing more is needed to carry it to the grid of the transcribed scheme: where the end
  times have no bounds they are both guessed at zero, and times that do not advance are as good as
  any. So what refuses this guess can only be the bounds. -/

namespace Collocation

/-! ## Values that are carried by their size -/

section Rows

variable {α : Type} [Number α] {oldTimes newTimes : Array α} {v : Tensor α} {rows : Nat}

/-- Whatever the old times are, there are abscissae for new ones. -/
theorem exists_abscissae_of_new (oldTimes : Array α) (hnew : 0 < newTimes.size) :
    ∃ points, abscissae oldTimes newTimes = (.ok points : Except (Fault α) _) := by
  have hsome : newTimes.isEmpty = false := by
    rw [Array.isEmpty]
    exact decide_eq_false (by omega)
  unfold abscissae
  split_ifs
  · exact ⟨_, rfl⟩
  · simp [hsome] at *
  · exact ⟨_, rfl⟩

/-- A matrix with a column for each of its times is carried to as many columns as there are new
    times, whatever these are. -/
theorem exists_resampleRows (hshape : v.shape = [rows, oldTimes.size]) (hold : 0 < oldTimes.size)
    (hnew : 0 < newTimes.size) :
    ∃ w, resampleRows oldTimes newTimes v = .ok w ∧ w.shape = [rows, newTimes.size] := by
  by_cases hrows : rows = 0
  · subst hrows
    exact ⟨_, resampleRows_of_no_rows hshape, rfl⟩
  by_cases hone : oldTimes.size = 1
  · rw [hone] at hshape
    exact ⟨_, resampleRows_of_one_column hshape hrows hone, by simp [repeatColumn, hshape]⟩
  · obtain ⟨points, hpoints⟩ := exists_abscissae_of_new oldTimes hnew
    exact ⟨_, resampleRows_eq hshape hrows (by omega) hpoints, rfl⟩

end Rows

namespace Scheme

section Carried

variable {α : Type} [Number α] {s : Scheme α} {grid : Array α} {t : Trajectory α}
  {values : Table (Tensor α)} {initial final : α}

/-- A guess of the sizes of the variables, with as many times as the grid has points, is refused for
    the bounds only. -/
theorem program_of_fits (htranscribed : s.transcribed = true) (hgrid : s.gridVector = .ok grid)
    (hpos : 0 < grid.size)
    (hcolumns : ∀ k e, k.onGrid = true → s.extents.find? k = some e → e.cols = grid.size)
    (hvalues : t.values = Keyed.ofTable values) (hfits : Layout.Fits s.extents values)
    (htimes : t.times.written.size = grid.size) (hinitial : t.first .initialTime = .ok initial)
    (hfinal : t.first .finalTime = .ok final) :
    ∃ x, x.size = Layout.length s.extents ∧ s.program t = do
      s.checkBounds
      return s.programFrom x := by
  have hnew : (timesBetween grid initial final).size = grid.size := size_timesBetween _ _ _
  -- with as many columns before and after, every value keeps its size on the way
  have hcarried : ∀ k v, values.find? k = some v → ∃ w : Tensor α,
      Trajectory.resampleValue t.times.written (timesBetween grid initial final) (.kind k) v =
        .ok w ∧ w.shape = v.shape := by
    intro k v hv
    have hshape := hfits k
    rw [hv, Option.map_some, eq_comm, Option.map_eq_some_iff] at hshape
    obtain ⟨e, he, hshape⟩ := hshape
    have hself : v.atLeast2D = v := atLeast2D_of_shape hshape.symm
    unfold Trajectory.resampleValue
    simp only [Key.kind?, hself]
    by_cases hk : k.onGrid = true
    · have hcols := hcolumns k e hk he
      have hmatrix : v.shape = [e.rows, t.times.written.size] := by
        rw [← hshape, htimes, ← hcols]
        rfl
      obtain ⟨w, hw, hwshape⟩ := exists_resampleRows hmatrix (by omega) (hnew ▸ hpos)
      refine ⟨w, by rw [if_pos hk]; exact hw, ?_⟩
      rw [hwshape, ← hshape, hnew, ← hcols]
      rfl
    · exact ⟨v, by rw [if_neg hk], rfl⟩
  have : Nonempty (Tensor α) := ⟨.vector #[]⟩
  choose! g hg using hcarried
  have hfits' : Layout.Fits s.extents (values.map g) := by
    intro k
    rw [← hfits k, Table.find?_map]
    cases hv : values.find? k with
    | none => rfl
    | some v => exact congrArg some (hg k v hv).2
  obtain ⟨carried, hresample, hfind⟩ := Trajectory.resample_eq_ok
    (hvalues ▸ Keyed.distinct_ofTable values) (hvalues ▸ Keyed.toTable_ofTable values)
    fun k v hv => (hg k v hv).1
  refine ⟨_, Layout.size_flatten hfits', program_of_carried htranscribed
    ((carryGuess_eq hgrid hinitial hfinal).trans hresample) (flattenGuess_eq_ok hfits' ?_)⟩
  intro k
  rw [Trajectory.iterate, hfind, Table.find?_map]

end Carried
end Scheme

open Extended

variable {K : Type} [Field K] [LinearOrder K] [FloorRing K] [Interpretation K]
  [IsStrictOrderedRing K]

/-! ## Elements -/

/-- What is guessed for an element with the given bounds. -/
structure MiddleOf (low high : Extended K) (z : K) : Prop where
  both : ∀ l u, low = finite l → high = finite u → z = (l + u) / 2
  lower : ∀ l, low = finite l → (∀ u, high ≠ finite u) → z = l
  upper : ∀ u, high = finite u → (∀ l, low ≠ finite l) → z = u
  neither : (∀ l, low ≠ finite l) → (∀ u, high ≠ finite u) → z = 0
  /-- Wherever the bounds leave room for any number. -/
  admitted : (∃ x, Admits (low, high) (finite x)) → Admits (low, high) (finite z)

theorem exists_middleOf (low high : Extended K) :
    ∃ z, middle low high = finite z ∧ MiddleOf low high z := by
  unfold middle
  by_cases hlow : Number.isFinite low = true
  · obtain ⟨l, rfl⟩ := isFinite_iff.mp hlow
    by_cases hhigh : Number.isFinite high = true
    · obtain ⟨u, rfl⟩ := isFinite_iff.mp hhigh
      refine ⟨1 / 2 * (l + u), ?_, ?_, fun _ _ h => absurd rfl (h u), fun _ _ h => absurd rfl (h l),
        fun h => absurd rfl (h l), ?_⟩
      · rw [if_pos hlow, if_pos hhigh, half_eq, finite_add, finite_mul]
      · rintro _ _ ⟨⟩ ⟨⟩
        ring
      · -- bounds with a number between them are in order
        rintro ⟨x, hlx, hxu⟩
        have horder : l ≤ u := (atMost_finite.mp hlx).trans (atMost_finite.mp hxu)
        exact ⟨atMost_finite.mpr (by linarith), atMost_finite.mpr (by linarith)⟩
    · have hinfinite := ne_finite hhigh
      refine ⟨l, by rw [if_pos hlow, if_neg hhigh], fun _ u _ h => absurd h (hinfinite u), ?_,
        fun u h => absurd h (hinfinite u), fun h => absurd rfl (h l), ?_⟩
      · rintro _ ⟨⟩ -
        rfl
      · rintro ⟨x, hx⟩
        refine admits_finite hx ?_ fun u h => absurd h (hinfinite u)
        rintro _ ⟨⟩
        exact le_rfl
  · have hinfinite := ne_finite hlow
    by_cases hhigh : Number.isFinite high = true
    · obtain ⟨u, rfl⟩ := isFinite_iff.mp hhigh
      refine ⟨u, by rw [if_neg hlow, if_pos hhigh], fun l _ h => absurd h (hinfinite l),
        fun l h => absurd h (hinfinite l), ?_, fun _ h => absurd rfl (h u), ?_⟩
      · rintro _ ⟨⟩ -
        rfl
      · rintro ⟨x, hx⟩
        refine admits_finite hx (fun l h => absurd h (hinfinite l)) ?_
        rintro _ ⟨⟩
        exact le_rfl
    · have hinfinite' := ne_finite hhigh
      refine ⟨0, ?_, fun l _ h => absurd h (hinfinite l), fun l h => absurd h (hinfinite l),
        fun u h => absurd h (hinfinite' u), fun _ _ => rfl, ?_⟩
      · rw [if_neg hlow, if_neg hhigh, zero_eq]
      · -- where two such bounds admit some number they admit all of them
        rintro ⟨x, hx⟩
        exact admits_finite hx (fun l h => absurd h (hinfinite l))
          fun u h => absurd h (hinfinite' u)

/-! ## Iterates -/

namespace Scheme

variable {s : Scheme (Extended K)} {p : Problem (Extended K)} {grid : Array (Extended K)}

/-- What the guess in the middle of the bounds consists of: a value of the size of the variables for
    every kind, each element of it as its bounds say, and the grid between the end times that are
    among the values. -/
structure MiddleIterate (s : Scheme (Extended K)) (t : Trajectory (Extended K)) : Prop where
  values : ∃ values : Table (Tensor (Extended K)), t.values = Keyed.ofTable values ∧
    ∀ k, ∃ e v lower upper, s.extents.find? k = some e ∧ values.find? k = some v ∧
      s.lower.find? k = some lower ∧ s.upper.find? k = some upper ∧
      v.shape = e.toList ∧ lower.shape = e.toList ∧ upper.shape = e.toList ∧
      ∀ i < v.size, ∃ z, v.get i = finite z ∧ MiddleOf (lower.get i) (upper.get i) z
  times : ∃ initial final : K, t.first .initialTime = .ok (finite initial) ∧
    t.first .finalTime = .ok (finite final) ∧
    s.createTimes (finite initial) (finite final) = .ok t.times.written

theorem exists_middleIterate {problem : Problem (Extended K)}
    (hvariables : extentsFor problem s.gridPoints = .ok s.extents)
    (hgrid : s.gridVector = .ok grid) (hbounds : s.checkVariables = .ok ())
    (p : Problem (Extended K)) : ∃ t, s.guessFromBounds p = .ok t ∧ s.MiddleIterate t := by
  obtain ⟨derivatives, slacks, -, -, hextents⟩ := extentsFor_eq_ok hvariables
  obtain ⟨values, hguess, hfits, hmiddle⟩ := exists_guessTable hbounds p
  have hkind : ∀ k, ∃ e v lower upper, s.extents.find? k = some e ∧ values.find? k = some v ∧
      s.lower.find? k = some lower ∧ s.upper.find? k = some upper ∧
      v.shape = e.toList ∧ lower.shape = e.toList ∧ upper.shape = e.toList ∧
      ∀ i < v.size, ∃ z, v.get i = finite z ∧ MiddleOf (lower.get i) (upper.get i) z := by
    intro k
    have he : s.extents.find? k = some (kindExtent problem s.gridPoints derivatives slacks k) := by
      rw [hextents, Table.find?_full]
    obtain ⟨v, hv, hshape, -⟩ := hfits.exists_find? he
    obtain ⟨lower, upper, hlower, hupper, hlowerShape, hupperShape, hget⟩ := hmiddle k v hv
    refine ⟨_, v, lower, upper, he, hv, hlower, hupper, hshape, hlowerShape.trans hshape,
      hupperShape.trans hshape, fun i hi => ?_⟩
    obtain ⟨z, hz, hof⟩ := exists_middleOf (lower.get i) (upper.get i)
    exact ⟨z, (hget i hi).trans hz, hof⟩
  -- an end time is a single number
  have hend : ∀ k ∈ [Kind.initialTime, .finalTime], ∃ v z, values.find? k = some v ∧
      v.size ≠ 0 ∧ v.get 0 = finite z := by
    intro k hk
    obtain ⟨e, v, lower, upper, he, hv, -, -, hshape, -, -, hget⟩ := hkind k
    have hunit : e = .unit := by
      rw [hextents, Table.find?_full, Option.some.injEq] at he
      simp only [List.mem_cons, List.not_mem_nil, or_false] at hk
      rcases hk with rfl | rfl <;> exact he.symm
    have hsize : v.size = 1 := by
      rw [Tensor.size, v.size_data, hshape, hunit]
      rfl
    obtain ⟨z, hz, -⟩ := hget 0 (by omega)
    exact ⟨v, z, hv, by omega, hz⟩
  obtain ⟨v, initial, hv, hsize, hinitial⟩ := hend .initialTime (by simp)
  obtain ⟨v', final, hv', hsize', hfinal⟩ := hend .finalTime (by simp)
  have hiterate : ∃ t, s.iterateOf p values = .ok t := by
    unfold iterateOf
    rw [timesOf_eq_ok hgrid hv hsize hv' hsize']
    exact ⟨_, rfl⟩
  obtain ⟨t, ht⟩ := hiterate
  obtain ⟨hvalues, a, b, ha, hb, htimes⟩ := times_of_iterateOf ht
  have hdistinct : t.values.Distinct := hvalues ▸ Keyed.distinct_ofTable values
  have htable : t.values.toTable = .ok values := hvalues ▸ Keyed.toTable_ofTable values
  cases ha.symm.trans (Trajectory.first_eq_ok hdistinct htable hv hsize)
  cases hb.symm.trans (Trajectory.first_eq_ok hdistinct htable hv' hsize')
  rw [hinitial] at ha htimes
  rw [hfinal] at hb htimes
  exact ⟨t, hguess.trans ht, ⟨values, hvalues, hkind⟩, initial, final, ha, hb, htimes⟩

/-- Let the grid of a scheme be set, its variables be those that were made for a problem, and its
    bounds have their sizes. Then there is a guess in the middle of the bounds, with a value of the
    right size for every kind, a number at each of its elements, and this number is the middle of
    two finite bounds, the only finite one, or else zero; it is admitted by all bounds that admit
    some number. After a scheme with these variables has been transcribed on a grid of as many
    points, whatever its bounds are or become and whatever functions it keeps, the guess is refused
    by nothing but the checks of the bounds, wherever the end times were guessed. -/
theorem middle_guess_accepted {problem : Problem (Extended K)}
    (hvariables : extentsFor problem s.gridPoints = .ok s.extents)
    (hgrid : s.gridVector = .ok grid) (hbounds : s.checkVariables = .ok ())
    (p : Problem (Extended K)) :
    ∃ t, s.guessFromBounds p = .ok t ∧ s.MiddleIterate t ∧
      ∀ (p' : Problem (Extended K)) (s₀ s' r : Scheme (Extended K)) points,
        s₀.gridPoints = s.gridPoints → s₀.extents = s.extents → s₀.gridVector = .ok points →
        points.size = grid.size → transcribe p' s₀ = .ok () s' → s'.AgreesButConstraints r →
          ∃ x, x.size = Layout.length r.extents ∧ r.program t = do
            r.checkBounds
            return r.programFrom x := by
  obtain ⟨t, ht, hmiddle⟩ := exists_middleIterate hvariables hgrid hbounds p
  refine ⟨t, ht, hmiddle, ?_⟩
  intro p' s₀ s' r points hsame hextents hpoints hsize h hlater
  obtain ⟨⟨values, hvalues, hkind⟩, initial, final, hinitial, hfinal, htimes⟩ := hmiddle
  have hvariables' : extentsFor problem s₀.gridPoints = .ok s₀.extents := by
    rw [hsame, hextents]
    exact hvariables
  have hpoints' : s'.gridVector = .ok points := (gridVector_of_transcribe h).trans hpoints
  obtain ⟨htranscribed, hextents', hpos, hcolumns⟩ := columns_of_transcribe hvariables' h hpoints'
  obtain ⟨_, _, _, _, _, _, _, rfl⟩ := hlater
  refine program_of_fits htranscribed hpoints' hpos hcolumns hvalues ?_ ?_ hinitial hfinal
  · intro k
    obtain ⟨e, v, -, -, he, hv, -, -, hshape, -⟩ := hkind k
    show _ = (s'.extents.find? k).map _
    rw [hextents', hextents, he, hv, Option.map_some, Option.map_some, hshape]
  · rw [createTimes_eq hgrid, Except.ok.injEq] at htimes
    rw [← htimes, size_timesBetween, hsize]

/-- The slide between a lower and an upper bound of its state, at a speed with a lower one. -/
def boundedSlide : Problem (Extended ℚ) :=
  { slide with
    states := [⟨"x", .between (.whole 0) (.whole 1), .unset, .unset⟩]
    controls := [⟨"u", .between (.whole 2) (.real (infinite false)), .unset, .unset⟩] }

/-- The scheme is on the grid, its bounds have the right sizes and stay in order when it is
    transcribed, and both end times are guessed at zero. -/
def isGuessedAtOnce (p : Problem (Extended ℚ)) (grid : Array (Extended ℚ))
    (s s' : Scheme (Extended ℚ)) : Bool :=
  s.gridVector.toOption = some grid &&
    s.checkVariables.toOption = some () && s'.checkBounds.toOption = some () &&
    (s.guessFromBounds p).toOption.any fun t =>
      (t.first .initialTime).toOption = some (finite 0) &&
        (t.first .finalTime).toOption = some (finite 0)

/-- Without bounds for the end times the guess takes no time, and is accepted. -/
theorem middle_guess_accepted_at_once :
    ∃ s s' t x,
      custom (.standard none) boundedSlide looseRule (some (.vector (#[0, 1 / 4, 1].map finite))) 3
          true = .ok s ∧
      transcribe boundedSlide s = .ok () s' ∧ s.guessFromBounds boundedSlide = .ok t ∧
      t.first .initialTime = .ok (finite 0) ∧ t.first .finalTime = .ok (finite 0) ∧
      x.size = Layout.length s'.extents ∧ s'.program t = .ok (s'.programFrom x) := by
  have hpasses : transcribesTo boundedSlide
      (custom (.standard none) boundedSlide looseRule
        (some (.vector (#[0, 1 / 4, 1].map finite))) 3 true)
      (isGuessedAtOnce boundedSlide (#[0, 1 / 4, 1].map finite)) := by
    decide +kernel
  obtain ⟨s, s', hs, hs', hcheck⟩ := exists_of_transcribesTo hpasses
  unfold isGuessedAtOnce at hcheck
  simp only [Bool.and_eq_true, decide_eq_true_iff] at hcheck
  obtain ⟨⟨⟨hgrid, hsizes⟩, hbounds⟩, hguess⟩ := hcheck
  obtain ⟨t, ht, -, haccepted⟩ := middle_guess_accepted (extents_of_custom hs)
    (eq_ok_of_toOption hgrid) (eq_ok_of_toOption hsizes) boundedSlide
  obtain ⟨x, hx, hprogram⟩ := haccepted boundedSlide s s' s' _ rfl rfl
    (eq_ok_of_toOption hgrid) rfl hs' (.refl s')
  rw [eq_ok_of_toOption hbounds] at hprogram
  obtain ⟨t', ht', hends⟩ := (Option.any_eq_true _ _).mp hguess
  cases ht.symm.trans (eq_ok_of_toOption ht')
  simp only [Bool.and_eq_true, decide_eq_true_iff] at hends
  exact ⟨s, s', t, x, hs, hs', ht, eq_ok_of_toOption hends.1, eq_ok_of_toOption hends.2, hx,
    hprogram⟩

end Scheme
end Collocation
