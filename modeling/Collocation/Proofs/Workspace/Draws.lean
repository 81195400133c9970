import Collocation.Proofs.Scheme.OrderedTables
import Collocation.Proofs.Scheme.RoundTrip
import Collocation.Proofs.Workspace.Steps

/-! # Iterates drawn between bounds

  A number is drawn between the two bounds of its element; a bound that is not finite is replaced
  with the help of a range that settings have been accepted with. So draws are only ever made
  between finite ends in order, and whatever the generator returns there lies between the bounds, or
  as far from the only finite one as the range is wide, or in the range itself. The bounds that the
  scheme keeps are not touched. -/

namespace Collocation

open Extended

variable {K : Type} [Field K] [LinearOrder K] [FloorRing K] [Interpretation K]
  [IsStrictOrderedRing K]

/-! ## The range for unbounded elements -/

omit [IsStrictOrderedRing K] in
theorem Settings.of_readRange {l : Literal (Extended K)} {range : Extended K × Extended K}
    (h : readRange l = .ok range) :
    ∃ a b : K, range = (finite a, finite b) ∧ a ≤ b := by
  unfold readRange at h
  split at h
  · cases h
  · cases h
  · cases h
  · split at h
    · next low high _ _ =>
      split_ifs at h with hcheck
      cases h
      simp only [Bool.and_eq_true, Bool.not_eq_true'] at hcheck
      obtain ⟨⟨hlow, hhigh⟩, horder⟩ := hcheck
      obtain ⟨a, rfl⟩ := isFinite_iff.mp hlow
      obtain ⟨b, rfl⟩ := isFinite_iff.mp hhigh
      rw [← Bool.not_eq_true, below_finite, not_lt] at horder
      exact ⟨a, b, rfl, horder⟩
    · cases h
  · cases h

/-- Settings that were accepted have a finite range in order, chosen or not. -/
theorem Settings.exists_range {configured : Option String} {fields : Options (Extended K)}
    {settings : Settings (Extended K)} (h : ofFields configured fields = .ok settings) :
    ∃ a b : K, settings.unboundedRange = (finite a, finite b) ∧ a ≤ b := by
  unfold ofFields at h
  simp only at h
  split at h
  · next solver plugin tuning range _ _ _ hrange =>
    cases h
    unfold readField at hrange
    split at hrange
    · cases hrange
      refine ⟨-1, 1, ?_, by linarith [zero_lt_one' K]⟩
      simp [standard]
    · next l _ =>
      cases hread : readRange l with
      | error faults =>
        rw [hread] at hrange
        cases hrange
      | ok range' =>
        rw [hread] at hrange
        cases hrange
        exact of_readRange hread
  · cases h

/-! ## Ends of a draw -/

/-- Where a number may be drawn for an element with the given bounds, if the range for unbounded
    elements is from `a` to `b`. -/
structure DrawnWithin (a b : K) (low high : Extended K) (z : K) : Prop where
  /-- Between the bounds, wherever these leave room for any number. -/
  admitted : (∃ x, Admits (low, high) (finite x)) → Admits (low, high) (finite z)
  /-- Not farther above an only lower bound than the range is wide. -/
  above : ∀ l, low = finite l → Number.isFinite high = false → l ≤ z ∧ z ≤ l + (b - a)
  /-- Not farther below an only upper bound than the range is wide. -/
  below : ∀ u, high = finite u → Number.isFinite low = false → u - (b - a) ≤ z ∧ z ≤ u
  /-- In the range, without bounds. -/
  free : low = infinite true → high = infinite false → a ≤ z ∧ z ≤ b

/-- The ends of a draw are finite and in order, and what lies between them may be drawn. -/
theorem exists_drawnWithin {a b : K} (hab : a ≤ b) {low high : Extended K}
    (horder : Number.atMost low high) :
    ∃ x y, drawEnds (finite a, finite b) low high = (finite x, finite y) ∧ x ≤ y ∧
      ∀ z, x ≤ z → z ≤ y → DrawnWithin a b low high z := by
  unfold drawEnds
  by_cases hlow : Number.isFinite low = true
  · obtain ⟨l, rfl⟩ := isFinite_iff.mp hlow
    by_cases hhigh : Number.isFinite high = true
    · -- two finite bounds are the ends themselves
      obtain ⟨u, rfl⟩ := isFinite_iff.mp hhigh
      refine ⟨l, u, rfl, atMost_finite.mp horder, fun z hlz hzu => ⟨?_, ?_, ?_, nofun⟩⟩
      · exact fun _ => ⟨atMost_finite.mpr hlz, atMost_finite.mpr hzu⟩
      · exact fun _ _ hinfinite => absurd hinfinite (by simp [hhigh])
      · exact fun _ _ hinfinite => absurd hinfinite (by simp [hlow])
    · -- an upper bound that is not finite is none if it leaves room at all
      refine ⟨l, l + (b - a), ?_, by linarith, fun z hlz hzu => ⟨?_, ?_, ?_, nofun⟩⟩
      · rw [if_pos hlow, if_neg hhigh, finite_sub, finite_add]
      · rintro ⟨x, hx⟩
        refine admits_finite hx ?_ fun u hu => absurd hu (ne_finite hhigh u)
        rintro _ ⟨⟩
        exact hlz
      · rintro _ ⟨⟩ -
        exact ⟨hlz, hzu⟩
      · exact fun _ _ hinfinite => absurd hinfinite (by simp [hlow])
  · by_cases hhigh : Number.isFinite high = true
    · obtain ⟨u, rfl⟩ := isFinite_iff.mp hhigh
      refine ⟨u - (b - a), u, ?_, by linarith, fun z hlz hzu => ⟨?_, ?_, ?_, fun _ => nofun⟩⟩
      · rw [if_neg hlow, if_pos hhigh, finite_sub, finite_sub]
      · rintro ⟨x, hx⟩
        refine admits_finite hx (fun l hl => absurd hl (ne_finite hlow l)) ?_
        rintro _ ⟨⟩
        exact hzu
      · exact fun _ _ hinfinite => absurd hinfinite (by simp [hhigh])
      · rintro _ ⟨⟩ -
        exact ⟨hlz, hzu⟩
    · refine ⟨a, b, ?_, hab, fun z hlz hzu => ⟨?_, ?_, ?_, fun _ _ => ⟨hlz, hzu⟩⟩⟩
      · rw [if_neg hlow, if_neg hhigh]
      · rintro ⟨x, hx⟩
        exact admits_finite hx (fun l hl => absurd hl (ne_finite hlow l))
          fun u hu => absurd hu (ne_finite hhigh u)
      · exact fun l hl => absurd hl (ne_finite hlow l)
      · exact fun u hu => absurd hu (ne_finite hhigh u)

/-! ## Bounds side by side -/

section Shapes

variable {α : Type}

theorem length_of_stretchReversed? {s t r : List Nat} (h : stretchReversed? s t = some r) :
    s.length ≤ r.length ∧ t.length ≤ r.length := by
  induction s generalizing t r with
  | nil =>
    cases h
    simp
  | cons m s ih =>
    cases t with
    | nil =>
      cases h
      simp
    | cons n t =>
      unfold stretchReversed? at h
      split_ifs at h
      · obtain ⟨rest, hrest, rfl⟩ := Option.map_eq_some_iff.mp h
        simpa using ih hrest
      · obtain ⟨rest, hrest, rfl⟩ := Option.map_eq_some_iff.mp h
        simpa using ih hrest

theorem length_of_stretch? {s t r : List Nat} (h : stretch? s t = some r) :
    s.length ≤ r.length ∧ t.length ≤ r.length := by
  obtain ⟨reversed, hreversed, rfl⟩ := Option.map_eq_some_iff.mp h
  simpa using length_of_stretchReversed? hreversed

theorem pos_of_volume {shape : List Nat} (h : 0 < volume shape) : ∀ n ∈ shape, 0 < n := by
  induction shape with
  | nil => simp
  | cons m shape ih =>
    rw [volume_cons] at h
    exact List.forall_mem_cons.mpr ⟨Nat.pos_of_mul_pos_right h, ih (Nat.pos_of_mul_pos_left h)⟩

/-- A mask with elements is of the shape that it may choose from. -/
theorem eq_of_checkMask {shape mask : List Nat}
    (h : checkMask shape mask = (.ok () : Except (Fault α) Unit))
    (hlength : shape.length ≤ mask.length) (hpos : 0 < volume mask) : shape = mask := by
  unfold checkMask at h
  split_ifs at h with hshort
  split at h
  · cases h
  · next hnone =>
    have hsame : shape.length = mask.length := by omega
    refine List.ext_getElem hsame fun i hi hi' => ?_
    have hmask := pos_of_volume hpos _ (List.getElem_mem hi')
    have hi'' : i < (List.zip shape mask).length := by simp [hi, hi']
    have haxis := List.findIdx?_eq_none_iff.mp hnone _ (List.getElem_mem hi'')
    simpa [List.getElem_zip, hmask] using haxis

/-- Bounds side by side have one shape, or there is no element in what they have in common. -/
theorem shapes_of_commonShape {lower upper : Tensor α} {shape : List Nat}
    (h : commonShape lower upper = .ok shape) (hpos : 0 < volume shape) :
    lower.shape = shape ∧ upper.shape = shape := by
  unfold commonShape at h
  split at h
  · cases h
  · next mask hmask =>
    obtain ⟨_, hlower, h⟩ := bind_eq_ok h
    obtain ⟨_, hupper, h⟩ := bind_eq_ok h
    cases h
    obtain ⟨hlength, hlength'⟩ := length_of_stretch? hmask
    exact ⟨eq_of_checkMask hlower hlength hpos, eq_of_checkMask hupper hlength' hpos⟩

end Shapes

namespace Scheme

variable {s : Scheme (Extended K)} {p : Problem (Extended K)}

section Sides

variable {α : Type} {s : Scheme α} {k : Kind} {lower upper : Tensor α} {shape : List Nat}

theorem find?_of_sides (h : s.sides k = .ok (lower, upper, shape)) :
    s.lower.find? k = some lower ∧ s.upper.find? k = some upper ∧
      commonShape lower upper = .ok shape := by
  unfold sides at h
  obtain ⟨lower', hlower, h⟩ := bind_eq_ok h
  obtain ⟨upper', hupper, h⟩ := bind_eq_ok h
  obtain ⟨shape', hshape, h⟩ := bind_eq_ok h
  cases h
  exact ⟨Table.find?_of_get hlower, Table.find?_of_get hupper, hshape⟩

end Sides

/-- Where both sides have an array of one shape under a kind, lower bounds are at most upper
    ones. -/
def SidesOrdered (s : Scheme (Extended K)) : Prop :=
  ∀ k lower upper, s.lower.find? k = some lower → s.upper.find? k = some upper →
    lower.shape = upper.shape → ∀ i < lower.size, Number.atMost (lower.get i) (upper.get i)

variable {k : Kind} {lower upper : Tensor (Extended K)} {shape : List Nat}

omit [IsStrictOrderedRing K] in
/-- The two bounds of an element that is drawn. -/
theorem SidesOrdered.atMost (hs : s.SidesOrdered) (h : s.sides k = .ok (lower, upper, shape))
    {i : Nat} (hi : i < volume shape) :
    lower.shape = shape ∧ upper.shape = shape ∧ Number.atMost (lower.get i) (upper.get i) := by
  obtain ⟨hlower, hupper, hshape⟩ := find?_of_sides h
  obtain ⟨hlowerShape, hupperShape⟩ := shapes_of_commonShape hshape (by omega)
  refine ⟨hlowerShape, hupperShape, hs k lower upper hlower hupper ?_ i ?_⟩
  · rw [hlowerShape, hupperShape]
  · rwa [Tensor.size, lower.size_data, hlowerShape]

/-- Generators that agree between finite ends in order draw the same values. -/
theorem drawValues_congr {a b : K} (hrange : s.settings.unboundedRange = (finite a, finite b))
    (hab : a ≤ b) (hs : s.SidesOrdered)
    {uniform uniform' : Nat → Extended K → Extended K → Extended K}
    (h : ∀ n x y, x ≤ y → uniform' n (finite x) (finite y) = uniform n (finite x) (finite y))
    (drawn : Nat) (kinds : List Kind) :
    s.drawValues uniform' drawn kinds = s.drawValues uniform drawn kinds := by
  induction kinds generalizing drawn with
  | nil => rfl
  | cons k kinds ih =>
    cases hsides : s.sides k with
    | error fault =>
      rw [drawValues, drawValues, hsides]
      rfl
    | ok r =>
      obtain ⟨lower, upper, shape⟩ := r
      have hvalue : s.drawnValue uniform' drawn lower upper shape =
          s.drawnValue uniform drawn lower upper shape := by
        refine Tensor.ext_get rfl fun i hi => ?_
        obtain ⟨hlowerShape, hupperShape, horder⟩ := hs.atMost hsides hi
        obtain ⟨x, y, hends, hxy, -⟩ := exists_drawnWithin hab horder
        rw [← hrange] at hends
        rw [get_drawnValue hlowerShape hupperShape hi hends,
          get_drawnValue hlowerShape hupperShape hi hends]
        exact h _ x y hxy
      rw [drawValues_cons hsides, drawValues_cons hsides, hvalue]
      simp only [ih]

/-! ## Iterates -/

/-- What an iterate that was drawn consists of: a value for every kind with variables, each element
    of it drawn between the bounds at its place, and the grid between the end times that are among
    the values. -/
structure DrawnIterate (s : Scheme (Extended K)) (a b : K) (t : Trajectory (Extended K)) :
    Prop where
  values : ∃ values : Table (Tensor (Extended K)), t.values = Keyed.ofTable values ∧
    (∀ k, (values.find? k).isSome = (s.extents.find? k).isSome) ∧
    ∀ k v, values.find? k = some v → ∃ lower upper, s.lower.find? k = some lower ∧
      s.upper.find? k = some upper ∧ commonShape lower upper = .ok v.shape ∧ ∀ i < v.size,
        lower.shape = v.shape ∧ upper.shape = v.shape ∧
          ∃ z, v.get i = finite z ∧ DrawnWithin a b (lower.get i) (upper.get i) z
  times : ∃ initial final, t.first .initialTime = .ok initial ∧ t.first .finalTime = .ok final ∧
    s.createTimes initial final = .ok t.times.written

/-- Whatever is drawn is drawn between the bounds. -/
theorem drawnIterate_of_random {a b : K} (hrange : s.settings.unboundedRange = (finite a, finite b))
    (hab : a ≤ b) (hs : s.SidesOrdered) {uniform : Nat → Extended K → Extended K → Extended K}
    (huniform : ∀ n x y, x ≤ y → ∃ z, uniform n (finite x) (finite y) = finite z ∧ x ≤ z ∧ z ≤ y)
    {t : Trajectory (Extended K)} (h : s.randomWithinBounds p uniform = .ok t) :
    s.DrawnIterate a b t := by
  have hsides : ∀ k e, s.extents.find? k = some e → ∃ r, s.sides k = .ok r := by
    unfold randomWithinBounds at h
    obtain ⟨entries, hentries, -⟩ := bind_eq_ok h
    obtain ⟨hfirsts, hvalues⟩ := drawValues_eq_ok hentries
    intro k e he
    have hmem : k ∈ entries.map (·.1) := by
      rw [hfirsts]
      exact List.mem_map.mpr ⟨(k, e), Table.mem_toList.mpr he, rfl⟩
    obtain ⟨⟨k', v⟩, hentry, rfl⟩ := List.mem_map.mp hmem
    obtain ⟨lower, upper, -, hside, -⟩ := hvalues k' v hentry
    exact ⟨_, hside⟩
  obtain ⟨values, hdraw, hkinds, hdrawn⟩ := exists_randomTable uniform hsides p
  obtain ⟨hvalues, htimes⟩ := times_of_iterateOf (hdraw.symm.trans h)
  refine ⟨⟨values, hvalues, hkinds, fun k v hv => ?_⟩, htimes⟩
  obtain ⟨lower, upper, n, hside, heq⟩ := hdrawn k v hv
  obtain ⟨hlower, hupper, hcommon⟩ := find?_of_sides hside
  refine ⟨lower, upper, hlower, hupper, hcommon, fun i hi => ?_⟩
  have hi' : i < volume v.shape := by rwa [← v.size_data]
  obtain ⟨hlowerShape, hupperShape, horder⟩ := hs.atMost hside hi'
  obtain ⟨x, y, hends, hxy, hbetween⟩ := exists_drawnWithin hab horder
  obtain ⟨z, hz, hxz, hzy⟩ := huniform (n + rank v.shape i) x y hxy
  refine ⟨hlowerShape, hupperShape, z, ?_, hbetween z hxz hzy⟩
  rw [← hrange] at hends
  rw [heq, get_drawnValue hlowerShape hupperShape hi' hends]
  exact hz

omit [IsStrictOrderedRing K] in
/-- An iterate can be drawn where the grid is set, both sides of every kind have one shape, and both
    end times have an element. -/
theorem exists_random {uniform : Nat → Extended K → Extended K → Extended K}
    {grid : Array (Extended K)} (hgrid : s.gridVector = .ok grid)
    (hsides : ∀ k e, s.extents.find? k = some e → ∃ lower upper,
      s.lower.find? k = some lower ∧ s.upper.find? k = some upper ∧ upper.shape = lower.shape)
    (hends : ∀ k ∈ [Kind.initialTime, .finalTime], (s.extents.find? k).isSome ∧
      ∀ lower, s.lower.find? k = some lower → lower.size ≠ 0) :
    ∃ t, s.randomWithinBounds p uniform = .ok t := by
  have hpairs : ∀ k e, s.extents.find? k = some e → ∃ r, s.sides k = .ok r := by
    intro k e he
    obtain ⟨lower, upper, hlower, hupper, hshape⟩ := hsides k e he
    exact ⟨_, sides_of_shape hlower hupper hshape⟩
  obtain ⟨values, hdraw, hkinds, hdrawn⟩ := exists_randomTable uniform hpairs p
  have hend : ∀ k ∈ [Kind.initialTime, .finalTime], ∃ v, values.find? k = some v ∧ v.size ≠ 0 := by
    intro k hk
    obtain ⟨hvariables, hsize⟩ := hends k hk
    rw [← hkinds, Option.isSome_iff_exists] at hvariables
    obtain ⟨v, hv⟩ := hvariables
    obtain ⟨e, he⟩ := Option.isSome_iff_exists.mp ((hkinds k).symm.trans (by rw [hv]; rfl))
    obtain ⟨lower, upper, hlower, hupper, hshape⟩ := hsides k e he
    obtain ⟨_, _, _, hside, -⟩ := hdrawn k v hv
    have hsame := Except.ok.inj ((sides_of_shape hlower hupper hshape).symm.trans hside)
    have hshape' : lower.shape = v.shape := congrArg (·.2.2) hsame
    refine ⟨v, hv, ?_⟩
    rw [Tensor.size, v.size_data, ← hshape', ← lower.size_data]
    exact hsize lower hlower
  obtain ⟨initial, hinitial, hinitialSize⟩ := hend .initialTime (by simp)
  obtain ⟨final, hfinal, hfinalSize⟩ := hend .finalTime (by simp)
  rw [hdraw]
  unfold iterateOf
  rw [timesOf_eq_ok hgrid hinitial hinitialSize hfinal hfinalSize]
  exact ⟨_, rfl⟩

open Workspace in
/-- Let the settings of a scheme have been accepted, let no lower bound be above the upper one and
    neither be undefined, and let a generator return a number between any finite ends in order. Then
    an iterate is drawn wherever the grid is set and the variables have bounds of one shape on both
    sides, and whatever is drawn lies between the bounds of its element: where only one of them is
    finite, no farther from it than the range in the settings is wide, and without bounds in this
    range. The times are those of the grid between the end times that were drawn. What a generator
    does between other ends does not matter, because no draw is made there, and a command that draws
    leaves every scheme as it was. -/
theorem draws_within_bounds {configured : Option String} {fields : Options (Extended K)}
    (hsettings : Settings.ofFields configured fields = .ok s.settings) (hs : s.SidesOrdered)
    {uniform : Nat → Extended K → Extended K → Extended K}
    (huniform : ∀ n x y, x ≤ y →
      ∃ z, uniform n (finite x) (finite y) = finite z ∧ x ≤ z ∧ z ≤ y) :
    ∃ a b : K, s.settings.unboundedRange = (finite a, finite b) ∧ a ≤ b ∧
      (∀ grid, s.gridVector = .ok grid →
        (∀ k e, s.extents.find? k = some e → ∃ lower upper, s.lower.find? k = some lower ∧
          s.upper.find? k = some upper ∧ upper.shape = lower.shape) →
        (∀ k ∈ [Kind.initialTime, .finalTime], (s.extents.find? k).isSome ∧
          ∀ lower, s.lower.find? k = some lower → lower.size ≠ 0) →
        ∃ t, s.randomWithinBounds p uniform = .ok t) ∧
      (∀ t, s.randomWithinBounds p uniform = .ok t → s.DrawnIterate a b t) ∧
      (∀ uniform' : Nat → Extended K → Extended K → Extended K,
        (∀ n x y, x ≤ y → uniform' n (finite x) (finite y) = uniform n (finite x) (finite y)) →
          s.randomWithinBounds p uniform' = s.randomWithinBounds p uniform) ∧
      ∀ (w : Workspace (Extended K)) name fractions target,
        SameWork w (stateOf (run (.scheme name (.random fractions target)) w)) := by
  obtain ⟨a, b, hrange, hab⟩ := Settings.exists_range hsettings
  refine ⟨a, b, hrange, hab, fun grid hgrid hsides hends => exists_random hgrid hsides hends,
    fun t ht => drawnIterate_of_random hrange hab hs huniform ht, ?_, ?_⟩
  · intro uniform' h
    unfold randomWithinBounds
    rw [drawValues_congr hrange hab hs h]
  · intro w name fractions target
    exact ((Keeps.attempt _).bind fun _ => keeps_scheme.bind fun _ =>
      (Keeps.attempt _).bind fun _ => keeps_enterTrajectory) w (.refl w)

/-- A draw at a fraction of the way lies between its ends. -/
theorem drawAt_between {fractions : Array (Extended K)} (hpos : 0 < fractions.size)
    (h : ∀ i < fractions.size, ∃ f : K, fractions.getD i default = finite f ∧ 0 ≤ f ∧ f ≤ 1)
    (n : Nat) {x y : K} (hxy : x ≤ y) :
    ∃ z, Workspace.drawAt fractions n (finite x) (finite y) = finite z ∧ x ≤ z ∧ z ≤ y := by
  obtain ⟨f, hf, hzero, hone⟩ := h (n % fractions.size) (Nat.mod_lt n hpos)
  refine ⟨x + f * (y - x), ?_, ?_, ?_⟩
  · rw [Workspace.drawAt, hf, finite_sub, finite_mul, finite_add]
  · nlinarith
  · nlinarith

/-- Bounds on both sides, on either one of them and on none. -/
def mixedLower : Kind → Tensor (Extended ℚ)
  | .initialTime => .fill [1, 1] (finite 0)
  | .finalTime => .fill [1, 1] (finite 1)
  | .states => ⟨[2, 2], #[finite 0, finite 0, infinite true, infinite true], rfl⟩
  | _ => .fill [0, 2] (finite 0)

def mixedUpper : Kind → Tensor (Extended ℚ)
  | .initialTime => .fill [1, 1] (finite 0)
  | .finalTime => .fill [1, 1] (infinite false)
  | .states => ⟨[2, 2], #[finite 3, infinite false, finite 0, infinite false], rfl⟩
  | _ => .fill [0, 2] (finite 0)

/-- A scheme with these bounds on two grid points. -/
def mixedScheme (settings : Settings (Extended ℚ)) : Scheme (Extended ℚ) :=
  { start (.custom ⟨.null, .null, []⟩) settings 2 (some (.vector #[finite 0, finite 1])) with
    extents := .full fun
      | .initialTime | .finalTime => .unit
      | .states => ⟨2, 2⟩
      | _ => ⟨0, 2⟩
    lower := .full mixedLower
    upper := .full mixedUpper }

theorem draws_within_bounds_mixed : ∃ settings,
    Settings.ofFields none [("random_unbounded_range", .list [.whole (-2), .whole 2])] =
      .ok settings ∧ ∃ t values v z, t.values = Keyed.ofTable values ∧
      (mixedScheme settings).randomWithinBounds endedProblem
        (Workspace.drawAt #[finite (1 / 2), finite 1]) = .ok t ∧
      values.find? .states = some v ∧ v.get 1 = finite z ∧ 0 ≤ z ∧ z ≤ 4 := by
  have haccepted : (Settings.ofFields (α := Extended ℚ) none
      [("random_unbounded_range", .list [.whole (-2), .whole 2])]).toOption.any fun settings =>
        settings.unboundedRange = (finite (-2), finite 2) := by
    decide +kernel
  obtain ⟨settings, hsettings, hrange⟩ := (Option.any_eq_true _ _).mp haccepted
  have hsettings := eq_ok_of_toOption hsettings
  have hrange := of_decide_eq_true hrange
  have hordered : (mixedScheme settings).SidesOrdered := by
    have hcheck : ∀ k : Kind, ∀ i < (mixedLower k).size,
        Number.atMost ((mixedLower k).get i) ((mixedUpper k).get i) := by
      intro k
      cases k <;> decide +kernel
    intro k lower upper hlower hupper _
    cases (Table.find?_full mixedLower k).symm.trans hlower
    cases (Table.find?_full mixedUpper k).symm.trans hupper
    exact hcheck k
  have huniform : ∀ n (x y : ℚ), x ≤ y → ∃ z,
      Workspace.drawAt #[finite (1 / 2), finite 1] n (finite x) (finite y) = finite z ∧
        x ≤ z ∧ z ≤ y := by
    intro n x y hxy
    refine drawAt_between (by decide) (fun i hi => ?_) n hxy
    have hi : i < 2 := hi
    obtain rfl | rfl : i = 0 ∨ i = 1 := by omega
    · exact ⟨1 / 2, rfl, by norm_num, by norm_num⟩
    · exact ⟨1, rfl, by norm_num, by norm_num⟩
  obtain ⟨a, b, hab, -, hexists, hdrawn, -⟩ :=
    draws_within_bounds hsettings hordered huniform
  obtain ⟨t, ht⟩ := hexists #[finite 0, finite 1] rfl
    (fun k _ _ => ⟨mixedLower k, mixedUpper k, Table.find?_full _ k, Table.find?_full _ k, by
      cases k <;> rfl⟩)
    (by
      have hsizes : ∀ k ∈ [Kind.initialTime, .finalTime], (mixedLower k).size ≠ 0 := by decide
      intro k hk
      refine ⟨by simp [mixedScheme], fun lower hlower => ?_⟩
      cases (Table.find?_full mixedLower k).symm.trans hlower
      exact hsizes k hk)
  obtain ⟨⟨values, hvalues, hkinds, hbetween⟩, -⟩ := hdrawn t ht
  have hsome : (values.find? .states).isSome := by
    rw [hkinds]
    rfl
  obtain ⟨v, hv⟩ := Option.isSome_iff_exists.mp hsome
  obtain ⟨lower, upper, hlower, hupper, hcommon, hdraws⟩ := hbetween .states v hv
  cases (Table.find?_full mixedLower .states).symm.trans hlower
  cases (Table.find?_full mixedUpper .states).symm.trans hupper
  have hshape : v.shape = [2, 2] := (Except.ok.inj hcommon).symm
  have hsize : 1 < v.size := by
    rw [Tensor.size, v.size_data, hshape]
    decide
  obtain ⟨-, -, z, hz, hdraw⟩ := hdraws 1 hsize
  obtain ⟨hlow, hhigh⟩ := hdraw.above 0 rfl rfl
  cases hab.symm.trans hrange
  exact ⟨settings, hsettings, t, values, v, z, hvalues, ht, hv, hz, hlow, by linarith⟩

end Scheme
end Collocation
