import Collocation.Proofs.Scheme.Grid
import Collocation.Proofs.Scheme.Vectors

/-! # Iterates that a scheme suggests

  The iterate in the middle of the bounds, the one drawn between them and the solution read from a
  finite vector all live on the grid of the scheme. -/

namespace Collocation

open Extended

section Bounds

variable {α : Type} {s : Scheme α} {k : Kind} {e : Extent}

/-! ## Bounds of the size of the variables -/

theorem Scheme.exists_side (h : s.checkVariables = .ok ()) (he : s.extents.find? k = some e)
    (which : Side) : ∃ bounds, (s.side which).find? k = some bounds ∧ bounds.shape = e.toList := by
  have hkind := forM_eq_ok_iff.mp h k k.mem_all
  rw [he] at hkind
  obtain ⟨_, hlower, hupper⟩ := bind_eq_ok hkind
  have hside : s.checkBoundsShape k e which = .ok () := by
    cases which with
    | lower => exact hlower
    | upper => exact hupper
  unfold checkBoundsShape at hside
  split at hside
  · next bounds hbounds =>
    split_ifs at hside with hshape
    exact ⟨bounds, hbounds, hshape⟩
  · cases hside

theorem checkMask_self (shape : List Nat) :
    checkMask shape shape = (.ok () : Except (Fault α) Unit) := by
  have hnone : ((List.zip shape shape).findIdx? fun e => 0 < e.2 ∧ e.1 ≠ e.2) = none := by
    rw [List.findIdx?_eq_none_iff]
    rintro ⟨n, m⟩ hmem
    obtain ⟨i, hi, hget⟩ := List.getElem_of_mem hmem
    rw [List.getElem_zip] at hget
    cases hget
    simp
  unfold checkMask
  rw [if_neg (lt_irrefl _), hnone]

/-- Arrays of one shape are side by side. -/
theorem Scheme.sides_of_shape {lower upper : Tensor α} (hlower : s.lower.find? k = some lower)
    (hupper : s.upper.find? k = some upper) (hshape : upper.shape = lower.shape) :
    s.sides k = .ok (lower, upper, lower.shape) := by
  have hcommon : commonShape lower upper = (.ok lower.shape : Except (Fault α) _) := by
    unfold commonShape
    rw [hshape, stretch?_self]
    simp only [checkMask_self]
    rfl
  unfold sides Table.get
  rw [hlower, hupper]
  show (commonShape lower upper >>= fun shape => pure (lower, upper, shape)) = _
  rw [hcommon]
  rfl

/-- Bounds of the size of the variables are side by side. -/
theorem Scheme.sides_eq_ok (h : s.checkVariables = .ok ()) (he : s.extents.find? k = some e) :
    ∃ lower upper, s.sides k = .ok (lower, upper, e.toList) ∧ lower.shape = e.toList ∧
      upper.shape = e.toList := by
  obtain ⟨lower, hlower, hlowerShape⟩ := exists_side h he .lower
  obtain ⟨upper, hupper, hupperShape⟩ := exists_side h he .upper
  refine ⟨lower, upper, ?_, hlowerShape, hupperShape⟩
  rw [← hlowerShape]
  exact sides_of_shape hlower hupper (hupperShape.trans hlowerShape.symm)

end Bounds

/-! ## Masks place by place -/

section Masks

variable {α : Type} [Number α] {lower upper : Tensor α} {shape : List Nat} {place : Nat}

/-- The middle of two finite bounds, else the finite one of them, else zero. -/
def middle (low high : α) : α :=
  if Number.isFinite low then
    if Number.isFinite high then Number.half * (low + high) else low
  else if Number.isFinite high then high
  else Number.zero

/-- The finite ends between which a number with the given bounds is drawn. -/
def drawEnds (range : α × α) (low high : α) : α × α :=
  let width := range.2 - range.1
  if Number.isFinite low then
    if Number.isFinite high then (low, high) else (low, low + width)
  else if Number.isFinite high then (high - width, high)
  else range

@[simp] theorem Tensor.shape_writeWhere (t : Tensor α) (mask : Tensor Bool) (value : Nat → α) :
    (t.writeWhere mask value).shape = t.shape := by simp [Tensor.writeWhere]

theorem Tensor.get_writeWhere (t : Tensor α) (mask : Tensor Bool) (value : Nat → α)
    (h : place < volume t.shape) : (t.writeWhere mask value).get place =
      if mask.get place then value place else t.get place :=
  Tensor.get_ofFn _ _ h

theorem Tensor.get_map {β : Type} [Inhabited β] {t : Tensor α} (f : α → β)
    (h : place < volume t.shape) : (t.map f).get place = f (t.get place) := by
  rw [← t.size_data] at h
  simp [Tensor.get, Tensor.map, h]

/-- Each place is chosen by the one mask that says which of its bounds are finite. -/
theorem get_finiteMasks (hlower : lower.shape = shape) (hupper : upper.shape = shape)
    (h : place < volume shape) :
    (finiteMasks shape lower upper).both.get place =
        (Number.isFinite (lower.get place) && Number.isFinite (upper.get place)) ∧
      (finiteMasks shape lower upper).onlyLower.get place =
        (Number.isFinite (lower.get place) && !Number.isFinite (upper.get place)) ∧
      (finiteMasks shape lower upper).onlyUpper.get place =
        (Number.isFinite (upper.get place) && !Number.isFinite (lower.get place)) ∧
      (finiteMasks shape lower upper).neither.get place =
        (!Number.isFinite (lower.get place) && !Number.isFinite (upper.get place)) := by
  have hlow := lower.get_map Number.isFinite (hlower ▸ h)
  have hhigh := upper.get_map Number.isFinite (hupper ▸ h)
  unfold finiteMasks
  simp only [Tensor.get_ofFn _ _ h, hlow, hhigh, and_self]

/-- What the masked writes of a guess come to at each place. -/
theorem get_middleValues (hlower : lower.shape = shape) (hupper : upper.shape = shape)
    (h : place < volume shape) :
    (middleValues shape lower upper).get place = middle (lower.get place) (upper.get place) := by
  obtain ⟨hboth, hlow, hhigh, -⟩ := get_finiteMasks hlower hupper h
  subst hlower
  unfold middleValues Tensor.fill
  rw [Tensor.get_writeWhere, Tensor.get_writeWhere, Tensor.get_writeWhere, Tensor.get_ofFn, hboth,
    hlow, hhigh, middle]
  · cases Number.isFinite (lower.get place) <;> cases Number.isFinite (upper.get place) <;> rfl
  all_goals exact h

/-- What the masked writes of a draw come to at each place. -/
theorem get_drawSides (range : α × α) (hlower : lower.shape = shape) (hupper : upper.shape = shape)
    (h : place < volume shape) :
    ((drawSides range shape lower upper).1.get place,
      (drawSides range shape lower upper).2.get place) =
        drawEnds range (lower.get place) (upper.get place) := by
  obtain ⟨-, hlow, hhigh, hneither⟩ := get_finiteMasks hlower hupper h
  have hl : place < volume lower.shape := hlower ▸ h
  have hu : place < volume upper.shape := hupper ▸ h
  unfold drawSides
  simp only [Tensor.get_writeWhere, Tensor.shape_writeWhere, hl, hu, hlow, hhigh, hneither,
    drawEnds]
  cases Number.isFinite (lower.get place) <;> cases Number.isFinite (upper.get place) <;> rfl

end Masks

/-! ## Draws of all kinds -/

namespace Scheme

variable {α : Type} [Number α] {s : Scheme α} {uniform : Nat → α → α → α} {kinds : List Kind}
  {entries : List (Kind × Tensor α)} {drawn : Nat}

/-- What is drawn for a kind, the first element with a given number. -/
def drawnValue (s : Scheme α) (uniform : Nat → α → α → α) (drawn : Nat) (lower upper : Tensor α)
    (shape : List Nat) : Tensor α :=
  let (low, high) := drawSides s.settings.unboundedRange shape lower upper
  .ofFn shape fun place =>
    uniform (drawn + rank shape place) (low.get place) (high.get place)

theorem get_drawnValue {lower upper : Tensor α} {shape : List Nat} (hlower : lower.shape = shape)
    (hupper : upper.shape = shape) {place : Nat} (h : place < volume shape) {low high : α}
    (hends : drawEnds s.settings.unboundedRange (lower.get place) (upper.get place) = (low, high)) :
    (s.drawnValue uniform drawn lower upper shape).get place =
      uniform (drawn + rank shape place) low high := by
  obtain ⟨hlow, hhigh⟩ :=
    Prod.mk.inj ((get_drawSides s.settings.unboundedRange hlower hupper h).trans hends)
  unfold drawnValue
  rw [Tensor.get_ofFn _ _ h, hlow, hhigh]

theorem drawValues_cons {k : Kind} {lower upper : Tensor α} {shape : List Nat}
    (hsides : s.sides k = .ok (lower, upper, shape)) :
    s.drawValues uniform drawn (k :: kinds) =
      (do
        let value := s.drawnValue uniform drawn lower upper shape
        return (k, value) :: (← s.drawValues uniform (drawn + value.size) kinds)) := by
  rw [drawValues, hsides]
  rfl

/-- Every kind is drawn whose bounds are side by side. -/
theorem exists_drawValues (h : ∀ k ∈ kinds, ∃ r, s.sides k = .ok r) (drawn : Nat) :
    ∃ entries, s.drawValues uniform drawn kinds = .ok entries := by
  induction kinds generalizing drawn with
  | nil => exact ⟨[], rfl⟩
  | cons k kinds ih =>
    obtain ⟨⟨lower, upper, shape⟩, hsides⟩ := h k List.mem_cons_self
    let value := s.drawnValue uniform drawn lower upper shape
    obtain ⟨entries, hentries⟩ :=
      ih (fun k' hk' => h k' (List.mem_cons_of_mem k hk')) (drawn + value.size)
    refine ⟨(k, value) :: entries, ?_⟩
    rw [drawValues_cons hsides]
    show (s.drawValues uniform (drawn + value.size) kinds >>= _) = _
    rw [hentries]
    rfl

/-- The kinds that are drawn, and the value of each. -/
theorem drawValues_eq_ok (h : s.drawValues uniform drawn kinds = .ok entries) :
    entries.map (·.1) = kinds ∧ ∀ k v, (k, v) ∈ entries → ∃ lower upper n,
      s.sides k = .ok (lower, upper, v.shape) ∧ v = s.drawnValue uniform n lower upper v.shape := by
  induction kinds generalizing drawn entries with
  | nil =>
    cases h
    exact ⟨rfl, by simp⟩
  | cons k kinds ih =>
    cases hsides : s.sides k with
    | error fault =>
      rw [drawValues, hsides] at h
      cases h
    | ok r =>
      obtain ⟨lower, upper, shape⟩ := r
      rw [drawValues_cons hsides] at h
      obtain ⟨rest, hrest, h⟩ := bind_eq_ok h
      cases h
      obtain ⟨hfirsts, hvalues⟩ := ih hrest
      refine ⟨congrArg (k :: ·) hfirsts, ?_⟩
      intro k' v hmem
      rcases List.mem_cons.mp hmem with hfirst | hmem
      · cases hfirst
        exact ⟨lower, upper, drawn, hsides, rfl⟩
      · exact hvalues k' v hmem

/-- Where the bounds of all kinds are side by side, the iterate is that of the values drawn. -/
theorem exists_randomTable (uniform : Nat → α → α → α)
    (h : ∀ k e, s.extents.find? k = some e → ∃ r, s.sides k = .ok r) (p : Problem α) :
    ∃ values, s.randomWithinBounds p uniform = s.iterateOf p values ∧
      (∀ k, (values.find? k).isSome = (s.extents.find? k).isSome) ∧
      ∀ k v, values.find? k = some v → ∃ lower upper n,
        s.sides k = .ok (lower, upper, v.shape) ∧
          v = s.drawnValue uniform n lower upper v.shape := by
  have hkinds : ∀ k, k ∈ s.extents.toList.map (·.1) ↔ (s.extents.find? k).isSome := by
    intro k
    rw [List.mem_map, Option.isSome_iff_exists]
    constructor
    · rintro ⟨⟨k', e⟩, hmem, rfl⟩
      exact ⟨e, Table.mem_toList.mp hmem⟩
    · rintro ⟨e, he⟩
      exact ⟨(k, e), Table.mem_toList.mpr he, rfl⟩
  have hsides : ∀ k ∈ s.extents.toList.map (·.1), ∃ r, s.sides k = .ok r := by
    intro k hk
    obtain ⟨e, he⟩ := Option.isSome_iff_exists.mp ((hkinds k).mp hk)
    exact h k e he
  obtain ⟨entries, hentries⟩ := exists_drawValues hsides 0
  obtain ⟨hfirsts, hvalues⟩ := drawValues_eq_ok hentries
  have hne : entries.Pairwise fun e e' => e.1 ≠ e'.1 := by
    have hpairwise : (entries.map (·.1)).Pairwise (· ≠ ·) := by
      rw [hfirsts]
      exact List.pairwise_map.mpr s.extents.pairwise_toList
    exact List.pairwise_map.mp hpairwise
  refine ⟨.ofList entries, ?_, fun k => ?_,
    fun k v hv => hvalues k v ((Table.find?_ofList hne).mp hv)⟩
  · unfold randomWithinBounds
    rw [hentries]
    rfl
  · -- a kind is drawn exactly if it has a size
    rw [Bool.eq_iff_iff, ← hkinds, ← hfirsts, List.mem_map, Option.isSome_iff_exists]
    constructor
    · rintro ⟨v, hv⟩
      exact ⟨(k, v), (Table.find?_ofList hne).mp hv, rfl⟩
    · rintro ⟨⟨k', v⟩, hmem, rfl⟩
      exact ⟨v, (Table.find?_ofList hne).mpr hmem⟩

/-! ## Iterates of tables -/

variable {p : Problem α} {values : Table (Tensor α)} {t : Trajectory α}

/-- There are times where the grid is set and both end times have an element. -/
theorem timesOf_eq_ok {grid : Array α} (hgrid : s.gridVector = .ok grid) {initial final : Tensor α}
    (hinitial : values.find? .initialTime = some initial) (hinitialSize : initial.size ≠ 0)
    (hfinal : values.find? .finalTime = some final) (hfinalSize : final.size ≠ 0) :
    s.timesOf values = .ok (timesBetween grid (initial.get 0) (final.get 0)) := by
  unfold timesOf Table.get
  rw [hinitial, hfinal, hgrid]
  simp [firstElement, hinitialSize, hfinalSize, bind, Except.bind, pure, Except.pure]

/-- An iterate has the values of the table, and the times of the grid between its own end times. -/
theorem times_of_iterateOf (h : s.iterateOf p values = .ok t) : t.values = Keyed.ofTable values ∧
    ∃ initial final, t.first .initialTime = .ok initial ∧ t.first .finalTime = .ok final ∧
      s.createTimes initial final = .ok t.times.written := by
  have hfirst : ∀ {k : Kind} {v : Tensor α} {x : α} {times},
      values.get k = (.ok v : Except (Fault α) _) → firstElement v = .ok x →
        (Trajectory.iterate (Keyed.ofTable values) times p.names).first k = .ok x := by
    intro k v x times hv hx
    unfold firstElement at hx
    split_ifs at hx with hsize
    cases hx
    exact Trajectory.first_eq_ok (Keyed.distinct_ofTable values) (Keyed.toTable_ofTable values)
      (Table.find?_of_get hv) hsize
  unfold iterateOf at h
  obtain ⟨times, htimes, h⟩ := bind_eq_ok h
  cases h
  unfold timesOf at htimes
  obtain ⟨initial, hinitial, htimes⟩ := bind_eq_ok htimes
  obtain ⟨final, hfinal, htimes⟩ := bind_eq_ok htimes
  obtain ⟨grid, hgrid, htimes⟩ := bind_eq_ok htimes
  obtain ⟨t₀, ht₀, htimes⟩ := bind_eq_ok htimes
  obtain ⟨t₁, ht₁, htimes⟩ := bind_eq_ok htimes
  cases htimes
  refine ⟨rfl, t₀, t₁, hfirst hinitial ht₀, hfirst hfinal ht₁, ?_⟩
  unfold createTimes
  rw [hgrid, Trajectory.iterate, Tensor.written_vector]
  rfl

/-- The values in the middle of bounds of the sizes of the variables. -/
theorem exists_guessTable (hbounds : s.checkVariables = .ok ()) (p : Problem α) :
    ∃ values, s.guessFromBounds p = s.iterateOf p values ∧ Layout.Fits s.extents values ∧
      ∀ k v, values.find? k = some v → ∃ lower upper, s.lower.find? k = some lower ∧
        s.upper.find? k = some upper ∧ lower.shape = v.shape ∧ upper.shape = v.shape ∧
        ∀ i < v.size, v.get i = middle (lower.get i) (upper.get i) := by
  have hside : ∀ k, ∃ lower upper : Tensor α, ∀ e, s.extents.find? k = some e →
      s.lower.find? k = some lower ∧ s.upper.find? k = some upper ∧ lower.shape = e.toList ∧
        upper.shape = e.toList := by
    intro k
    cases he : s.extents.find? k with
    | none => exact ⟨.vector #[], .vector #[], fun e h => by cases h⟩
    | some e =>
      obtain ⟨lower, hlower, hlowerShape⟩ := exists_side hbounds he .lower
      obtain ⟨upper, hupper, hupperShape⟩ := exists_side hbounds he .upper
      refine ⟨lower, upper, fun e' h => ?_⟩
      cases h
      exact ⟨hlower, hupper, hlowerShape, hupperShape⟩
  choose lower upper hside using hside
  refine ⟨s.extents.map fun k e => middleValues e.toList (lower k) (upper k), ?_,
    Layout.fits_map fun k e he => (hside k e he).2.2.1, ?_⟩
  · unfold guessFromBounds
    rw [Table.mapExcept_of_ok]
    · rfl
    · intro k e he
      obtain ⟨hlower, hupper, hlowerShape, hupperShape⟩ := hside k e he
      rw [sides_of_shape hlower hupper (hupperShape.trans hlowerShape.symm), hlowerShape]
      rfl
  · intro k v hv
    rw [Table.find?_map, Option.map_eq_some_iff] at hv
    obtain ⟨e, he, rfl⟩ := hv
    obtain ⟨hlower, hupper, hlowerShape, hupperShape⟩ := hside k e he
    have hshape : (middleValues e.toList (lower k) (upper k)).shape = e.toList := hlowerShape
    refine ⟨lower k, upper k, hlower, hupper, hlowerShape.trans hshape.symm,
      hupperShape.trans hshape.symm, fun i hi => get_middleValues hlowerShape hupperShape ?_⟩
    rwa [Tensor.size, Tensor.size_data, hshape] at hi

end Scheme

/-! ## Finite numbers between bounds -/

variable {K : Type} [Field K] [LinearOrder K] [FloorRing K] [Interpretation K]

theorem isFinite_iff {a : Extended K} : Number.isFinite a = true ↔ ∃ x, a = finite x := by
  cases a with
  | finite x => exact ⟨fun _ => ⟨x, rfl⟩, fun _ => rfl⟩
  | infinite negative =>
    -- each infinity is above or below all finite numbers
    have hfalse : Number.isFinite (infinite negative : Extended K) = false := by
      cases negative <;> rfl
    simp [hfalse]
  | undefined =>
    have hfalse : Number.isFinite (undefined : Extended K) = false := rfl
    simp [hfalse]

/-- What is not finite is no finite number. -/
theorem ne_finite {a : Extended K} (h : ¬Number.isFinite a = true) (x : K) : a ≠ finite x :=
  fun hx => h (isFinite_iff.mpr ⟨x, hx⟩)

theorem exists_middle (low high : Extended K) : ∃ x, middle low high = finite x := by
  unfold middle
  split_ifs with hlow hhigh hhigh
  · obtain ⟨x, rfl⟩ := isFinite_iff.mp hlow
    obtain ⟨y, rfl⟩ := isFinite_iff.mp hhigh
    exact ⟨_, by rw [half_eq, finite_add, finite_mul]⟩
  · exact isFinite_iff.mp hlow
  · exact isFinite_iff.mp hhigh
  · exact ⟨0, zero_eq⟩

/-- Numbers are drawn between finite ends if the range for unbounded ones is finite. -/
theorem exists_drawEnds {range : Extended K × Extended K} {a b : K}
    (hrange : range = (finite a, finite b)) (low high : Extended K) :
    ∃ x y, drawEnds range low high = (finite x, finite y) := by
  subst hrange
  unfold drawEnds
  split_ifs with hlow hhigh hhigh
  · obtain ⟨x, rfl⟩ := isFinite_iff.mp hlow
    obtain ⟨y, rfl⟩ := isFinite_iff.mp hhigh
    exact ⟨x, y, rfl⟩
  · obtain ⟨x, rfl⟩ := isFinite_iff.mp hlow
    exact ⟨x, x + (b - a), by simp only [finite_sub, finite_add]⟩
  · obtain ⟨y, rfl⟩ := isFinite_iff.mp hhigh
    exact ⟨y - (b - a), y, by simp only [finite_sub]⟩
  · exact ⟨a, b, rfl⟩

/-! ## Iterates -/

namespace Scheme.OnGrid

variable {p : Problem (Extended K)} {s : Scheme (Extended K)}
  {grid : Array (Extended K)} {q : Nat → K} {values : Table (Tensor (Extended K))}

/-- Finite values of the sizes of the variables, with the times between their own end times, live
    on the grid. -/
theorem exists_times (hs : s.OnGrid grid q) (hfits : Layout.Fits s.extents values)
    (hfinite : ∀ k v, values.find? k = some v →
      ∀ place < v.data.size, ∃ x, v.get place = finite x) :
    ∃ times, s.timesOf values = .ok times ∧
      ∀ t : Trajectory (Extended K), t.values = Keyed.ofTable values → t.times.written = times →
        t.LivesOn s := by
  have hend : ∀ k, s.extents.find? k = some .unit → ∃ v x, values.find? k = some v ∧
      v.data.size = 1 ∧ v.get 0 = finite x := by
    intro k hk
    obtain ⟨v, hv, -, hsize⟩ := hfits.exists_find? hk
    rw [Extent.size_unit] at hsize
    obtain ⟨x, hx⟩ := hfinite k v hv 0 (by omega)
    exact ⟨v, x, hv, hsize, hx⟩
  obtain ⟨v₀, t₀, hv₀, hsize₀, ht₀⟩ := hend .initialTime hs.extent_time.1
  obtain ⟨v₁, t₁, hv₁, hsize₁, ht₁⟩ := hend .finalTime hs.extent_time.2
  refine ⟨timesBetween grid (finite t₀) (finite t₁), ?_, ?_⟩
  · rw [timesOf_eq_ok hs.gridVector hv₀ (by rw [Tensor.size]; omega) hv₁
      (by rw [Tensor.size]; omega), ht₀, ht₁]
  · intro t ht htimes
    have hdistinct : t.values.Distinct := ht ▸ Keyed.distinct_ofTable values
    have htable : t.values.toTable = .ok values := ht ▸ Keyed.toTable_ofTable values
    refine ⟨hdistinct, ⟨values, htable, hfits⟩, t₀, t₁, ?_, ?_, ?_⟩
    · rw [Trajectory.first_eq_ok hdistinct htable hv₀ (by omega), ht₀]
    · rw [Trajectory.first_eq_ok hdistinct htable hv₁ (by omega), ht₁]
    · rw [hs.createTimes, htimes]

theorem exists_iterateOf (hs : s.OnGrid grid q) (hfits : Layout.Fits s.extents values)
    (hfinite : ∀ k v, values.find? k = some v → ∀ place < v.data.size, ∃ x, v.get place = finite x)
    (p : Problem (Extended K)) : ∃ t, s.iterateOf p values = .ok t ∧ t.LivesOn s := by
  obtain ⟨times, htimes, hlives⟩ := hs.exists_times hfits hfinite
  refine ⟨.iterate (Keyed.ofTable values) (.vector times) p.names, ?_,
    hlives _ rfl (Tensor.written_vector times)⟩
  unfold iterateOf
  rw [htimes]
  rfl

/-- The values in the middle of the bounds are finite and have the sizes of the variables. -/
theorem exists_guessValues (hbounds : s.checkVariables = .ok ()) (p : Problem (Extended K)) :
    ∃ values, s.guessFromBounds p = s.iterateOf p values ∧ Layout.Fits s.extents values ∧
      ∀ k v, values.find? k = some v → ∀ place < v.data.size, ∃ x, v.get place = finite x := by
  obtain ⟨values, hguess, hfits, hmiddle⟩ := exists_guessTable hbounds p
  refine ⟨values, hguess, hfits, fun k v hv place hplace => ?_⟩
  obtain ⟨lower, upper, -, -, -, -, hget⟩ := hmiddle k v hv
  rw [hget place hplace]
  exact exists_middle _ _

/-- The iterate in the middle of the bounds lives on the grid. -/
theorem exists_guessFromBounds (hs : s.OnGrid grid q) (hbounds : s.checkVariables = .ok ())
    (p : Problem (Extended K)) : ∃ t, s.guessFromBounds p = .ok t ∧ t.LivesOn s := by
  obtain ⟨values, hguess, hfits, hfinite⟩ := exists_guessValues hbounds p
  rw [hguess]
  exact hs.exists_iterateOf hfits hfinite p

section Draw

variable {uniform : Nat → Extended K → Extended K → Extended K} {a b : K}
  (huniform : ∀ n x y, ∃ z, uniform n (finite x) (finite y) = finite z)
  (hrange : s.settings.unboundedRange = (finite a, finite b))

include huniform hrange

/-- The values drawn between the bounds are finite and have the sizes of the variables. -/
theorem exists_randomValues (hbounds : s.checkVariables = .ok ()) (p : Problem (Extended K)) :
    ∃ values, s.randomWithinBounds p uniform = s.iterateOf p values ∧
      Layout.Fits s.extents values ∧
      ∀ k v, values.find? k = some v → ∀ place < v.data.size, ∃ x, v.get place = finite x := by
  have hsides : ∀ k e, s.extents.find? k = some e → ∃ r, s.sides k = .ok r := by
    intro k e he
    obtain ⟨lower, upper, hsides, -, -⟩ := sides_eq_ok hbounds he
    exact ⟨_, hsides⟩
  obtain ⟨values, hdraw, hkinds, hdrawn⟩ := exists_randomTable uniform hsides p
  -- a kind that is drawn has a size, and its bounds have this size too
  have hvalue : ∀ k v, values.find? k = some v → ∃ e lower upper n,
      s.extents.find? k = some e ∧ v.shape = e.toList ∧ lower.shape = v.shape ∧
        upper.shape = v.shape ∧ v = s.drawnValue uniform n lower upper v.shape := by
    intro k v hv
    obtain ⟨e, he⟩ : ∃ e, s.extents.find? k = some e := by
      rw [← Option.isSome_iff_exists, ← hkinds, hv]
      rfl
    obtain ⟨lower, upper, n, hdrawnSides, hdrawnAs⟩ := hdrawn k v hv
    obtain ⟨lower', upper', hsides, hlower, hupper⟩ := sides_eq_ok hbounds he
    obtain ⟨rfl, rfl, hshape⟩ : lower' = lower ∧ upper' = upper ∧ e.toList = v.shape := by
      simpa using hsides.symm.trans hdrawnSides
    rw [hshape] at hlower hupper
    exact ⟨e, _, _, n, he, hshape.symm, hlower, hupper, hdrawnAs⟩
  refine ⟨values, hdraw, fun k => ?_, fun k v hv place hplace => ?_⟩
  · cases hv : values.find? k with
    | none =>
      have hkind := hkinds k
      rw [hv, Option.isSome_none, eq_comm, Option.isSome_eq_false_iff, Option.isNone_iff_eq_none]
        at hkind
      rw [hkind]
      rfl
    | some v =>
      obtain ⟨e, -, -, -, he, hshape, -⟩ := hvalue k v hv
      rw [he, Option.map_some, Option.map_some, hshape]
  · obtain ⟨e, lower, upper, n, -, -, hlower, hupper, hdrawnAs⟩ := hvalue k v hv
    obtain ⟨x, y, hends⟩ := exists_drawEnds hrange (lower.get place) (upper.get place)
    obtain ⟨z, hz⟩ := huniform (n + rank v.shape place) x y
    refine ⟨z, ?_⟩
    rw [hdrawnAs, get_drawnValue hlower hupper (by rwa [← v.size_data]) hends]
    exact hz

/-- An iterate drawn between the bounds lives on the grid. -/
theorem exists_randomWithinBounds (hs : s.OnGrid grid q) (hbounds : s.checkVariables = .ok ())
    (p : Problem (Extended K)) : ∃ t, s.randomWithinBounds p uniform = .ok t ∧ t.LivesOn s := by
  obtain ⟨values, hdraw, hfits, hfinite⟩ := exists_randomValues huniform hrange hbounds p
  rw [hdraw]
  exact hs.exists_iterateOf hfits hfinite p

end Draw

/-! ## Solutions -/

/-- The solution in a finite vector lives on the grid, and is this vector. -/
theorem exists_solutionOf (hs : s.OnGrid grid q) (p : Problem (Extended K)) {x : Array K}
    (hx : x.size = Layout.length s.extents) (stats : Options (Extended K)) :
    ∃ t, s.solutionOf p ⟨x.map finite, stats⟩ = .ok t ∧ t.LivesOn s ∧
      t.flatten = .ok (x.map finite) := by
  have hlength : (x.map finite).size = Layout.length s.extents := by rw [Array.size_map, hx]
  have hfinite : ∀ k v, ((Layout.cut s.extents (x.map finite)).map fun _ m => m.toTensor).find? k =
      some v → ∀ place < v.data.size, ∃ y, v.get place = finite y := by
    intro k v hv place _
    rw [Table.find?_map, Option.map_eq_some_iff] at hv
    obtain ⟨m, hm, rfl⟩ := hv
    obtain ⟨y, hy⟩ := finite_valuesOf s x k place
    rw [valuesOf, Table.values, hm] at hy
    exact ⟨y, hy⟩
  obtain ⟨times, htimes, hlives⟩ := hs.exists_times (Layout.fits_cut _ _) hfinite
  refine ⟨⟨.solution stats, Keyed.ofTable ((Layout.cut s.extents (x.map finite)).map
      fun _ m => m.toTensor), .vector (Tensor.vector times).written, p.names⟩, ?_, ?_, ?_⟩
  · unfold solutionOf
    rw [expand_eq hlength]
    show (s.timesOf ((Layout.cut s.extents (x.map finite)).map fun _ m => m.toTensor) >>= _) = _
    rw [htimes]
    show (Keyed.toTable _ >>= _) = _
    rw [Keyed.toTable_ofTable]
    rfl
  · exact hlives _ rfl (by rw [Tensor.written_vector, Tensor.written_vector])
  · rw [Trajectory.flatten_eq_ok (Keyed.toTable_ofTable _), Layout.flatten_cut hlength]

end Scheme.OnGrid
end Collocation
