import Collocation.Proofs.Scheme.BoundTables

/-! # Bounds element by element

  The bounds of a problem reach the tables of a scheme in many writes that overlap: a whole row,
  then its first element, then its last one. Of the writes that cover an element the last one
  decides. So on any number of grid points, one included, an element has the final bounds of its
  component if they are set and it is in the last column, else the initial ones if they are set and
  it is in the first column, else those along the way. -/

namespace Collocation

variable {α : Type}

/-! ## Declared bounds -/

/-- The bounds of a component in one of so many columns. In an only column those at the final end
    come before those at the initial one. -/
def Component.boundsOn (c : Component α) (cols j : Nat) : Bounds α :=
  if c.final.isSet ∧ j + 1 = cols then c.final
  else if c.initial.isSet ∧ j = 0 then c.initial
  else c.bounds

namespace Problem

/-- The bounds that a problem declares for an element of a kind on so many grid points. -/
def elementBounds (p : Problem α) (gridPoints : Nat) : Kind → Nat → Nat → Bounds α
  | .initialTime, _, _ => p.initialTime
  | .finalTime, _, _ => p.finalTime
  | .states, i, j => (p.states[i]?.map (·.boundsOn gridPoints j)).getD .unset
  | .controls, i, j => (p.controls[i]?.map (·.boundsOn gridPoints j)).getD .unset
  | .multipliers, i, j => (p.multipliers[i]?.map (·.boundsOn gridPoints j)).getD .unset
  | .derivatives, _, _ => p.derivativeBounds
  | .slacks, _, _ => .unset
  | .parameters, i, _ => (p.parameters[i]?.map (·.bounds)).getD .unset

/-- No kind has more components than an index can count. -/
def Indexable (p : Problem α) : Prop :=
  ∀ kind, (p.components kind).length ≤ 0x8000000000000000

end Problem

variable [Number α]

/-! ## Covered elements -/

namespace Selector

variable {size row i : Nat}

theorem picks_of_select {sel : Selector α} {positions : List Nat}
    (h : sel.select size = .ok ⟨positions, true⟩) : sel.picks size i ↔ i ∈ positions := by
  simp [picks, h]

theorem picks_index (hrow : row < size) (hindex : row < 0x8000000000000000) :
    (index row : Selector α).picks size i ↔ i = row := by
  have hselect := select_index (wrapIndex_natCast (α := α) hindex) (resolveIndex_natCast hrow)
  rw [picks_of_select hselect, List.mem_singleton]

theorem picks_first (hi : i < size) : (index 0 : Selector α).picks size i ↔ i = 0 := by
  have hsize : 0 < size := by omega
  exact picks_index hsize (Nat.two_pow_pos 63)

theorem picks_last (hi : i < size) : (index (-1) : Selector α).picks size i ↔ i + 1 = size := by
  rw [picks_of_select (select_index rfl (resolveIndex_last (by omega))), List.mem_singleton]
  omega

theorem picks_all (hi : i < size) : (all : Selector α).picks size i := by
  have hselect : (all : Selector α).select size =
      .ok ⟨slicePositions size none none 1, true⟩ := rfl
  rw [picks_of_select hselect]
  simpa [slicePositions, sliceEnds, sliceCount] using hi

end Selector

namespace Scheme

/-- Bounds for every element of every kind. -/
abbrev ElementView (α : Type) := Kind → Nat → Nat → Bounds α

variable {s s' : Scheme α} {p : Problem α} {Γ : Kind → Extent} {view : ElementView α}
  {k kind : Kind} {i j : Nat}

/-- The bounds after a write: its own at the elements that it covers. -/
def BoundWrite.over (Γ : Kind → Extent) (view : ElementView α) (w : BoundWrite α) :
    ElementView α := fun k i j =>
  if k = w.kind ∧ w.rows.picks (Γ k).rows i ∧ w.cols.picks (Γ k).cols j then w.bounds
  else view k i j

/-- The tables of both sides have the sizes of the variables and at every element the bounds of a
    view. -/
def HasBounds (s : Scheme α) (Γ : Kind → Extent) (view : ElementView α) : Prop :=
  ∀ which k, ∃ t, (s.side which).find? k = some t ∧ t.shape = (Γ k).toList ∧
    ∀ i < (Γ k).rows, ∀ j < (Γ k).cols,
      t.get (i + (Γ k).rows * j) = which.of (view k i j).toPair

/-! ## Writes -/

theorem HasBounds.write {w : BoundWrite α} (hs : s.HasBounds Γ view)
    (h : writeBounds (.kind w.kind) w.rows w.cols w.bounds s = .ok () s') :
    s'.HasBounds Γ (w.over Γ view) := by
  choose t ht hshape hget using fun which => hs which w.kind
  obtain ⟨picked, chosen, hpicked, hchosen, -, hside⟩ := writeBounds_eq_ok ht (hshape .lower) h
  intro which k
  rw [(hside which).2]
  by_cases hk : k = w.kind
  · subst hk
    refine ⟨_, Table.find?_insert_self _ _ _, hshape which, ?_⟩
    intro i hi j hj
    rw [Tensor.get_assignBlock (hshape which) _ _ _ hi hj, hget which i hi j hj]
    by_cases hin : i ∈ picked.positions ∧ j ∈ chosen.positions
    · simp [BoundWrite.over, Selector.picks, hpicked, hchosen, hin]
    · simp [BoundWrite.over, Selector.picks, hpicked, hchosen, hin]
  · obtain ⟨u, hu, hushape, huget⟩ := hs which k
    refine ⟨u, (Table.find?_insert_ne _ _ hk).trans hu, hushape, ?_⟩
    intro i hi j hj
    rw [huget i hi j hj, BoundWrite.over, if_neg fun hover => hk hover.1]

theorem HasBounds.run {ws : List (BoundWrite α)} (hs : s.HasBounds Γ view)
    (h : (ws.forM fun w => writeBounds (.kind w.kind) w.rows w.cols w.bounds) s = .ok () s') :
    s'.HasBounds Γ (ws.foldl (BoundWrite.over Γ) view) := by
  induction ws generalizing s view with
  | nil =>
    cases h
    exact hs
  | cons w ws ih =>
    obtain ⟨_, s₁, hw, h⟩ := run_bind_eq_ok h
    exact ih (hs.write hw) h

/-- The writes for a component decide on the elements of its row and on no others. -/
theorem foldl_componentWrites_over {row : Nat} (hrow : row < (Γ kind).rows)
    (hindex : row < 0x8000000000000000) (c : Component α) (hj : j < (Γ k).cols) :
    (componentWrites kind row c).foldl (BoundWrite.over Γ) view k i j =
      if k = kind ∧ i = row then c.boundsOn (Γ kind).cols j else view k i j := by
  by_cases hk : k = kind
  · subst hk
    by_cases hi : i = row
    · subst hi
      have hpicks := (Selector.picks_index (α := α) (i := i) hrow hindex).mpr rfl
      have hall := Selector.picks_all (α := α) hj
      have hfirst := Selector.picks_first (α := α) hj
      have hlast := Selector.picks_last (α := α) hj
      by_cases hinitial : c.initial.isSet <;> by_cases hfinal : c.final.isSet <;>
        simp [componentWrites, BoundWrite.over, Component.boundsOn, hpicks, hall, hfirst, hlast,
          hinitial, hfinal]
    · have hpicks := (Selector.picks_index (α := α) (i := i) hrow hindex).not.mpr hi
      unfold componentWrites
      split_ifs <;> simp_all [BoundWrite.over]
  · unfold componentWrites
    split_ifs <;> simp_all [BoundWrite.over]

/-- Writes that go row by row, each deciding on the elements of its row only. -/
theorem foldl_rows {writes : Component α → Nat → List (BoundWrite α)}
    {bounds : Component α → Bounds α} {cs : List (Component α)} {n : Nat}
    (hwrites : ∀ (view : ElementView α) c row, row < n + cs.length →
      (writes c row).foldl (BoundWrite.over Γ) view k i j =
        if k = kind ∧ i = row then bounds c else view k i j) :
    ((cs.zipIdx n).flatMap fun (c, row) => writes c row).foldl (BoundWrite.over Γ) view k i j =
      if k = kind ∧ n ≤ i then (cs[i - n]?.map bounds).getD (view k i j) else view k i j := by
  induction cs generalizing n view with
  | nil => simp
  | cons c cs ih =>
    have hlater : ∀ (view : ElementView α) c row, row < n + 1 + cs.length →
        (writes c row).foldl (BoundWrite.over Γ) view k i j =
          if k = kind ∧ i = row then bounds c else view k i j := by
      intro view c row hrow
      exact hwrites view c row (by simpa [Nat.add_right_comm, Nat.add_assoc] using hrow)
    rw [List.zipIdx_cons, List.flatMap_cons, List.foldl_append, ih hlater,
      hwrites view c n (by simp)]
    by_cases hk : k = kind
    · rcases Nat.lt_trichotomy i n with hlt | rfl | hgt
      · rw [if_neg (by omega), if_neg (by omega), if_neg (by omega)]
      · simp [hk]
      · have hsplit : i - n = i - (n + 1) + 1 := by omega
        rw [if_pos ⟨hk, by omega⟩, if_neg (by omega), if_pos ⟨hk, by omega⟩, hsplit,
          List.getElem?_cons_succ]
    · simp [hk]

theorem foldl_kindWrites_over {cs : List (Component α)} {cols : Nat}
    (hextent : Γ kind = ⟨cs.length, cols⟩) (hcount : cs.length ≤ 0x8000000000000000)
    (hj : j < (Γ k).cols) :
    (kindWrites kind cs).foldl (BoundWrite.over Γ) view k i j =
      if k = kind then (cs[i]?.map (·.boundsOn cols j)).getD (view k i j) else view k i j := by
  have hwrites : ∀ (view : ElementView α) c row, row < 0 + cs.length →
      (componentWrites kind row c).foldl (BoundWrite.over Γ) view k i j =
        if k = kind ∧ i = row then c.boundsOn cols j else view k i j := by
    intro view c row hrow
    have hin : row < (Γ kind).rows := by
      rw [hextent]
      simpa using hrow
    rw [foldl_componentWrites_over hin (by omega) c hj, hextent]
  simpa [kindWrites] using foldl_rows hwrites

theorem foldl_parameterWrites_over {cs : List (Component α)}
    (hextent : Γ .parameters = ⟨cs.length, 1⟩) (hcount : cs.length ≤ 0x8000000000000000)
    (hj : j < (Γ k).cols) :
    (cs.zipIdx.map fun (c, row) =>
        (⟨.parameters, .index row, .index 0, c.bounds⟩ : BoundWrite α)).foldl
      (BoundWrite.over Γ) view k i j =
      if k = .parameters then (cs[i]?.map (·.bounds)).getD (view k i j) else view k i j := by
  have hwrites : ∀ (view : ElementView α) (c : Component α) row, row < 0 + cs.length →
      [(⟨.parameters, .index row, .index 0, c.bounds⟩ : BoundWrite α)].foldl
        (BoundWrite.over Γ) view k i j =
        if k = .parameters ∧ i = row then c.bounds else view k i j := by
    intro view c row hrow
    have hin : row < (Γ .parameters).rows := by
      rw [hextent]
      simpa using hrow
    have hpicks := Selector.picks_index (α := α) (i := i) hin (by omega)
    by_cases hk : k = .parameters
    · subst hk
      have hcol : j = 0 := by
        rw [hextent] at hj
        exact Nat.lt_one_iff.mp hj
      have hfirst := (Selector.picks_first (α := α) hj).mpr hcol
      simp [BoundWrite.over, hpicks, hfirst]
    · simp [BoundWrite.over, hk]
  have hentries := List.map_eq_flatMap (f := fun (c, row) =>
    (⟨.parameters, .index row, .index 0, c.bounds⟩ : BoundWrite α)) (l := cs.zipIdx)
  simpa [hentries] using foldl_rows hwrites

/-! ## The bounds of a problem -/

/-- All writes together leave the bounds that the problem declares. -/
theorem foldl_problemWrites {gridPoints derivatives slacks : Nat} (hp : p.Indexable)
    (hΓ : Γ = kindExtent p gridPoints derivatives slacks) (hi : i < (Γ k).rows)
    (hj : j < (Γ k).cols) :
    (problemWrites p).foldl (BoundWrite.over Γ) (fun _ _ _ => .unset) k i j =
      p.elementBounds gridPoints k i j := by
  have hstates : Γ .states = ⟨p.states.length, gridPoints⟩ := by rw [hΓ, kindExtent]
  have hcontrols : Γ .controls = ⟨p.controls.length, gridPoints⟩ := by rw [hΓ, kindExtent]
  have hmultipliers : Γ .multipliers = ⟨p.multipliers.length, gridPoints⟩ := by rw [hΓ, kindExtent]
  have hparameters : Γ .parameters = ⟨p.parameters.length, 1⟩ := by rw [hΓ, kindExtent]
  have hfirst := Selector.picks_first (α := α) hi
  have hcol := Selector.picks_first (α := α) hj
  have hrows := Selector.picks_all (α := α) hi
  have hcols := Selector.picks_all (α := α) hj
  unfold problemWrites
  simp only [List.foldl_append]
  rw [foldl_parameterWrites_over hparameters (hp .parameter) hj]
  simp only [List.foldl_cons, List.foldl_nil, BoundWrite.over,
    foldl_kindWrites_over hmultipliers (hp .multiplier) hj,
    foldl_kindWrites_over hcontrols (hp .control) hj, foldl_kindWrites_over hstates (hp .state) hj]
  subst hΓ
  cases k with
  | initialTime | finalTime =>
    have hrow := hfirst.mpr (Nat.lt_one_iff.mp hi)
    have hcolumn := hcol.mpr (Nat.lt_one_iff.mp hj)
    simp [hrow, hcolumn, Problem.elementBounds]
  | derivatives => simp [hrows, hcols, Problem.elementBounds]
  | _ => simp [Problem.elementBounds]

/-- New tables have no bounds at any element. -/
theorem hasBounds_open (Γ : Kind → Extent) :
    HasBounds { s with
      extents := .full Γ
      lower := (Table.full Γ).map fun _ (e : Extent) => .fill e.toList (-Number.infinity)
      upper := (Table.full Γ).map fun _ (e : Extent) => .fill e.toList Number.infinity }
      Γ fun _ _ _ => .unset := by
  intro which k
  refine ⟨.fill (Γ k).toList (which.of (Bounds.unset : Bounds α).toPair), ?_, rfl, ?_⟩
  · cases which <;> simp [side, Side.of, Bounds.toPair]
  · exact (showsAt_fill _ _).2

/-- A scheme that was just made has at every element the bounds that its problem declares. -/
theorem hasBounds_of_createVariables (hp : p.Indexable) (h : createVariables p s = .ok () s') :
    ∃ derivatives slacks, Problem.rowsOf p.derivativeCount = .ok derivatives ∧
      Problem.rowsOf p.slackCount = .ok slacks ∧ s'.gridPoints = s.gridPoints ∧
      s'.extents = .full (kindExtent p s.gridPoints derivatives slacks) ∧
      s'.HasBounds (kindExtent p s.gridPoints derivatives slacks)
        (p.elementBounds s.gridPoints) := by
  obtain ⟨extents, hextents, hagrees⟩ := createVariables_eq_ok h
  obtain ⟨derivatives, slacks, hderivatives, hslacks, rfl⟩ := extentsFor_eq_ok hextents
  unfold createVariables at h
  rw [run_get_bind] at h
  obtain ⟨_, hextents', h⟩ := run_attempt_bind_eq_ok h
  cases hextents.symm.trans hextents'
  rw [run_set_bind] at h
  have hwritten := (hasBounds_open _).run h
  obtain ⟨_, _, _, _, rfl⟩ := hagrees
  refine ⟨derivatives, slacks, hderivatives, hslacks, rfl, rfl, ?_⟩
  intro which k
  obtain ⟨t, ht, hshape, hget⟩ := hwritten which k
  refine ⟨t, ht, hshape, ?_⟩
  intro i hi j hj
  rw [hget i hi j hj, foldl_problemWrites hp rfl hi hj]

end Scheme
end Collocation
