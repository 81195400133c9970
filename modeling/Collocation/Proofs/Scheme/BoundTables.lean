import Collocation.Proofs.Indexing
import Collocation.Proofs.Layout
import Collocation.Proofs.Scheme.Blocks
import Collocation.Proofs.Scheme.Phases
import Collocation.Proofs.Scheme.Values

/-! # Bound tables of fresh schemes

  A problem has bounds for its components at three places: at the first grid point, at the last one
  and between them. The tables of a fresh scheme show these bounds at as many columns as its grid
  has points, and nothing in them depends on the grid but this number. If the bounds that a problem
  sets at the ends lie inside of those along the way, then what is allowed anywhere along a row is
  allowed between its ends. -/

namespace Collocation

variable {α : Type}

/-! ## Places -/

/-- Where a column is in a matrix. -/
inductive Place where
  | first
  | middle
  | last
  deriving DecidableEq

/-- The place of a column. An only column is the first one. -/
def placeOf (cols j : Nat) : Place :=
  if j = 0 then .first else if j + 1 = cols then .last else .middle

theorem placeOf_last {cols : Nat} (h : 2 ≤ cols) : placeOf cols (cols - 1) = .last := by
  unfold placeOf
  rw [if_neg (by omega), if_pos (by omega)]

theorem placeOf_eq_first {cols j : Nat} : placeOf cols j = .first ↔ j = 0 := by
  unfold placeOf
  split_ifs with hzero hlast <;> simp [hzero]

theorem placeOf_eq_last {cols j : Nat} (h : 2 ≤ cols) :
    placeOf cols j = .last ↔ j = cols - 1 := by
  unfold placeOf
  split_ifs with hzero hlast
  · simp
    omega
  · simp
    omega
  · simp
    omega

/-- In every row the matrix has the value that is given for the place of the column. -/
def Tensor.ShowsAt [Inhabited α] (t : Tensor α) (e : Extent) (f : Nat → Place → α) : Prop :=
  t.shape = e.toList ∧ ∀ i < e.rows, ∀ j < e.cols, t.get (i + e.rows * j) = f i (placeOf e.cols j)

/-- A written block has its value there, and everything else is as before. -/
theorem Tensor.get_assignBlock [Inhabited α] {t : Tensor α} {e : Extent}
    (hshape : t.shape = e.toList) (rows cols : List Nat) (x : α) {i j : Nat} (hi : i < e.rows)
    (hj : j < e.cols) :
    (t.assignBlock rows cols x).get (i + e.rows * j) =
      if i ∈ rows ∧ j ∈ cols then x else t.get (i + e.rows * j) := by
  have hin : i + e.rows * j < volume t.shape := by
    simpa [hshape, Extent.toList] using index_lt hi hj
  obtain ⟨hrow, hcol⟩ := index_row_col hi j
  unfold assignBlock
  rw [get_ofFn _ _ hin]
  simp [hshape, Extent.toList, positionsAt, hrow, hcol, Nat.mod_eq_of_lt hj]

/-! ## Selected columns -/

namespace Selector

variable [Number α]

/-- The row is among those that are selected. -/
def picks (rows : Selector α) (size i : Nat) : Bool :=
  match rows.select size with
  | .ok selection => selection.positions.contains i
  | .error _ => false

omit [Number α] in
/-- The places at which a choice of columns lies. Single columns are chosen at the ends. -/
def covers (cols : Selector α) (place : Place) : Bool :=
  match cols with
  | .index i => if i = 0 then place = .first else place = .last
  | _ => true

/-- The columns that are selected are those at the covered places. -/
def Covering (cols : Selector α) (size : Nat) : Prop :=
  ∀ selection, cols.select size = .ok selection →
    ∀ j < size, j ∈ selection.positions ↔ cols.covers (placeOf size j)

theorem covering_all (size : Nat) : (all : Selector α).Covering size := by
  intro selection h j hj
  have hselect : (all : Selector α).select size =
      .ok ⟨slicePositions size none none 1, true⟩ := rfl
  rw [hselect] at h
  cases h
  simp [slicePositions, sliceEnds, sliceCount, covers, all, hj]

theorem select_index {size p : Nat} {i : Int} (hwrap : wrapIndex (α := α) i = .ok i)
    (h : resolveIndex (α := α) 0 size i = .ok p) :
    (index i : Selector α).select size = .ok ⟨[p], true⟩ := by
  simp only [select, hwrap, h, bind, Except.bind, pure, Except.pure]

theorem covering_first (size : Nat) : (index 0 : Selector α).Covering size := by
  intro selection h j hj
  have hresolve : resolveIndex (α := α) 0 size 0 = .ok 0 := resolveIndex_natCast (i := 0) (by omega)
  rw [select_index rfl hresolve] at h
  cases h
  simp [covers, placeOf_eq_first]

theorem covering_last {size : Nat} (htwo : 2 ≤ size) : (index (-1) : Selector α).Covering size := by
  intro selection h j hj
  rw [select_index rfl (resolveIndex_last (by omega))] at h
  cases h
  simp [covers, placeOf_eq_last htwo]

end Selector

/-! ## What tables show -/

/-- A lower and an upper bound for every place in every row of every kind. -/
abbrev BoundView (α : Type) := Kind → Nat → Place → α × α

/-- The bound of one side. -/
def Side.of (which : Side) (bounds : α × α) : α :=
  match which with
  | .lower => bounds.1
  | .upper => bounds.2

/-- The number lies between the two bounds. -/
def Admits [Number α] (bounds : α × α) (x : α) : Prop :=
  Number.atMost bounds.1 x ∧ Number.atMost x bounds.2

namespace Scheme

section Writing

variable [Number α] {s s' : Scheme α} {Γ : Kind → Extent} {view : BoundView α}

/-- The bounds after a write into matrices of so many rows. -/
def BoundWrite.paint (w : BoundWrite α) (rows : Kind → Nat) (view : BoundView α) : BoundView α :=
  fun k i place =>
    if k = w.kind ∧ w.rows.picks (rows k) i ∧ w.cols.covers place then w.bounds.toPair
    else view k i place

/-- The tables of both sides have the sizes of the decision variables and the bounds of a view,
    under the kinds and under no other key. -/
structure Shows (s : Scheme α) (Γ : Kind → Extent) (view : BoundView α) : Prop where
  extents : s.extents = .full Γ
  strays : ∀ which, s.strays which = []
  tables : ∀ which k, ∃ t, (s.side which).find? k = some t ∧
    t.ShowsAt (Γ k) fun i place => which.of (view k i place)

/-- Stacked tensors of equal sizes lie between each other where they do kind by kind. -/
theorem within_flatten_iff {extents : Table Extent} {lower upper values : Table (Tensor α)}
    (hlower : Layout.Fits extents lower) (hupper : Layout.Fits extents upper)
    (hvalues : Layout.Fits extents values) :
    Within (Layout.flatten lower) (Layout.flatten upper) (Layout.flatten values) ↔
      ∀ k, Within (Layout.elements lower k).toArray (Layout.elements upper k).toArray
        (Layout.elements values k).toArray := by
  have hkinds : ∀ ks : List Kind,
      Within (ks.flatMap (Layout.elements lower)).toArray
        (ks.flatMap (Layout.elements upper)).toArray
        (ks.flatMap (Layout.elements values)).toArray ↔
      ∀ k ∈ ks, Within (Layout.elements lower k).toArray (Layout.elements upper k).toArray
        (Layout.elements values k).toArray := by
    intro ks
    induction ks with
    | nil => simpa using within_empty
    | cons k ks ih =>
      have hlength := Layout.length_elements hvalues k
      simp only [List.flatMap_cons, ← List.append_toArray]
      rw [within_append (by simp [Layout.length_elements hlower, hlength])
        (by simp [Layout.length_elements hupper, hlength]), ih, List.forall_mem_cons]
  rw [Layout.flatten_eq, Layout.flatten_eq, Layout.flatten_eq, hkinds]
  exact ⟨fun h k => h k k.mem_all, fun h k _ => h k⟩

theorem Shows.fits (hs : s.Shows Γ view) (which : Side) : Layout.Fits s.extents (s.side which) := by
  intro k
  obtain ⟨t, ht, hshape, -⟩ := hs.tables which k
  rw [ht, hs.extents, Table.find?_full, Option.map_some, hshape]
  rfl

/-- A vector keeps the bounds of the tables where each value is admitted at its place. -/
theorem Shows.within_iff (hs : s.Shows Γ view) {V : Kind → Tensor α}
    (hV : ∀ k, (V k).shape = (Γ k).toList) :
    Within (Layout.flatten s.lower) (Layout.flatten s.upper) (Layout.flatten (.full V)) ↔
      ∀ k, ∀ i < (Γ k).rows, ∀ j < (Γ k).cols,
        Admits (view k i (placeOf (Γ k).cols j)) ((V k).get (i + (Γ k).rows * j)) := by
  have hfits : Layout.Fits s.extents (.full V) := hs.extents ▸ Layout.fits_full hV
  have hlower : Layout.Fits s.extents s.lower := hs.fits .lower
  have hupper : Layout.Fits s.extents s.upper := hs.fits .upper
  rw [within_flatten_iff hlower hupper hfits]
  refine forall_congr' fun k => ?_
  obtain ⟨l, hl, hlshape, hlget⟩ := hs.tables .lower k
  obtain ⟨u, hu, hushape, huget⟩ := hs.tables .upper k
  change s.lower.find? k = some l at hl
  change s.upper.find? k = some u at hu
  have hsize : ∀ {t : Tensor α}, t.shape = (Γ k).toList →
      t.data.size = (Γ k).rows * (Γ k).cols := by
    intro t ht
    simp [t.size_data, ht, Extent.toList]
  rw [Layout.elements_of_find? hl, Layout.elements_of_find? hu,
    Layout.elements_of_find? (Table.find?_full V k), Array.toArray_toList, Array.toArray_toList,
    Array.toArray_toList]
  constructor
  · intro h i hi j hj
    have hbetween := h.between (i + (Γ k).rows * j) (by rw [hsize (hV k)]; exact index_lt hi hj)
    change Number.atMost (l.get _) ((V k).get _) ∧ Number.atMost ((V k).get _) (u.get _) at hbetween
    rw [hlget i hi j hj, huget i hi j hj] at hbetween
    exact hbetween
  · intro h
    refine ⟨(hsize hlshape).trans (hsize (hV k)).symm,
      (hsize hushape).trans (hsize (hV k)).symm, ?_⟩
    intro p hp
    rw [hsize (hV k)] at hp
    obtain ⟨i, hi, j, hj, rfl⟩ := exists_index hp
    show Number.atMost (l.get _) ((V k).get _) ∧ Number.atMost ((V k).get _) (u.get _)
    rw [hlget i hi j hj, huget i hi j hj]
    exact h i hi j hj

theorem writeBounds_eq_ok {k : Kind} {t : Side → Tensor α} {e : Extent}
    (ht : ∀ which, (s.side which).find? k = some (t which))
    (hshape : (t .lower).shape = e.toList) {rows cols : Selector α} {bounds : Bounds α}
    (h : writeBounds (.kind k) rows cols bounds s = .ok () s') :
    ∃ picked chosen, rows.select e.rows = .ok picked ∧ cols.select e.cols = .ok chosen ∧
      s'.extents = s.extents ∧ ∀ which, s'.strays which = s.strays which ∧
        s'.side which = (s.side which).insert k
          ((t which).assignBlock picked.positions chosen.positions (which.of bounds.toPair)) := by
  have hbound : ∀ which, s.bound which (.kind k) = .ok (t which) := by
    intro which
    simp only [bound, Key.kind?, ht which]
  have hrows : (t .lower).axisSize 0 = .ok e.rows := by
    simp [Tensor.axisSize, hshape, Extent.toList]
  have hcols : (t .lower).axisSize 1 = .ok e.cols := by
    simp [Tensor.axisSize, hshape, Extent.toList]
  unfold writeBounds at h
  rw [run_get_bind, hbound, hbound] at h
  obtain ⟨_, hlower, h⟩ := run_attempt_bind_eq_ok h
  cases hlower
  obtain ⟨_, hupper, h⟩ := run_attempt_bind_eq_ok h
  cases hupper
  -- both axes are those of the lower table
  obtain ⟨picked, hpicked, h⟩ := run_attempt_bind_eq_ok h
  obtain ⟨chosen, hchosen, h⟩ := run_attempt_bind_eq_ok h
  rw [hrows] at hpicked
  rw [hcols] at hchosen
  by_cases hvector : (!picked.isVector || !chosen.isVector) = true
  · rw [if_pos hvector] at h
    cases h
  rw [if_neg hvector] at h
  change (modify _ >>= fun _ => attempt _ >>= fun _ => modify _) s = _ at h
  rw [run_modify_bind] at h
  obtain ⟨-, -, h⟩ := run_attempt_bind_eq_ok h
  cases h
  refine ⟨picked, chosen, hpicked, hchosen, rfl, ?_⟩
  intro which
  cases which <;> exact ⟨rfl, rfl⟩

theorem Shows.write {w : BoundWrite α} (hs : s.Shows Γ view)
    (hcols : w.cols.Covering (Γ w.kind).cols)
    (h : writeBounds (.kind w.kind) w.rows w.cols w.bounds s = .ok () s') :
    s'.Shows Γ (w.paint (fun k => (Γ k).rows) view) := by
  choose t ht hshows using fun which => hs.tables which w.kind
  obtain ⟨picked, chosen, hpicked, hchosen, hextents, hside⟩ :=
    writeBounds_eq_ok ht (hshows .lower).1 h
  refine ⟨hextents.trans hs.extents, fun which => (hside which).1.trans (hs.strays which), ?_⟩
  intro which k
  rw [(hside which).2]
  by_cases hk : k = w.kind
  · subst hk
    obtain ⟨hshape, hget⟩ := hshows which
    refine ⟨_, Table.find?_insert_self _ _ _, hshape, ?_⟩
    intro i hi j hj
    have hrow : i ∈ picked.positions ↔ w.rows.picks (Γ w.kind).rows i = true := by
      simp [Selector.picks, hpicked]
    have hcol := hcols chosen hchosen j hj
    rw [Tensor.get_assignBlock hshape _ _ _ hi hj, hget i hi j hj]
    show _ = which.of (w.paint (fun k => (Γ k).rows) view w.kind i (placeOf (Γ w.kind).cols j))
    by_cases hin : i ∈ picked.positions ∧ j ∈ chosen.positions
    · rw [if_pos hin, BoundWrite.paint, if_pos ⟨rfl, hrow.mp hin.1, hcol.mp hin.2⟩]
    · rw [if_neg hin, BoundWrite.paint,
        if_neg fun hpaint => hin ⟨hrow.mpr hpaint.2.1, hcol.mpr hpaint.2.2⟩]
  · obtain ⟨u, hu, hushows⟩ := hs.tables which k
    refine ⟨u, (Table.find?_insert_ne _ _ hk).trans hu, hushows.1, ?_⟩
    intro i hi j hj
    rw [hushows.2 i hi j hj]
    show _ = which.of (w.paint (fun k => (Γ k).rows) view k i (placeOf (Γ k).cols j))
    rw [BoundWrite.paint, if_neg fun hpaint => hk hpaint.1]

/-- Writes one after the other. -/
theorem Shows.run {ws : List (BoundWrite α)} (hs : s.Shows Γ view)
    (hcols : ∀ w ∈ ws, w.cols.Covering (Γ w.kind).cols)
    (h : (ws.forM fun w => writeBounds (.kind w.kind) w.rows w.cols w.bounds) s = .ok () s') :
    s'.Shows Γ (ws.foldl (fun view w => w.paint (fun k => (Γ k).rows) view) view) := by
  induction ws generalizing s view with
  | nil =>
    cases h
    exact hs
  | cons w ws ih =>
    obtain ⟨_, s₁, hw, h⟩ := run_bind_eq_ok h
    have hfirst := hs.write (hcols w List.mem_cons_self) hw
    exact ih hfirst (fun w' hw' => hcols w' (List.mem_cons_of_mem w hw')) h

end Writing

/-! ## The bounds of a problem -/

section Problem

variable [Number α] {s s' : Scheme α} {p : Problem α}

/-- Nothing is bounded. -/
def openView : BoundView α := fun _ _ _ => (-Number.infinity, Number.infinity)

/-- The bounds that a problem sets in matrices of so many rows. -/
def problemView (p : Problem α) (rows : Kind → Nat) : BoundView α :=
  (problemWrites p).foldl (fun view w => w.paint rows view) openView

omit [Number α] in
theorem mem_componentWrites {kind : Kind} {row : Nat} {c : Component α} {w : BoundWrite α}
    (h : w ∈ componentWrites kind row c) :
    w.kind = kind ∧ w.rows = .index row ∧
      (w.cols = .all ∨ w.cols = .index 0 ∨ w.cols = .index (-1)) := by
  unfold componentWrites at h
  simp only [List.mem_append, List.mem_singleton] at h
  rcases h with (rfl | h) | h
  · exact ⟨rfl, rfl, .inl rfl⟩
  · split_ifs at h
    · rw [List.mem_singleton.mp h]
      exact ⟨rfl, rfl, .inr (.inl rfl)⟩
    · cases h
  · split_ifs at h
    · rw [List.mem_singleton.mp h]
      exact ⟨rfl, rfl, .inr (.inr rfl)⟩
    · cases h

theorem covering_kindWrites {kind : Kind} {cs : List (Component α)} {size : Nat}
    (htwo : 2 ≤ size) {w : BoundWrite α} (h : w ∈ kindWrites kind cs) :
    w.kind = kind ∧ w.cols.Covering size := by
  obtain ⟨⟨c, row⟩, -, h⟩ := List.mem_flatMap.mp h
  obtain ⟨hkind, -, hcols⟩ := mem_componentWrites h
  refine ⟨hkind, ?_⟩
  rcases hcols with hcols | hcols | hcols
  · rw [hcols]
    exact Selector.covering_all size
  · rw [hcols]
    exact Selector.covering_first size
  · rw [hcols]
    exact Selector.covering_last htwo

/-- On two grid points or more every write covers places. -/
theorem covering_problemWrites {gridPoints derivatives slacks : Nat} (htwo : 2 ≤ gridPoints)
    {w : BoundWrite α} (h : w ∈ problemWrites p) :
    w.cols.Covering (kindExtent p gridPoints derivatives slacks w.kind).cols := by
  unfold problemWrites at h
  simp only [List.mem_append, List.mem_cons, List.not_mem_nil, or_false, List.mem_map] at h
  rcases h with ((((((rfl | rfl) | h) | h) | h) | rfl) | ⟨⟨c, row⟩, -, rfl⟩)
  · exact Selector.covering_first _
  · exact Selector.covering_first _
  · obtain ⟨hkind, hcols⟩ := covering_kindWrites htwo h
    rwa [hkind]
  · obtain ⟨hkind, hcols⟩ := covering_kindWrites htwo h
    rwa [hkind]
  · obtain ⟨hkind, hcols⟩ := covering_kindWrites htwo h
    rwa [hkind]
  · exact Selector.covering_all _
  · exact Selector.covering_first _

omit [Number α] in
theorem showsAt_fill [Inhabited α] (e : Extent) (x : α) :
    (Tensor.fill e.toList x).ShowsAt e fun _ _ => x := by
  refine ⟨rfl, ?_⟩
  intro i hi j hj
  have hin : i + e.rows * j < volume e.toList := by
    simpa [Extent.toList] using index_lt hi hj
  exact Tensor.get_ofFn _ _ hin

/-- New tables show that nothing is bounded. -/
theorem shows_open (Γ : Kind → Extent) (hstrays : ∀ which, s.strays which = []) :
    Shows { s with
      extents := .full Γ
      lower := (Table.full Γ).map fun _ (e : Extent) => .fill e.toList (-Number.infinity)
      upper := (Table.full Γ).map fun _ (e : Extent) => .fill e.toList Number.infinity }
      Γ openView := by
  refine ⟨rfl, ?_, ?_⟩
  · intro which
    cases which
    · exact hstrays .lower
    · exact hstrays .upper
  · intro which k
    refine ⟨.fill (Γ k).toList (which.of (-Number.infinity, Number.infinity)), ?_, showsAt_fill _ _⟩
    cases which <;> simp [side, Side.of]

/-- New tables show the bounds of the problem. -/
theorem shows_of_createVariables (htwo : 2 ≤ s.gridPoints) (hstrays : ∀ which, s.strays which = [])
    (h : createVariables p s = .ok () s') :
    ∃ derivatives slacks, Problem.rowsOf p.derivativeCount = .ok derivatives ∧
      Problem.rowsOf p.slackCount = .ok slacks ∧
      s'.Shows (kindExtent p s.gridPoints derivatives slacks)
        (problemView p fun k => (kindExtent p s.gridPoints derivatives slacks k).rows) := by
  unfold createVariables at h
  rw [run_get_bind] at h
  obtain ⟨extents, hextents, h⟩ := run_attempt_bind_eq_ok h
  rw [run_set_bind] at h
  obtain ⟨derivatives, slacks, hderivatives, hslacks, rfl⟩ := extentsFor_eq_ok hextents
  refine ⟨derivatives, slacks, hderivatives, hslacks, (shows_open _ hstrays).run ?_ h⟩
  intro w hw
  exact covering_problemWrites htwo hw

end Problem
end Scheme

/-! ## Bounds at the ends -/

/-- The bounds lie inside of others. -/
def Bounds.Inside [Number α] (inner outer : Bounds α) : Prop :=
  Number.atMost outer.toPair.1 inner.toPair.1 ∧ Number.atMost inner.toPair.2 outer.toPair.2

/-- What is set at the ends lies inside of the bounds along the way. -/
def Component.EndsInside [Number α] (c : Component α) : Prop :=
  (c.initial.isSet → c.initial.Inside c.bounds) ∧ (c.final.isSet → c.final.Inside c.bounds)

instance [Number α] (inner outer : Bounds α) : Decidable (inner.Inside outer) :=
  inferInstanceAs (Decidable (_ ∧ _))

instance [Number α] (c : Component α) : Decidable c.EndsInside :=
  inferInstanceAs (Decidable ((_ → _) ∧ (_ → _)))

/-- The bounds of a component at a place. -/
def Component.boundsAt (c : Component α) : Place → Bounds α
  | .first => if c.initial.isSet then c.initial else c.bounds
  | .middle => c.bounds
  | .last => if c.final.isSet then c.final else c.bounds

/-- What is admitted somewhere in a row of the kind is admitted between its ends. -/
def BoundView.Widest [Number α] (view : BoundView α) (k : Kind) : Prop :=
  ∀ i place x, Admits (view k i place) x → Admits (view k i .middle) x

open Extended

variable {K : Type} [Field K] [LinearOrder K] [FloorRing K] [Interpretation K]

theorem Admits.of_inside {inner outer : Bounds (Extended K)} (h : inner.Inside outer)
    {x : Extended K} (hx : Admits inner.toPair x) : Admits outer.toPair x :=
  ⟨atMost_trans h.1 hx.1, atMost_trans hx.2 h.2⟩

/-- Every number is at least the lower infinity and at most the upper one. -/
theorem admits_finite {low high : Extended K} {x z : K} (h : Admits (low, high) (finite x))
    (hlow : ∀ l, low = finite l → l ≤ z) (hhigh : ∀ u, high = finite u → z ≤ u) :
    Admits (low, high) (finite z) := by
  obtain ⟨hlx, hxu⟩ := h
  constructor
  · cases low with
    | finite l => exact atMost_finite.mpr (hlow l rfl)
    | infinite negative => cases negative <;> exact hlx
    | undefined => exact hlx
  · cases high with
    | finite u => exact atMost_finite.mpr (hhigh u rfl)
    | infinite negative => cases negative <;> exact hxu
    | undefined => exact hxu

theorem Component.admits_of_boundsAt {c : Component (Extended K)} (hc : c.EndsInside)
    {place : Place} {x : Extended K} (hx : Admits (c.boundsAt place).toPair x) :
    Admits c.bounds.toPair x := by
  unfold boundsAt at hx
  cases place with
  | first =>
    simp only at hx
    split_ifs at hx with hset
    · exact .of_inside (hc.1 hset) hx
    · exact hx
  | middle => exact hx
  | last =>
    simp only at hx
    split_ifs at hx with hset
    · exact .of_inside (hc.2 hset) hx
    · exact hx

namespace Scheme

/-- The writes for a component leave its bounds in its row and everything else as it was. -/
theorem foldl_componentWrites [Number α] (rows : Kind → Nat) (kind : Kind) (row : Nat)
    (c : Component α) (view : BoundView α) (k : Kind) (i : Nat) (place : Place) :
    (componentWrites kind row c).foldl (fun view w => w.paint rows view) view k i place =
      if k = kind ∧ (Selector.index row : Selector α).picks (rows k) i then
        (c.boundsAt place).toPair
      else view k i place := by
  unfold componentWrites Component.boundsAt
  by_cases hrow : k = kind ∧ (Selector.index row : Selector α).picks (rows k) i
  · -- the bounds along the way come first, and those of an end cover its place only
    obtain ⟨rfl, hpicks⟩ := hrow
    cases place <;> by_cases hinitial : c.initial.isSet <;> by_cases hfinal : c.final.isSet <;>
      simp [BoundWrite.paint, hpicks, hinitial, hfinal, Selector.covers, Selector.all]
  · have hunpainted : ∀ cols bounds (view : BoundView α),
        (⟨kind, .index row, cols, bounds⟩ : BoundWrite α).paint rows view k i place =
          view k i place := by
      intro cols bounds view
      rw [BoundWrite.paint, if_neg fun hpaint => hrow ⟨hpaint.1, hpaint.2.1⟩]
    rw [if_neg hrow]
    split_ifs <;> simp [hunpainted]

variable {view : BoundView (Extended K)} {k : Kind} {rows : Kind → Nat}

theorem widest_componentWrites (h : view.Widest k) (kind : Kind) (row : Nat)
    {c : Component (Extended K)} (hc : c.EndsInside) :
    BoundView.Widest
      ((componentWrites kind row c).foldl (fun view w => w.paint rows view) view) k := by
  intro i place x hx
  rw [foldl_componentWrites] at hx ⊢
  split_ifs at hx ⊢
  · exact Component.admits_of_boundsAt hc hx
  · exact h i place x hx

theorem widest_kindWrites (h : view.Widest k) (kind : Kind) {cs : List (Component (Extended K))}
    (hcs : ∀ c ∈ cs, c.EndsInside) :
    BoundView.Widest ((kindWrites kind cs).foldl (fun view w => w.paint rows view) view) k := by
  have hrows : ∀ e ∈ cs.zipIdx, e.1.EndsInside := by
    intro e he
    exact hcs e.1 (List.fst_mem_of_mem_zipIdx he)
  unfold kindWrites
  -- component by component
  generalize cs.zipIdx = es at hrows
  induction es generalizing view with
  | nil => exact h
  | cons e es ih =>
    rw [List.flatMap_cons, List.foldl_append]
    exact ih (widest_componentWrites h kind e.2 (hrows e List.mem_cons_self))
      fun e' he' => hrows e' (List.mem_cons_of_mem e he')

/-- Writes of other kinds keep what is widest, and so do those that cover whole rows. -/
theorem widest_paint {w : BoundWrite (Extended K)} (h : view.Widest k)
    (hw : k ≠ w.kind ∨ w.cols = .all) : (w.paint rows view).Widest k := by
  intro i place x hx
  rcases hw with hk | hall
  · rw [BoundWrite.paint, if_neg fun hpaint => hk hpaint.1] at hx ⊢
    exact h i place x hx
  · have hcovers : ∀ place, w.cols.covers place = true := by
      intro place
      rw [hall]
      rfl
    simp only [BoundWrite.paint, hcovers, and_true] at hx ⊢
    split_ifs at hx ⊢
    · exact hx
    · exact h i place x hx

theorem widest_foldl {ws : List (BoundWrite (Extended K))} (h : view.Widest k)
    (hws : ∀ w ∈ ws, k ≠ w.kind ∨ w.cols = .all) :
    BoundView.Widest (ws.foldl (fun view w => w.paint rows view) view) k := by
  induction ws generalizing view with
  | nil => exact h
  | cons w ws ih =>
    exact ih (widest_paint h (hws w List.mem_cons_self))
      fun w' hw' => hws w' (List.mem_cons_of_mem w hw')

/-- On the kinds of the grid the bounds between the ends are the widest ones. -/
theorem widest_problemView {p : Problem (Extended K)}
    (hends : ∀ c ∈ p.states ++ p.controls ++ p.multipliers, c.EndsInside) (hk : k.onGrid)
    (rows : Kind → Nat) : (problemView p rows).Widest k := by
  simp only [List.mem_append, or_imp, forall_and] at hends
  obtain ⟨⟨hstates, hcontrols⟩, hmultipliers⟩ := hends
  have hne : ∀ kind : Kind, ¬kind.onGrid → k ≠ kind := by
    rintro kind hkind rfl
    exact hkind hk
  have hopen : (openView : BoundView (Extended K)).Widest k := fun _ _ _ hx => hx
  unfold problemView problemWrites
  simp only [List.foldl_append]
  refine widest_foldl (widest_foldl (widest_kindWrites (widest_kindWrites (widest_kindWrites
    (widest_foldl hopen ?_) .states hstates) .controls hcontrols) .multipliers hmultipliers) ?_) ?_
  · intro w hw
    simp only [List.mem_cons, List.not_mem_nil, or_false] at hw
    rcases hw with rfl | rfl
    · exact .inl (hne .initialTime (by decide))
    · exact .inl (hne .finalTime (by decide))
  · intro w hw
    rw [List.mem_singleton.mp hw]
    exact .inr rfl
  · intro w hw
    obtain ⟨⟨c, row⟩, -, rfl⟩ := List.mem_map.mp hw
    exact .inl (hne .parameters (by decide))

end Scheme
end Collocation
