import Collocation.Proofs.Bounds
import Collocation.Proofs.Scheme.Buildable
import Collocation.Proofs.Scheme.Feasible

/-! # Bound tables in order

  As long as bounds get into a scheme only through its problem and through writes of bounds, the
  two tables go together: where there is a lower bound there is an upper one, and it is not below.
  What rows and columns select lies inside of the lower table, so it lies inside of the upper one
  too, and no write stops between the two. -/

namespace Collocation

variable {α : Type}

/-! ## Selected positions -/

namespace Selector

theorem clampEnd_mem (size : Int) {low high : Int} (h : low ≤ high) (i : Int) :
    low ≤ clampEnd size low high i ∧ clampEnd size low high i ≤ high := by
  unfold clampEnd
  simp only
  split_ifs <;> omega

/-- A slice begins and ends inside of the axis, for a step back one place before it at most. -/
theorem sliceEnds_mem (size : Nat) (start stop : Option Int) {step : Int} {first last : Int}
    (h : sliceEnds size start stop step = (first, last)) :
    (0 < step → 0 ≤ first ∧ last ≤ size) ∧ (¬0 < step → first ≤ size - 1 ∧ -1 ≤ last) := by
  unfold sliceEnds at h
  have hforward : ∀ i, 0 ≤ clampEnd size 0 size i ∧ clampEnd size 0 size i ≤ size :=
    clampEnd_mem size (by omega)
  have hback : ∀ i, -1 ≤ clampEnd size (-1) (size - 1) i ∧
      clampEnd size (-1) (size - 1) i ≤ size - 1 :=
    clampEnd_mem size (by omega)
  split_ifs at h with hstep
  · cases h
    refine ⟨fun _ => ⟨?_, ?_⟩, fun hneg => absurd hstep hneg⟩
    · cases start with
      | none => exact le_refl _
      | some i => exact (hforward i).1
    · cases stop with
      | none => exact le_refl _
      | some i => exact (hforward i).2
  · cases h
    refine ⟨fun hpos => absurd hpos hstep, fun _ => ⟨?_, ?_⟩⟩
    · cases start with
      | none => exact le_refl _
      | some i => exact (hback i).2
    · cases stop with
      | none => exact le_refl _
      | some i => exact (hback i).1

/-- Whatever its ends and its step, a slice keeps within the axis. -/
theorem lt_of_mem_slicePositions {size : Nat} {start stop : Option Int} {step : Int}
    (hstep : step ≠ 0) {i : Nat} (h : i ∈ slicePositions size start stop step) : i < size := by
  unfold slicePositions at h
  generalize hends : sliceEnds size start stop step = ends at h
  obtain ⟨first, last⟩ := ends
  obtain ⟨hforward, hback⟩ := sliceEnds_mem size start stop hends
  obtain ⟨k, hk, rfl⟩ := List.mem_map.mp h
  rw [List.mem_range] at hk
  unfold sliceCount at hk
  split_ifs at hk with hpos
  · obtain ⟨hfirst, hlast⟩ := hforward hpos
    have hcount : ((k : Int) + 1) * step ≤ last - first + step - 1 :=
      (Int.le_ediv_iff_mul_le hpos).mp (by omega)
    have hway : 0 ≤ (k : Int) * step := by positivity
    rw [add_mul, one_mul] at hcount
    omega
  · obtain ⟨hfirst, hlast⟩ := hback hpos
    have hneg : 0 < -step := by omega
    have hcount : ((k : Int) + 1) * -step ≤ first - last - step - 1 :=
      (Int.le_ediv_iff_mul_le hneg).mp (by omega)
    have hway : 0 ≤ (k : Int) * -step := by positivity
    rw [add_mul, one_mul, mul_neg] at hcount
    rw [mul_neg] at hway
    omega

theorem lt_of_resolveIndex {axis size : Nat} {i : Int} {p : Nat}
    (h : resolveIndex (α := α) axis size i = .ok p) : p < size := by
  unfold resolveIndex at h
  split_ifs at h with hfront hback
  · cases h
    omega
  · cases h
    omega

variable [Number α]

/-- Every position that is selected along an axis lies on it. -/
theorem lt_of_select {selector : Selector α} {size : Nat} {selection : Selection}
    (h : selector.select size = .ok selection) : ∀ i ∈ selection.positions, i < size := by
  intro i hi
  unfold select at h
  split at h
  · obtain ⟨_, -, h⟩ := bind_eq_ok h
    obtain ⟨p, hp, h⟩ := bind_eq_ok h
    cases h
    rw [List.mem_singleton.mp hi]
    exact lt_of_resolveIndex hp
  · obtain ⟨step, -, h⟩ := bind_eq_ok h
    simp only at h
    by_cases hzero : step.getD 1 = 0
    · rw [if_pos hzero] at h
      cases h
    rw [if_neg hzero] at h
    obtain ⟨_, -, h⟩ := bind_eq_ok h
    obtain ⟨_, -, h⟩ := bind_eq_ok h
    cases h
    exact lt_of_mem_slicePositions hzero hi
  · next b =>
    by_cases hsize : size = 1
    · rw [if_pos hsize] at h
      cases h
      cases b with
      | true =>
        rw [List.mem_singleton.mp hi, hsize]
        exact Nat.one_pos
      | false => cases hi
    · rw [if_neg hsize] at h
      cases h
  · obtain ⟨indices, -, h⟩ := bind_eq_ok h
    obtain ⟨positions, hpositions, h⟩ := bind_eq_ok h
    cases h
    exact forall_of_mapM_eq_ok hpositions (fun _ _ => lt_of_resolveIndex) i hi

end Selector

variable [Number α]

/-! ## Two tensors -/

/-- The tensors have one shape of two dimensions, and no element of the first is above the element
    of the second at its place. -/
structure Tensor.Brackets (lower upper : Tensor α) : Prop where
  shape : ∃ e : Extent, lower.shape = e.toList ∧ upper.shape = e.toList
  atMost : ∀ p < lower.size, Number.atMost (lower.get p) (upper.get p)

namespace Tensor

theorem brackets_fill (e : Extent) {x y : α} (h : Number.atMost x y) :
    (fill e.toList x).Brackets (fill e.toList y) := by
  refine ⟨⟨e, rfl, rfl⟩, ?_⟩
  intro p hp
  have hin : p < volume e.toList := by simpa [size, fill, ofFn] using hp
  unfold fill
  rw [get_ofFn _ _ hin, get_ofFn _ _ hin]
  exact h

/-- The same block is written on both sides. -/
theorem Brackets.assignBlock {lower upper : Tensor α} (h : lower.Brackets upper)
    (rows cols : List Nat) {x y : α} (hxy : Number.atMost x y) :
    (lower.assignBlock rows cols x).Brackets (upper.assignBlock rows cols y) := by
  obtain ⟨e, hlower, hupper⟩ := h.shape
  refine ⟨⟨e, hlower, hupper⟩, ?_⟩
  intro p hp
  have hin : p < volume lower.shape := by simpa [size, Tensor.assignBlock, ofFn] using hp
  have hin' : p < volume upper.shape := by rwa [hupper, ← hlower]
  have hold : Number.atMost (lower.get p) (upper.get p) := by
    apply h.atMost
    rwa [size, lower.size_data]
  unfold Tensor.assignBlock
  rw [get_ofFn _ _ hin, get_ofFn _ _ hin', hupper, ← hlower]
  split
  · split_ifs
    · exact hxy
    · exact hold
  · exact hold

theorem Brackets.ordered [LawfulComparison α] {lower upper : Tensor α} (h : lower.Brackets upper) :
    Ordered lower.data upper.data := by
  obtain ⟨e, hlower, hupper⟩ := h.shape
  refine ⟨by rw [lower.size_data, upper.size_data, hlower, hupper], ?_⟩
  intro i hi
  exact LawfulComparison.not_below_of_atMost (h.atMost i hi)

end Tensor

/-! ## Problems -/

/-- The bounds of a component are in order along the way and at the two ends. -/
structure Component.BoundsInOrder (c : Component α) : Prop where
  bounds : c.bounds.InOrder
  initial : c.initial.InOrder
  final : c.final.InOrder

/-- All bounds of a problem's variables are in order. -/
structure Problem.BoundsInOrder (p : Problem α) : Prop where
  initialTime : p.initialTime.InOrder
  finalTime : p.finalTime.InOrder
  derivatives : p.derivativeBounds.InOrder
  components : ∀ kind, ∀ c ∈ p.components kind, c.BoundsInOrder

namespace Scheme

variable {p : Problem α} {s s' : Scheme α}

/-! ## Two tables -/

/-- There are bounds under keys that are kinds only, on both sides or on none, and those of the two
    sides are in order. -/
structure TablesOrdered (s : Scheme α) : Prop where
  strays : ∀ which, s.strays which = []
  tables : ∀ k, (s.lower.find? k = none ∧ s.upper.find? k = none) ∨
    ∃ lower upper, s.lower.find? k = some lower ∧ s.upper.find? k = some upper ∧
      lower.Brackets upper

theorem TablesOrdered.of_sides (h : s.TablesOrdered) (hside : ∀ which, s'.side which = s.side which)
    (hstrays : ∀ which, s'.strays which = s.strays which) : s'.TablesOrdered := by
  have hlower : s'.lower = s.lower := hside .lower
  have hupper : s'.upper = s.upper := hside .upper
  refine ⟨fun which => (hstrays which).trans (h.strays which), ?_⟩
  rw [hlower, hupper]
  exact h.tables

theorem TablesOrdered.insert (h : s.TablesOrdered) (k : Kind) {lower upper : Tensor α}
    (hbrackets : lower.Brackets upper) :
    TablesOrdered { s with lower := s.lower.insert k lower, upper := s.upper.insert k upper } := by
  refine ⟨fun which => ?_, fun k' => ?_⟩
  · cases which
    · exact h.strays .lower
    · exact h.strays .upper
  · by_cases hk : k' = k
    · subst hk
      exact .inr ⟨lower, upper, Table.find?_insert_self _ _ _, Table.find?_insert_self _ _ _,
        hbrackets⟩
    · rw [Table.find?_insert_ne _ _ hk, Table.find?_insert_ne _ _ hk]
      exact h.tables k'

/-- Bounds that are found on one side are those of a kind, and they go with those of the other. -/
theorem TablesOrdered.bound_eq_ok (h : s.TablesOrdered) {key : Key α} {lower upper : Tensor α}
    (hlower : s.bound .lower key = .ok lower) (hupper : s.bound .upper key = .ok upper) :
    ∃ k, key.kind? = some k ∧ lower.Brackets upper := by
  unfold bound at hlower hupper
  cases hkind : key.kind? with
  | none =>
    rw [hkind] at hlower
    simp only [h.strays .lower] at hlower
    cases hlower
  | some k =>
    simp only [hkind, side] at hlower hupper
    refine ⟨k, rfl, ?_⟩
    rcases h.tables k with ⟨hnone, -⟩ | ⟨lower', upper', hlower', hupper', hbrackets⟩
    · rw [hnone] at hlower
      cases hlower
    · rw [hlower'] at hlower
      rw [hupper'] at hupper
      cases hlower
      cases hupper
      exact hbrackets

theorem putBound_both {key : Key α} {k : Kind} (hkind : key.kind? = some k)
    (lower upper : Tensor α) :
    (s.putBound .lower key lower).putBound .upper key upper =
      { s with lower := s.lower.insert k lower, upper := s.upper.insert k upper } := by
  unfold putBound
  rw [hkind]
  rfl

/-- A write of bounds in order keeps the tables in order, and it never stops between them. -/
theorem tablesOrdered_writeBounds {key : Key α} {rows cols : Selector α} {bounds : Bounds α}
    (hbounds : bounds.InOrder) : Keeps TablesOrdered (writeBounds key rows cols bounds) := by
  refine .read fun s hs => ?_
  apply stateOf_attempt_bind hs
  intro lower hlower
  apply stateOf_attempt_bind hs
  intro upper hupper
  obtain ⟨k, hkind, hbrackets⟩ := hs.bound_eq_ok hlower hupper
  obtain ⟨e, hlowerShape, hupperShape⟩ := hbrackets.shape
  have haxes : lower.axisSize 0 = (.ok e.rows : Except (Fault α) Nat) ∧
      lower.axisSize 1 = (.ok e.cols : Except (Fault α) Nat) := by
    simp [Tensor.axisSize, hlowerShape, Extent.toList]
  rw [haxes.1, haxes.2]
  apply stateOf_attempt_bind hs
  intro picked hpicked
  apply stateOf_attempt_bind hs
  intro chosen hchosen
  by_cases hvector : (!picked.isVector || !chosen.isVector) = true
  · rw [if_pos hvector]
    exact hs
  rw [if_neg hvector]
  -- the upper block lies inside, because the lower one does
  have hblock : upper.checkBlock picked.positions chosen.positions = (.ok () : Except (Fault α) Unit) :=
    Tensor.checkBlock_of_lt hupperShape (Selector.lt_of_select hpicked)
      (Selector.lt_of_select hchosen)
  change TablesOrdered
    (stateOf ((modify _ >>= fun _ => attempt _ >>= fun _ => modify _) s))
  rw [run_modify_bind, hblock]
  change TablesOrdered ((s.putBound .lower key _).putBound .upper key _)
  rw [putBound_both hkind]
  exact hs.insert k (hbrackets.assignBlock picked.positions chosen.positions hbounds)

/-! ## New tables -/

theorem inOrder_of_mem_kindWrites {kind : Kind} {cs : List (Component α)}
    (hcs : ∀ c ∈ cs, c.BoundsInOrder) {w : BoundWrite α} (h : w ∈ kindWrites kind cs) :
    w.bounds.InOrder := by
  obtain ⟨⟨c, row⟩, hc, h⟩ := List.mem_flatMap.mp h
  have hbounds := hcs c (List.fst_mem_of_mem_zipIdx hc)
  unfold componentWrites at h
  simp only [List.mem_append, List.mem_singleton] at h
  rcases h with (rfl | h) | h
  · exact hbounds.bounds
  · split_ifs at h
    · rw [List.mem_singleton.mp h]
      exact hbounds.initial
    · cases h
  · split_ifs at h
    · rw [List.mem_singleton.mp h]
      exact hbounds.final
    · cases h

theorem inOrder_of_mem_problemWrites (hp : p.BoundsInOrder) {w : BoundWrite α}
    (h : w ∈ problemWrites p) : w.bounds.InOrder := by
  unfold problemWrites at h
  simp only [List.mem_append, List.mem_cons, List.not_mem_nil, or_false, List.mem_map] at h
  rcases h with ((((((rfl | rfl) | h) | h) | h) | rfl) | ⟨⟨c, row⟩, hrow, rfl⟩)
  · exact hp.initialTime
  · exact hp.finalTime
  · exact inOrder_of_mem_kindWrites (hp.components .state) h
  · exact inOrder_of_mem_kindWrites (hp.components .control) h
  · exact inOrder_of_mem_kindWrites (hp.components .multiplier) h
  · exact hp.derivatives
  · exact (hp.components .parameter c (List.fst_mem_of_mem_zipIdx hrow)).bounds

/-- A scheme without bounds. -/
theorem tablesOrdered_start (rule : Rule α) (settings : Settings α) (gridPoints : Nat)
    (grid : Option (Tensor α)) : (start rule settings gridPoints grid).TablesOrdered := by
  refine ⟨fun which => ?_, fun k => .inl ⟨?_, ?_⟩⟩
  · cases which <;> rfl
  · cases k <;> rfl
  · cases k <;> rfl

variable [LawfulComparison α]

/-- New tables are open, and then they have the bounds of their problem. -/
theorem tablesOrdered_createVariables (hp : p.BoundsInOrder) (hs : s.TablesOrdered)
    (h : createVariables p s = .ok () s') : s'.TablesOrdered := by
  unfold createVariables at h
  rw [run_get_bind] at h
  obtain ⟨extents, -, h⟩ := run_attempt_bind_eq_ok h
  rw [run_set_bind] at h
  have hwrites : Keeps TablesOrdered
      ((problemWrites p).forM fun w => writeBounds (.kind w.kind) w.rows w.cols w.bounds) :=
    .forM fun w hw => tablesOrdered_writeBounds (inOrder_of_mem_problemWrites hp hw)
  refine hwrites.ok ⟨fun which => ?_, fun k => ?_⟩ h
  · cases which
    · exact hs.strays .lower
    · exact hs.strays .upper
  · cases hextent : extents.find? k with
    | none => exact .inl ⟨by simp [hextent], by simp [hextent]⟩
    | some e =>
      have hopen := Tensor.brackets_fill e (LawfulComparison.atMost_infinities (α := α))
      exact .inr ⟨_, _, by simp [hextent], by simp [hextent], hopen⟩

/-! ## Decision vectors -/

/-- The bounds of all variables are those of the kinds, one after the other. -/
theorem TablesOrdered.ordered (h : s.TablesOrdered) :
    Ordered (Layout.flatten s.lower) (Layout.flatten s.upper) := by
  have hkind : ∀ k, Ordered (Layout.elements s.lower k).toArray
      (Layout.elements s.upper k).toArray := by
    intro k
    unfold Layout.elements
    rcases h.tables k with ⟨hlower, hupper⟩ | ⟨lower, upper, hlower, hupper, hbrackets⟩
    · rw [hlower, hupper]
      exact ordered_empty
    · rw [hlower, hupper]
      exact hbrackets.ordered
  have hkinds : ∀ ks : List Kind, Ordered (ks.flatMap (Layout.elements s.lower)).toArray
      (ks.flatMap (Layout.elements s.upper)).toArray := by
    intro ks
    induction ks with
    | nil => exact ordered_empty
    | cons k ks ih =>
      rw [List.flatMap_cons, List.flatMap_cons, ← List.append_toArray, ← List.append_toArray]
      exact (hkind k).append ih
  exact hkinds Kind.all

end Scheme
end Collocation
