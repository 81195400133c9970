import Collocation.Expression.Sized
import Collocation.Proofs.Expression.Size

/-! # Sound expressions

  What the builder of expressions keeps true of every sized expression: its parts fit together to
  the size that it carries, and no sum, difference or product in it is zero in any case without
  having been made a constant. The second half is why dropping an expression that vanishes loses
  nothing: on such expressions to vanish is to be a constant zero. -/

namespace Collocation

variable {σ α : Type} [Number α]

namespace Expr

/-! ## Settled expressions -/

/-- No operation in the expression vanishes, and no result of a call stands in it. -/
def Settled : Expr σ α → Prop
  | const _ | symbol _ _ => True
  | map _ e | transpose e | sumRows e | slice _ _ e | tile _ e | fill _ e => e.Settled
  | zip f a b => a.Settled ∧ b.Settled ∧ (zip f a b).vanishes = false
  | dot a b | product a b | above a b | beside a b => a.Settled ∧ b.Settled
  | given _ _ => False

theorem vanishes_eq_isZero {e : Expr σ α} (h : e.Settled) : e.vanishes = e.isZero := by
  cases e with
  | zip f a b =>
    obtain ⟨-, -, hv⟩ := h
    rw [hv]
    rfl
  | given a r => exact h.elim
  | _ => rfl

variable {Γ : σ → Extent}

/-! ## Constants -/

theorem hasSize_constant (extent : Extent) (x : α) :
    HasSize Γ (constant extent x : Expr σ α) extent := .const _

theorem hasSize_ofMatrix (m : Matrix α) : HasSize Γ (ofMatrix m : Expr σ α) m.extent := by
  unfold ofMatrix
  cases m.uniform? with
  | some x => exact hasSize_constant _ x
  | none => exact .const m

theorem settled_ofMatrix (m : Matrix α) : (ofMatrix m : Expr σ α).Settled := by
  unfold ofMatrix
  cases m.uniform? <;> trivial

theorem hasSize_hollow (extent : Extent) : HasSize Γ (hollow extent : Expr σ α) extent := by
  refine .product (.const _) (.const _) ?_
  simp [productExtent?, Matrix.fill, Extent.unit, sizeIf]

theorem settled_hollow (extent : Extent) : (hollow extent : Expr σ α).Settled := ⟨trivial, trivial⟩

/-- The value of a constant has its size. -/
theorem extent_of_matrix? {e : Expr σ α} {s : Extent} {m : Matrix α} (h : HasSize Γ e s)
    (hm : e.matrix? = some m) : m.extent = s := by
  unfold matrix? at hm
  split at hm
  · cases hm
    cases h
    rfl
  · next m n =>
    -- a product of two constants stands for a matrix without stored elements
    split at hm
    · next hcols =>
      cases hm
      rcases h with _ | _ | _ | _ | _ | _ | _ | ⟨ha, hb, hu⟩
      cases ha
      cases hb
      exact Matrix.extent_product hu
    · cases hm
  · cases hm

/-! ## Operations on one matrix -/

theorem hasSize_simpleMap (f : UnaryOp) {e : Expr σ α} {s : Extent} (h : HasSize Γ e s) :
    HasSize Γ (simpleMap f e) s := by
  fun_induction simpleMap f e with
  -- an operation after another one: the first stays, both go, another stays, or both stay
  | case1 f g e hafter => exact h
  | case2 f g e hafter => cases h; assumption
  | case3 f g e k hafter ih =>
    cases h with
    | map _ he => exact ih he
  | case4 f g e hafter => exact .map f h
  -- a constant is mapped at once, unless it has no stored elements
  | case5 f e hmap m hm hhollow => exact h
  | case6 f e hmap m hm hhollow =>
    rw [← extent_of_matrix? h hm]
    exact hasSize_ofMatrix _
  | case7 f e hmap hm => exact .map f h

theorem settled_simpleMap (f : UnaryOp) {e : Expr σ α} (h : e.Settled) :
    (simpleMap f e).Settled := by
  fun_induction simpleMap f e with
  | case1 f g e hafter => exact h
  | case2 f g e hafter => exact h
  | case3 f g e k hafter ih => exact ih h
  | case4 f g e hafter => exact h
  | case5 f e hmap m hm hhollow => exact h
  | case6 f e hmap m hm hhollow => exact settled_ofMatrix _
  | case7 f e hmap hm => exact h

end Expr

/-! ## Sound sized expressions -/

namespace Sized

/-- The parts fit to the size that is carried, and nothing in it vanishes unnoticed. -/
structure Sound (Γ : σ → Extent) (a : Sized σ α) : Prop where
  size : a.expr.HasSize Γ a.extent
  settled : a.expr.Settled

/-- Sound, and of the size `u` or a single element: an operand of an operation that has the
    size `u`. -/
structure Fits (Γ : σ → Extent) (u : Extent) (a : Sized σ α) : Prop extends Sound Γ a where
  extent : a.extent = u ∨ a.extent = .unit

variable {Γ : σ → Extent} {u : Extent} {a b : Sized σ α}

theorem sound_constant (extent : Extent) (x : α) : (constant extent x : Sized σ α).Sound Γ :=
  ⟨Expr.hasSize_constant _ _, trivial⟩

theorem sound_ofMatrix (m : Matrix α) : (ofMatrix m : Sized σ α).Sound Γ :=
  ⟨Expr.hasSize_ofMatrix _, Expr.settled_ofMatrix _⟩

theorem sound_hollow (extent : Extent) : (hollow extent : Sized σ α).Sound Γ :=
  ⟨Expr.hasSize_hollow _, Expr.settled_hollow _⟩

theorem sound_symbol (s : σ) : (symbol s (Γ s) : Sized σ α).Sound Γ := ⟨.symbol s, trivial⟩

theorem sound_computed : a.computed.Sound Γ := sound_ofMatrix _

theorem Sound.map (h : a.Sound Γ) (f : UnaryOp) : (a.map f).Sound Γ :=
  ⟨Expr.hasSize_simpleMap f h.size, Expr.settled_simpleMap f h.settled⟩

theorem Fits.map (h : a.Fits Γ u) (f : UnaryOp) : (a.map f).Fits Γ u :=
  ⟨h.toSound.map f, h.extent⟩

/-! ### Parts -/

omit [Number α] in
theorem part_extent {e : Expr σ α} {s : Extent} (h : e.HasSize Γ s) :
    (a.part e).extent = s := by
  simp [part, h.extent?_eq]

theorem Sound.part {e : Expr σ α} {s : Extent} (h : e.HasSize Γ s) (hs : e.Settled) :
    (a.part e).Sound Γ := by
  refine ⟨?_, hs⟩
  rw [part_extent h]
  exact h

/-- What an operation on one matrix was applied to. -/
theorem Fits.of_map (h : a.Fits Γ u) {f : UnaryOp} {x : Expr σ α} (he : a.expr = .map f x) :
    (a.part x).Fits Γ u := by
  have hsize := h.size
  have hsettled := h.settled
  rw [he] at hsize hsettled
  cases hsize with
  | map _ hx =>
    refine ⟨.part hx hsettled, ?_⟩
    rw [part_extent hx]
    exact h.extent

/-- The operands of an elementwise operation have its size or are single elements. -/
theorem Fits.of_zip (h : a.Fits Γ u) {f : BinaryOp} {x y : Expr σ α}
    (he : a.expr = .zip f x y) : (a.part x).Fits Γ u ∧ (a.part y).Fits Γ u := by
  have hsize := h.size
  obtain ⟨hx', hy', -⟩ : (Expr.zip f x y).Settled := he ▸ h.settled
  have hu := h.extent
  rw [he] at hsize
  cases hsize with
  | @zip _ _ s t _ _ hx hy hv =>
    -- by the size rule each operand has the size of the result or is a single element
    have hst : (s = a.extent ∨ s = .unit) ∧ (t = a.extent ∨ t = .unit) := by
      unfold Expr.zipExtent? Expr.sizeIf Matrix.commonExtent at hv
      grind
    refine ⟨⟨.part hx hx', ?_⟩, ⟨.part hy hy', ?_⟩⟩
    · rw [part_extent hx]
      rcases hst.1 with hs | hs
      · exact hu.imp hs.trans hs.trans
      · exact .inr hs
    · rw [part_extent hy]
      rcases hst.2 with ht | ht
      · exact hu.imp ht.trans ht.trans
      · exact .inr ht

/-! ## Changes of size -/

theorem Fits.spread (h : a.Fits Γ u) : (a.spread u).Sound Γ ∧ (a.spread u).extent = u := by
  unfold Sized.spread
  split
  · next hu => exact ⟨h.toSound, hu⟩
  · next hu =>
    -- only a single element is spread
    have hunit := h.extent.resolve_left hu
    cases a.expr.constant? with
    | some x => exact ⟨sound_constant _ x, rfl⟩
    | none => exact ⟨⟨.fill u (hunit ▸ h.size), h.settled⟩, rfl⟩

theorem Sound.tile (h : a.Sound Γ) (n : Nat) : (a.tile n).Sound Γ := by
  unfold Sized.tile
  split
  · exact h
  · exact ⟨.tile n h.size, h.settled⟩

omit [Number α] in
theorem tile_extent (a : Sized σ α) (n : Nat) :
    (a.tile n).extent = ⟨a.extent.rows, a.extent.cols * n⟩ := by
  unfold Sized.tile
  split
  · next hn => simp [hn]
  · rfl

omit [Number α] in
/-- A slice that covers another shape of an expression is one of the expression's own size. -/
theorem hasSize_reshaped? {e whole : Expr σ α} {s : Extent} (h : e.HasSize Γ s)
    (hw : reshaped? e = some whole) : ∃ t, whole.HasSize Γ t ∧ t.size = s.size := by
  unfold reshaped? at hw
  split at hw
  · next extent e =>
    cases h with
    | slice _ _ he hs =>
      rw [he.extent?_eq] at hw
      simp only at hw
      split at hw
      · next hsize =>
        cases hw
        exact ⟨_, he, hsize.1⟩
      · cases hw
  · cases hw

theorem settled_reshaped? {e whole : Expr σ α} (h : e.Settled) (hw : reshaped? e = some whole) :
    whole.Settled := by
  unfold reshaped? at hw
  split at hw
  · split at hw
    · split at hw
      · cases hw
        exact h
      · cases hw
    · cases hw
  · cases hw

/-- A slice within the size of an expression, however far inside it is looked for. -/
theorem hasSize_sliceExpr {extent : Extent} {start : Nat} {e : Expr σ α} {s : Extent}
    (h : e.HasSize Γ s) (hs : start + extent.size ≤ s.size) :
    (sliceExpr extent start e).HasSize Γ extent := by
  -- the induction follows the search, one case for each place where it may end or go on
  fun_induction sliceExpr extent start e generalizing s with
  -- a slice of a slice
  | case1 start extent' start' e hwhole =>
    cases h with
    | slice _ _ he hin =>
      rw [hwhole.2]
      exact .slice _ _ he hin
  | case2 start extent' start' e hne hshape => exact .slice _ _ h hs
  | case3 start extent' start' e hne hshape ih =>
    cases h with
    | slice _ _ he hin => exact ih he (by omega)
  -- a slice of a filled matrix
  | case4 start extent' e hunit ih =>
    cases h with
    | fill _ he => exact ih he (by simp [hunit, Extent.size, Extent.unit])
  | case5 start extent' e hunit =>
    cases h with
    | fill _ he => exact .fill _ he
  -- a slice of two matrices above each other: all of it, in the upper, in the lower, or in both
  | case6 start a b s' t' ht' hs' hwhole =>
    obtain ⟨-, -, hextent, -⟩ := h.of_above hs' ht'
    rw [hwhole.2, ← hextent]
    exact h
  | case7 start a b s' t' ht' hs' hne hin ih => exact ih (h.of_above hs' ht').1 hin.2
  | case8 start a b s' t' ht' hs' hne hnin hin ih =>
    obtain ⟨-, hb, rfl, hcols⟩ := h.of_above hs' ht'
    refine ih hb ?_
    simp only [Extent.size, Nat.add_mul, hcols] at hs hin ⊢
    omega
  | case9 start a b s' t' ht' hs' hne hnin hnin' => exact .slice _ _ h hs
  | case10 start a b hsizes => exact .slice _ _ h hs
  -- the same beside each other
  | case11 start a b s' t' ht' hs' hwhole =>
    obtain ⟨-, -, hextent, -⟩ := h.of_beside hs' ht'
    rw [hwhole.2, ← hextent]
    exact h
  | case12 start a b s' t' ht' hs' hne hin ih => exact ih (h.of_beside hs' ht').1 hin
  | case13 start a b s' t' ht' hs' hne hnin hin ih =>
    obtain ⟨-, hb, rfl, hrows⟩ := h.of_beside hs' ht'
    refine ih hb ?_
    simp only [Extent.size, Nat.mul_add, hrows] at hs hin ⊢
    omega
  | case14 start a b s' t' ht' hs' hne hnin hnin' => exact .slice _ _ h hs
  | case15 start a b hsizes => exact .slice _ _ h hs
  -- a slice of a constant, and of whatever else
  | case16 start m => exact Expr.hasSize_ofMatrix _
  | case17 start e _ _ _ _ _ hwhole =>
    rw [h.extent?_eq] at hwhole
    cases hwhole.2
    exact h
  | case18 start e _ _ _ _ _ hne => exact .slice _ _ h hs

theorem settled_sliceExpr (extent : Extent) (start : Nat) {e : Expr σ α} (h : e.Settled) :
    (sliceExpr extent start e).Settled := by
  fun_induction sliceExpr extent start e with
  -- the search goes into a part, and a part of a settled expression is settled
  | case3 start extent' start' e hne hshape ih => exact ih h
  | case4 start extent' e hunit ih => exact ih h
  | case7 start a b s' t' ht' hs' hne hin ih => exact ih h.1
  | case8 start a b s' t' ht' hs' hne hnin hin ih => exact ih h.2
  | case12 start a b s' t' ht' hs' hne hin ih => exact ih h.1
  | case13 start a b s' t' ht' hs' hne hnin hin ih => exact ih h.2
  | case16 start m => exact Expr.settled_ofMatrix _
  | _ => exact h

theorem Sound.slice (h : a.Sound Γ) {extent : Extent} {start : Nat}
    (hs : start + extent.size ≤ a.extent.size) : (a.slice extent start).Sound Γ := by
  unfold Sized.slice
  split
  · exact sound_constant _ _
  · exact ⟨hasSize_sliceExpr h.size hs, settled_sliceExpr _ _ h.settled⟩

theorem reshape_extent (a : Sized σ α) (extent : Extent) : (a.reshape extent).extent = extent := by
  unfold Sized.reshape
  split
  · next he => exact he
  · split
    · rfl
    · simp only
      split <;> rfl

theorem hasSize_reshape (h : a.expr.HasSize Γ a.extent) {extent : Extent}
    (hs : extent.size = a.extent.size) : (a.reshape extent).expr.HasSize Γ extent := by
  unfold Sized.reshape
  split
  · next he => exact he ▸ h
  · split
    · exact Expr.hasSize_ofMatrix _
    · -- whatever the change of shape is taken from has as many elements
      obtain ⟨t, hw, ht⟩ : ∃ t, ((reshaped? a.expr).getD a.expr).HasSize Γ t ∧
          t.size = a.extent.size := by
        cases hr : reshaped? a.expr with
        | some whole => exact hasSize_reshaped? h hr
        | none => exact ⟨_, h, rfl⟩
      simp only
      split
      · next he =>
        rw [hw.extent?_eq] at he
        cases he
        exact hw
      · exact .slice _ _ hw (by omega)

theorem settled_reshape (h : a.expr.Settled) (extent : Extent) :
    (a.reshape extent).expr.Settled := by
  unfold Sized.reshape
  split
  · exact h
  · split
    · exact Expr.settled_ofMatrix _
    · have hw : ((reshaped? a.expr).getD a.expr).Settled := by
        cases hr : reshaped? a.expr with
        | some whole => exact settled_reshaped? h hr
        | none => exact h
      simp only
      split <;> exact hw

theorem Sound.reshape (h : a.Sound Γ) {extent : Extent} (hs : extent.size = a.extent.size) :
    (a.reshape extent).Sound Γ ∧ (a.reshape extent).extent = extent := by
  have hextent := reshape_extent a extent
  exact ⟨⟨hextent.symm ▸ hasSize_reshape h.size hs, settled_reshape h.settled extent⟩, hextent⟩

/-- All elements as one column. -/
theorem Sound.vec (h : a.Sound Γ) : a.vec.Sound Γ ∧ a.vec.extent = ⟨a.extent.size, 1⟩ :=
  h.reshape (by simp [Extent.size])

theorem Sound.transpose (h : a.Sound Γ) : a.transpose.Sound Γ := by
  unfold Sized.transpose
  split
  · exact (h.reshape (by simp [Extent.size, Extent.transpose, Nat.mul_comm])).1
  · have hsize := h.size
    have hsettled := h.settled
    split
    · exact sound_ofMatrix _
    · next e he =>
      -- twice transposed is as it was
      rw [he] at hsize hsettled
      generalize a.extent = s at hsize ⊢
      cases hsize with
      | transpose hx => exact ⟨hx, hsettled⟩
    · exact ⟨.transpose hsize, hsettled⟩

theorem Sound.sumRows (h : a.Sound Γ) : a.sumRows.Sound Γ := by
  unfold Sized.sumRows
  simp only
  split
  · exact h
  · split
    · exact sound_hollow _
    · cases a.expr.matrix? with
      | some m => exact sound_ofMatrix _
      | none => exact ⟨.sumRows h.size, h.settled⟩

end Sized
end Collocation
