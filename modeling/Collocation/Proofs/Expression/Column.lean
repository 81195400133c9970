import Collocation.Proofs.Exact
import Collocation.Proofs.Expression.Sound

/-! # Columns

  Expressions whose values are columns with known elements, combined element by element. In exact
  arithmetic an expression that vanishes has no other elements than zero, also after expressions
  have taken the place of its symbols, as long as these read decision variables. -/

namespace Collocation

/-! ## Elements of elementwise operations -/

namespace Matrix

variable {α : Type} [Number α] {f : α → α → α} {a b : Matrix α} {k : Nat}

theorem get_eq_getElem (h : k < a.data.size) : a.get k = a.data[k] := by
  simp [get, h]

theorem get_map {g : α → α} (h : k < a.extent.size) : (a.map g).get k = g (a.get k) := by
  rw [← a.size_data] at h
  simp [get, map, h]

theorem get_zip (hextent : a.extent = b.extent) (h : k < a.extent.size) :
    (zip f a b).get k = f (a.get k) (b.get k) := by
  unfold zip
  rw [if_pos hextent, get_ofColumnMajor _ _ h]

/-- A single element on the left meets every element. -/
theorem zip_eq_map (hunit : a.extent = .unit) : zip f a b = b.map (f (a.get 0)) := by
  unfold zip
  by_cases hextent : a.extent = b.extent
  · rw [if_pos hextent]
    -- then there is one element on the right as well
    refine ext hextent (Array.ext (by simp [ofColumnMajor, map, hextent, b.size_data]) ?_)
    intro k hk hk'
    have hsize : b.data.size = 1 := by rw [b.size_data, ← hextent, hunit, Extent.size_unit]
    obtain rfl : k = 0 := by
      simp only [map, Array.size_map, hsize] at hk'
      omega
    simp [ofColumnMajor, map, get, hsize]
  · rw [if_neg hextent, if_pos hunit]

/-- A single element on the right meets every element. -/
theorem get_zip_single_right (hunit : b.extent = .unit) (h : k < a.extent.size) :
    (zip f a b).get k = f (a.get k) (b.get 0) := by
  by_cases hextent : a.extent = b.extent
  · have hk : k = 0 := by
      rw [hextent, hunit, Extent.size_unit] at h
      omega
    rw [get_zip hextent h, hk]
  · unfold zip
    rw [if_neg hextent, if_neg fun ha => hextent (ha.trans hunit.symm), get_map h]

theorem get_column {xs : Array α} : (column xs).get k = xs.getD k default := rfl

/-- One column above another. -/
theorem get_above {m n : Nat} (ha : a.extent = ⟨m, 1⟩) (hb : b.extent = ⟨n, 1⟩) (h : k < m + n) :
    (above a b).get k = if k < m then a.get k else b.get (k - m) := by
  unfold above isVoid
  rw [if_neg (by simp [ha]), if_neg (by simp [hb])]
  have hk : k < Extent.size ⟨a.rows + b.rows, a.cols⟩ := by
    simpa [rows, cols, ha, hb, Extent.size] using h
  have hlt : k < a.rows + b.rows := by simpa [rows, ha, hb] using h
  rw [ofFn, get_ofColumnMajor _ _ hk]
  simp only [Nat.mod_eq_of_lt hlt, Nat.div_eq_of_lt hlt, entry, Nat.zero_mul, Nat.zero_add]
  simp only [rows, ha, hb] at hlt ⊢
  split
  · rfl
  · rw [if_pos (by omega)]

end Matrix

namespace Expr

variable {σ τ α : Type} [Number α] {env : σ → Matrix α} {a b e : Expr σ α} {n : Nat}
  {g h : Nat → α} {x : α}

/-! ## Columns of known elements -/

/-- The expression is a column of `n` elements, which at the given values of the symbols are
    those of `g`. -/
structure IsColumn (env : σ → Matrix α) (e : Expr σ α) (n : Nat) (g : Nat → α) : Prop where
  size : e.HasSize (fun i => (env i).extent) ⟨n, 1⟩
  get : ∀ k < n, (e.eval env).get k = g k

namespace IsColumn

theorem extent_eval (ha : a.IsColumn env n g) : (a.eval env).extent = ⟨n, 1⟩ :=
  ha.size.extent_eval fun _ => rfl

/-- A column with the elements of an array is this array. -/
theorem data_eq {xs : Array α} (ha : a.IsColumn env n fun k => xs.getD k default)
    (hsize : xs.size = n) : (a.eval env).data = xs := by
  have hdata : (a.eval env).data.size = n := by
    rw [(a.eval env).size_data, ha.extent_eval, Extent.size, Nat.mul_one]
  refine Array.ext (hdata.trans hsize.symm) ?_
  intro k hk hk'
  have hget := ha.get k (hdata ▸ hk)
  simpa [Matrix.get, hk, hk'] using hget

theorem congr (ha : a.IsColumn env n g) (hg : ∀ k < n, g k = h k) : a.IsColumn env n h :=
  ⟨ha.size, fun k hk => (ha.get k hk).trans (hg k hk)⟩

theorem number (x : α) : (Expr.number x).IsColumn env 1 fun _ => x := by
  refine ⟨.const _, ?_⟩
  intro k hk
  obtain rfl : k = 0 := by omega
  rfl

/-- A symbol of a single number. -/
theorem symbol {i : σ} (hi : (env i).extent = .unit) :
    (Expr.symbol i .unit).IsColumn env 1 fun _ => (env i).get 0 := by
  have hsize : (Expr.symbol i (env i).extent : Expr σ α).HasSize (fun i => (env i).extent)
      (env i).extent := .symbol i
  rw [hi] at hsize
  refine ⟨hsize, ?_⟩
  intro k hk
  obtain rfl : k = 0 := by omega
  rfl

theorem zip (f : BinaryOp) (ha : a.IsColumn env n g) (hb : b.IsColumn env n h) :
    (zip f a b).IsColumn env n fun k => f.apply (g k) (h k) := by
  refine ⟨.zip f ha.size hb.size ?_, ?_⟩
  · simp [zipExtent?, sizeIf, Matrix.commonExtent]
  · intro k hk
    have hextent := ha.extent_eval.trans hb.extent_eval.symm
    have hk' : k < (a.eval env).extent.size := by simpa [ha.extent_eval, Extent.size] using hk
    rw [eval, Matrix.get_zip hextent hk', ha.get k hk, hb.get k hk]

/-- A single number with every element of a column. -/
theorem scale (f : BinaryOp) (ha : a.IsColumn env 1 fun _ => x) (hb : b.IsColumn env n h) :
    (Expr.zip f a b).IsColumn env n fun k => f.apply x (h k) := by
  refine ⟨HasSize.zip_unit_left f ha.size hb.size, ?_⟩
  intro k hk
  have hk' : k < (b.eval env).extent.size := by simpa [hb.extent_eval, Extent.size] using hk
  rw [eval, Matrix.zip_eq_map ha.extent_eval, Matrix.get_map hk', ha.get 0 (by omega),
    hb.get k hk]

/-- Every element of a column with a single number. -/
theorem scaleRight (f : BinaryOp) (ha : a.IsColumn env n g) (hb : b.IsColumn env 1 fun _ => x) :
    (Expr.zip f a b).IsColumn env n fun k => f.apply (g k) x := by
  refine ⟨.zip f ha.size hb.size ?_, ?_⟩
  · unfold zipExtent? sizeIf Matrix.commonExtent
    simp only [Extent.unit]
    grind
  · intro k hk
    have hk' : k < (a.eval env).extent.size := by simpa [ha.extent_eval, Extent.size] using hk
    rw [eval, Matrix.get_zip_single_right hb.extent_eval hk', ha.get k hk, hb.get 0 (by omega)]

theorem above {m : Nat} (ha : a.IsColumn env m g) (hb : b.IsColumn env n h) :
    (Expr.above a b).IsColumn env (m + n) fun k => if k < m then g k else h (k - m) := by
  refine ⟨.above ha.size hb.size, ?_⟩
  intro k hk
  rw [eval, Matrix.get_above ha.extent_eval hb.extent_eval hk]
  split
  · next hkm => exact ha.get k hkm
  · exact hb.get (k - m) (by omega)

end IsColumn

/-! ## Constants -/

/-- A constant has the same value everywhere. -/
theorem eval_of_matrix? {m : Matrix α} (hm : e.matrix? = some m) : e.eval env = m := by
  unfold matrix? at hm
  split at hm
  · cases hm
    rfl
  · split at hm
    · cases hm
      rfl
    · cases hm
  · cases hm

/-! ## Reading symbols -/

/-- The expression is a symbol or a part of something: it is not seen to be a constant. -/
def IsReading : Expr σ α → Prop
  | symbol _ _ | slice _ _ _ => True
  | _ => False

theorem IsReading.matrix? (h : e.IsReading) : e.matrix? = none := by
  cases e <;> first | rfl | exact h.elim

theorem IsReading.isZero (h : e.IsReading) : e.isZero = false := by
  simp [Expr.isZero, isConstant, constant?, h.matrix?]

theorem IsReading.vanishes (h : e.IsReading) : e.vanishes = false := by
  cases e <;> first | rfl | exact h.elim

variable {f : σ → Expr τ α}

theorem matrix?_subst (hf : ∀ i, (f i).IsReading) : (e.subst f).matrix? = e.matrix? := by
  cases e with
  | symbol s extent => exact (hf s).matrix?
  | product a b =>
    -- a product is a constant only if both factors are written as such
    have hleft : ∀ s b, (product (f s) b).matrix? = none := by
      intro s b
      have hs := hf s
      cases hfs : f s <;> first | rfl | exact (hfs ▸ hs).elim
    have hright : ∀ m s, (product (const m) (f s)).matrix? = none := by
      intro m s
      have hs := hf s
      cases hfs : f s <;> first | rfl | exact (hfs ▸ hs).elim
    cases a with
    | const m =>
      cases b with
      | symbol s _ => exact hright m s
      | _ => rfl
    | symbol s _ => exact hleft s _
    | _ => rfl
  | _ => rfl

theorem isZero_subst (hf : ∀ i, (f i).IsReading) : (e.subst f).isZero = e.isZero := by
  simp only [isZero, isConstant, constant?, matrix?_subst hf]

/-- What is known to vanish does not depend on which decision variables are read. -/
theorem vanishes_subst (hf : ∀ i, (f i).IsReading) : (e.subst f).vanishes = e.vanishes := by
  fun_induction vanishes e with
  | case1 a r ih => exact ih
  | case2 a b iha ihb => simp only [subst, vanishes, iha, ihb]
  | case3 a b iha ihb => simp only [subst, vanishes, iha, ihb]
  | case4 a b iha ihb => simp only [subst, vanishes, iha, ihb]
  | case5 e hgiven hadd hsub hmul =>
    -- neither a call nor a sum, a difference or a product: it vanishes where it is zero
    rw [← isZero_subst hf]
    cases e with
    | symbol s extent => exact (hf s).vanishes.trans (hf s).isZero.symm
    | zip op a b =>
      cases op with
      | add => exact (hadd a b rfl).elim
      | sub => exact (hsub a b rfl).elim
      | mul => exact (hmul a b rfl).elim
      | _ => rfl
    | given a r => exact (hgiven a r rfl).elim
    | _ => rfl

end Expr

/-! ## Vanishing in exact arithmetic -/

namespace Expr

open Extended

variable {σ K : Type} [Field K] [LinearOrder K] [FloorRing K] [Interpretation K]
  {env : σ → Matrix (Extended K)} {e : Expr σ (Extended K)} {k : Nat}

/-- Every element of a uniform constant is the constant. -/
theorem get_of_uniform? {m : Matrix (Extended K)} {x : Extended K} (h : m.uniform? = some x)
    (hk : k < m.extent.size) : m.get k = x := by
  unfold Matrix.uniform? at h
  simp only [Option.ite_none_right_eq_some, Option.some.injEq] at h
  obtain ⟨hall, rfl⟩ := h
  rw [← m.size_data] at hk
  have hk' := Array.all_eq_true.mp hall k hk
  rw [← Matrix.get_eq_getElem hk] at hk'
  unfold Number.alike at hk'
  rw [Bool.or_eq_true, Bool.and_eq_true, equal_iff, isUndefined_iff, isUndefined_iff] at hk'
  rcases hk' with ⟨-, h⟩ | ⟨h, h'⟩
  · exact h.symm
  · exact h'.trans h.symm

theorem get_of_isZero {s : Extent} (hsize : e.HasSize (fun i => (env i).extent) s)
    (h : e.isZero) (hk : k < s.size) : (e.eval env).get k = finite 0 := by
  unfold isZero isConstant constant? at h
  split at h
  · next x hx =>
    obtain ⟨m, hm, hx⟩ := Option.bind_eq_some_iff.mp hx
    rw [← extent_of_matrix? hsize hm] at hk
    rw [eval_of_matrix? hm, get_of_uniform? hx hk, ← (equal_iff.mp h).2, zero_eq]
  · cases h

/-- An expression that vanishes is zero everywhere, whatever the symbols are. -/
theorem get_of_vanishes {s : Extent} (hsize : e.HasSize (fun i => (env i).extent) s)
    (hsettled : e.Settled) (h : e.vanishes) (hk : k < s.size) :
    (e.eval env).get k = finite 0 := by
  rw [vanishes_eq_isZero hsettled] at h
  exact get_of_isZero hsize h hk

end Expr
end Collocation
