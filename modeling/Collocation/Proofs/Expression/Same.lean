import Collocation.Proofs.Expression.Column

/-! # Same expressions have the same value

  Two single numbers that are recognized as the same have one value, whatever the symbols are. The
  parts of a concatenation decide its value, since they follow each other in it. -/

namespace Collocation

/-! ## Elements of concatenations -/

namespace Matrix

variable {α : Type} [Number α] {a b : Matrix α}

/-- The elements, column by column. -/
def elements (a : Matrix α) : List α := a.data.toList

omit [Number α] in
theorem ext_elements (hextent : a.extent = b.extent) (h : a.elements = b.elements) : a = b :=
  ext hextent (Array.toList_inj.mp h)

omit [Number α] in
theorem length_elements (a : Matrix α) : a.elements.length = a.extent.size := by
  rw [elements, Array.length_toList, a.size_data]

omit [Number α] in
/-- One column is given by its elements. -/
theorem eq_column {n : Nat} {xs : Array α} (hextent : a.extent = ⟨n, 1⟩)
    (h : a.elements = xs.toList) : a = .column xs := by
  refine ext_elements ?_ h
  have hsize := a.length_elements
  rw [h, Array.length_toList, hextent, Extent.size_column] at hsize
  rw [hextent, ← hsize]
  rfl

theorem getElem?_elements {k : Nat} (h : k < a.extent.size) : a.elements[k]? = some (a.get k) := by
  rw [← a.size_data] at h
  simp [elements, get, h]

/-- A matrix with the elements of one matrix before those of another. -/
theorem elements_eq_append {c : Matrix α} (hsize : c.extent.size = a.extent.size + b.extent.size)
    (h : ∀ k < c.extent.size,
      c.get k = if k < a.extent.size then a.get k else b.get (k - a.extent.size)) :
    c.elements = a.elements ++ b.elements := by
  apply List.ext_getElem?
  intro k
  by_cases hk : k < c.extent.size
  · rw [getElem?_elements hk, h k hk, List.getElem?_append, length_elements]
    split
    · next hlt => rw [getElem?_elements hlt]
    · rw [getElem?_elements (by omega)]
  · rw [List.getElem?_eq_none (by rw [length_elements]; omega), List.getElem?_eq_none]
    rw [List.length_append, length_elements, length_elements]
    omega

/-- Columns one above the other keep their elements together. -/
theorem elements_above {m n : Nat} (ha : a.extent = ⟨m, 1⟩) (hb : b.extent = ⟨n, 1⟩) :
    (above a b).elements = a.elements ++ b.elements := by
  have hextent : (above a b).extent = ⟨m + n, 1⟩ := extent_above ha hb
  apply elements_eq_append
  · simp [hextent, ha, hb]
  · intro k hk
    rw [hextent, Extent.size_column] at hk
    rw [get_above ha hb hk, ha, Extent.size_column]

/-- Matrices one beside the other keep their elements together. -/
theorem elements_beside {r m n : Nat} (ha : a.extent = ⟨r, m⟩) (hb : b.extent = ⟨r, n⟩) :
    (beside a b).elements = a.elements ++ b.elements := by
  have hvoid : ∀ {c : Matrix α}, c.isVoid = true → c.elements = [] := by
    intro c hc
    have hextent : c.extent = ⟨0, 0⟩ := of_decide_eq_true hc
    rw [← List.length_eq_zero_iff, length_elements, hextent]
    rfl
  unfold beside
  split_ifs with hleft hright
  · rw [hvoid hleft, List.nil_append]
  · rw [hvoid hright, List.append_nil]
  · have hsize : a.size = a.extent.size := a.size_data
    apply elements_eq_append
    · simp [ha, hb, rows, cols, Extent.size, Nat.mul_add]
    · intro k hk
      rw [extent_ofColumnMajor] at hk
      rw [get_ofColumnMajor _ _ hk, hsize]

end Matrix

namespace Expr

variable {σ α : Type} [Number α] {env : σ → Matrix α} {a b e : Expr σ α}

/-! ## Parts -/

/-- The elements of a column are those of its parts. -/
theorem elements_rowParts {n : Nat} (h : e.HasSize (fun i => (env i).extent) ⟨n, 1⟩) :
    (e.eval env).elements = (e.rowParts.map fun x => (x.eval env).elements).flatten := by
  fun_induction rowParts e generalizing n with
  | case1 a b iha ihb =>
    rw [List.map_append, List.flatten_append]
    cases h with
    | above ha hb =>
      rw [← iha ha, ← ihb hb, eval]
      exact Matrix.elements_above (ha.extent_eval fun _ => rfl) (hb.extent_eval fun _ => rfl)
  | case2 e => simp

/-- The elements of a matrix are those of its parts from left to right. -/
theorem elements_colParts {s : Extent} (h : e.HasSize (fun i => (env i).extent) s) :
    (e.eval env).elements = (e.colParts.map fun x => (x.eval env).elements).flatten := by
  fun_induction colParts e generalizing s with
  | case1 a b iha ihb =>
    rw [List.map_append, List.flatten_append]
    cases h with
    | beside ha hb =>
      rw [← iha ha, ← ihb hb, eval]
      exact Matrix.elements_beside (ha.extent_eval fun _ => rfl) (hb.extent_eval fun _ => rfl)
  | case2 e => simp

/-- Columns one below the other are one column, which keeps their elements together. -/
theorem elements_stacked {es : List (Expr σ α)}
    (h : ∀ e ∈ es, ∃ n, (e.eval env).extent = ⟨n, 1⟩) :
    (∃ n, ((stacked es).eval env).extent = ⟨n, 1⟩) ∧
      ((stacked es).eval env).elements = es.flatMap fun e => (e.eval env).elements := by
  induction es with
  | nil => exact ⟨⟨0, rfl⟩, rfl⟩
  | cons e es ih =>
    obtain ⟨m, hfirst⟩ := h e List.mem_cons_self
    obtain ⟨⟨n, hrest⟩, helements⟩ := ih fun e' he' => h e' (List.mem_cons_of_mem e he')
    -- a single part stands alone, without an empty column below it
    cases es with
    | nil =>
      refine ⟨⟨m, hfirst⟩, ?_⟩
      rw [List.flatMap_cons, List.flatMap_nil, List.append_nil]
      rfl
    | cons e' es =>
      refine ⟨⟨m + n, Matrix.extent_above hfirst hrest⟩, ?_⟩
      rw [List.flatMap_cons, ← helements]
      exact Matrix.elements_above hfirst hrest

omit [Number α] in
/-- The operands of a single number are single numbers. -/
theorem unit_of_zip {Γ : σ → Extent} {f : BinaryOp} (h : (zip f a b).HasSize Γ .unit) :
    a.HasSize Γ .unit ∧ b.HasSize Γ .unit := by
  generalize hu : Extent.unit = u at h
  cases h with
  | @zip _ _ s t _ _ ha hb hv =>
    obtain ⟨rfl, rfl⟩ : s = u ∧ t = u := by
      unfold zipExtent? sizeIf Matrix.commonExtent at hv
      grind
    exact ⟨ha, hb⟩

/-! ## Comparing -/

variable [DecidableEq σ]

theorem eval_of_sameSymbol (h : sameSymbol a b) : a.eval env = b.eval env := by
  unfold sameSymbol at h
  split at h
  · rw [eval, eval, of_decide_eq_true h]
  · cases h

theorem elements_of_sameSymbols {xs ys : List (Expr σ α)} (h : sameSymbols xs ys) :
    (xs.map fun x => (x.eval env).elements) = ys.map fun y => (y.eval env).elements := by
  induction xs generalizing ys with
  | nil =>
    cases ys with
    | nil => rfl
    | cons y ys => cases h
  | cons x xs ih =>
    cases ys with
    | nil => cases h
    | cons y ys =>
      simp only [sameSymbols, List.length_cons, List.zip_cons_cons, List.all_cons,
        Bool.and_eq_true, decide_eq_true_eq, Nat.add_right_cancel_iff] at h
      obtain ⟨hlength, hfirst, hrest⟩ := h
      have hys : sameSymbols xs ys := by
        rw [sameSymbols, decide_eq_true hlength, Bool.true_and]
        exact hrest
      rw [List.map_cons, List.map_cons, eval_of_sameSymbol hfirst, ih hys]

end Expr

/-! ## The same single number -/

namespace Expr

open Extended

variable {σ K : Type} [DecidableEq σ] [Field K] [LinearOrder K] [FloorRing K] [Interpretation K]
  {env : σ → Matrix (Extended K)} {a b : Expr σ (Extended K)}

/-- The order of the operands does not matter to an operation that commutes. -/
theorem zip_commutes {f : BinaryOp} (hf : f.commutes) {m n : Matrix (Extended K)}
    (hextent : m.extent = n.extent) : Matrix.zip f.apply m n = Matrix.zip f.apply n m := by
  have hswap : ∀ x y : Extended K, f.apply x y = f.apply y x := by
    intro x y
    cases f with
    | add => exact add_commutes x y
    | mul => exact mul_commutes x y
    | sub | div | power | least | greatest => cases hf
  unfold Matrix.zip
  rw [if_pos hextent, if_pos hextent.symm, hextent]
  exact congrArg _ (funext fun k => hswap _ _)

/-- What is recognized as the same single number has the same value. -/
theorem eval_of_same (h : same a b) (ha : a.HasSize (fun i => (env i).extent) .unit)
    (hb : b.HasSize (fun i => (env i).extent) .unit) : a.eval env = b.eval env := by
  have hextent : (a.eval env).extent = (b.eval env).extent :=
    (ha.extent_eval fun _ => rfl).trans (hb.extent_eval fun _ => rfl).symm
  unfold same at h
  split at h
  -- symbols and constants
  case h_1 => rw [eval, eval, of_decide_eq_true h]
  case h_2 m n =>
    obtain ⟨hsize, hall⟩ := Bool.and_eq_true_iff.mp h
    refine Matrix.ext hextent (Array.ext ?_ ?_)
    · rw [Matrix.size_data, Matrix.size_data, hextent]
    · intro k hk hk'
      have hpair := Array.all_eq_true.mp hall k (by simpa using ⟨hk, hk'⟩)
      rw [Array.getElem_zip, equal_iff] at hpair
      exact hpair.2
  -- operations on the same symbols
  case h_3 =>
    obtain ⟨hf, hsame⟩ := Bool.and_eq_true_iff.mp h
    rw [eval, eval, of_decide_eq_true hf, eval_of_sameSymbol hsame]
  case h_4 f x y g z w =>
    obtain ⟨hf, hsame⟩ := Bool.and_eq_true_iff.mp h
    obtain rfl := of_decide_eq_true hf
    rw [Bool.or_eq_true, Bool.and_eq_true, Bool.and_eq_true, Bool.and_eq_true] at hsame
    rw [eval, eval]
    rcases hsame with ⟨hxz, hyw⟩ | ⟨⟨hcommutes, hxw⟩, hyz⟩
    · rw [eval_of_sameSymbol hxz, eval_of_sameSymbol hyw]
    · obtain ⟨hz, hw⟩ := unit_of_zip hb
      rw [eval_of_sameSymbol hxw, eval_of_sameSymbol hyz]
      exact zip_commutes hcommutes
        ((hw.extent_eval fun _ => rfl).trans (hz.extent_eval fun _ => rfl).symm)
  case h_5 => rw [eval, eval, eval_of_sameSymbol h]
  -- concatenations of the same symbols
  case h_6 x y z w =>
    apply Matrix.ext_elements hextent
    rw [elements_rowParts ha, elements_rowParts hb]
    exact congrArg List.flatten (elements_of_sameSymbols (Bool.and_eq_true_iff.mp h).2)
  case h_7 x y z w =>
    apply Matrix.ext_elements hextent
    rw [elements_colParts ha, elements_colParts hb]
    exact congrArg List.flatten (elements_of_sameSymbols h)
  -- parts of the same symbol
  case h_8 =>
    rw [Bool.and_eq_true, Bool.and_eq_true] at h
    obtain ⟨⟨hextent, hstart⟩, hsame⟩ := h
    rw [eval, eval, of_decide_eq_true hextent, of_decide_eq_true hstart, eval_of_sameSymbol hsame]
  case h_9 =>
    obtain ⟨hextent, hsame⟩ := Bool.and_eq_true_iff.mp h
    rw [eval, eval, of_decide_eq_true hextent, eval_of_sameSymbol hsame]
  case h_10 => cases h

end Expr
end Collocation
