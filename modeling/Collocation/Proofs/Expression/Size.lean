import Collocation.Expression
import Mathlib.Tactic.Linarith

/-! # Sizes of expressions

  A judgement that an expression over symbols of declared sizes fits together, and to which size.
  It is what `extent?` computes, read as rules, with the sizes of the symbols given from outside.
  Main statements: a judged expression has values of its size (`extent_eval`), and it keeps its
  size when expressions of the declared sizes take the place of its symbols (`subst`). -/

namespace Collocation

@[simp] theorem Extent.size_unit : Extent.unit.size = 1 := rfl

@[simp] theorem Extent.size_column (n : Nat) : Extent.size ⟨n, 1⟩ = n := Nat.mul_one n

/-! ## Sizes of values -/

namespace Matrix

variable {α : Type} [Number α]

theorem extent_zip {f : α → α → α} {a b : Matrix α} {u : Extent}
    (h : Expr.zipExtent? a.extent b.extent = some u) : (zip f a b).extent = u := by
  unfold Expr.zipExtent? Expr.sizeIf at h
  split at h
  · cases h
    unfold zip commonExtent
    -- equal sizes, or a single element on the left, or one on the right
    by_cases hab : a.extent = b.extent
    · simp [hab]
    · by_cases hunit : a.extent = .unit
      · rw [if_neg hab, if_pos hunit, if_pos hunit]
        rfl
      · rw [if_neg hab, if_neg hunit, if_neg hunit]
        rfl
  · cases h

theorem extent_product {a b : Matrix α} {u : Extent}
    (h : Expr.productExtent? a.extent b.extent = some u) : (product a b).extent = u := by
  unfold Expr.productExtent? at h
  unfold product
  split at h
  · next hunit =>
    rw [if_pos hunit]
    exact extent_zip h
  · next hunit =>
    rw [if_neg hunit]
    unfold Expr.sizeIf at h
    split at h
    · cases h
      rfl
    · cases h

theorem extent_above {a b : Matrix α} {m n c : Nat} (ha : a.extent = ⟨m, c⟩)
    (hb : b.extent = ⟨n, c⟩) : (above a b).extent = ⟨m + n, c⟩ := by
  unfold above isVoid
  rw [ha, hb]
  -- a void part, without rows and columns, leaves the other one as it is
  split_ifs with hvoid hvoid'
  · obtain ⟨rfl, rfl⟩ := by simpa using hvoid
    simpa using hb
  · obtain ⟨rfl, rfl⟩ := by simpa using hvoid'
    simpa using ha
  · simp [rows, cols, ha, hb]

theorem extent_beside {a b : Matrix α} {r m n : Nat} (ha : a.extent = ⟨r, m⟩)
    (hb : b.extent = ⟨r, n⟩) : (beside a b).extent = ⟨r, m + n⟩ := by
  unfold beside isVoid
  rw [ha, hb]
  -- as above, with rows and columns exchanged
  split_ifs with hvoid hvoid'
  · obtain ⟨rfl, rfl⟩ := by simpa using hvoid
    simpa using hb
  · obtain ⟨rfl, rfl⟩ := by simpa using hvoid'
    simpa using ha
  · simp [rows, cols, ha, hb]

end Matrix

namespace Expr

variable {σ τ α : Type}

/-- Over symbols of the sizes `Γ`, the expression fits together and has the given size. -/
inductive HasSize (Γ : σ → Extent) : Expr σ α → Extent → Prop where
  | const (m : Matrix α) : HasSize Γ (const m) m.extent
  | symbol (s : σ) : HasSize Γ (symbol s (Γ s)) (Γ s)
  | map {e : Expr σ α} {s : Extent} (f : UnaryOp) (he : HasSize Γ e s) : HasSize Γ (map f e) s
  | zip {a b : Expr σ α} {s t u : Extent} (f : BinaryOp) (ha : HasSize Γ a s) (hb : HasSize Γ b t)
      (hu : zipExtent? s t = some u) : HasSize Γ (zip f a b) u
  | transpose {e : Expr σ α} {s : Extent} (he : HasSize Γ e s) :
      HasSize Γ (transpose e) s.transpose
  | sumRows {e : Expr σ α} {s : Extent} (he : HasSize Γ e s) :
      HasSize Γ (sumRows e) ⟨1, s.cols⟩
  | dot {a b : Expr σ α} {s : Extent} (ha : HasSize Γ a s) (hb : HasSize Γ b s) :
      HasSize Γ (dot a b) .unit
  | product {a b : Expr σ α} {s t u : Extent} (ha : HasSize Γ a s) (hb : HasSize Γ b t)
      (hu : productExtent? s t = some u) : HasSize Γ (product a b) u
  | above {a b : Expr σ α} {m n c : Nat} (ha : HasSize Γ a ⟨m, c⟩) (hb : HasSize Γ b ⟨n, c⟩) :
      HasSize Γ (above a b) ⟨m + n, c⟩
  | beside {a b : Expr σ α} {r m n : Nat} (ha : HasSize Γ a ⟨r, m⟩) (hb : HasSize Γ b ⟨r, n⟩) :
      HasSize Γ (beside a b) ⟨r, m + n⟩
  | slice {e : Expr σ α} {s : Extent} (extent : Extent) (start : Nat) (he : HasSize Γ e s)
      (hs : start + extent.size ≤ s.size) : HasSize Γ (slice extent start e) extent
  | tile {e : Expr σ α} {s : Extent} (n : Nat) (he : HasSize Γ e s) :
      HasSize Γ (tile n e) ⟨s.rows, s.cols * n⟩
  | fill {e : Expr σ α} (extent : Extent) (he : HasSize Γ e .unit) :
      HasSize Γ (fill extent e) extent
  | given {a r : Expr σ α} {s t : Extent} (ha : HasSize Γ a s) (hr : HasSize Γ r t) :
      HasSize Γ (given a r) t

namespace HasSize

variable {Γ : σ → Extent} {Δ : τ → Extent}

/-! ## The judged size is the computed one -/

theorem extent?_eq {e : Expr σ α} {s : Extent} (h : HasSize Γ e s) : e.extent? = some s := by
  induction h with
  | const m => rfl
  | symbol s => rfl
  | map f _ ih => simpa [Expr.extent?] using ih
  | zip f _ _ hu iha ihb => simp [Expr.extent?, iha, ihb, hu]
  | transpose _ ih => simp [Expr.extent?, ih]
  | sumRows _ ih => simp [Expr.extent?, ih]
  | dot _ _ iha ihb => simp [Expr.extent?, iha, ihb, sizeIf]
  | product _ _ hu iha ihb => simp [Expr.extent?, iha, ihb, hu]
  | @above a b m n c _ _ iha ihb =>
    simp only [Expr.extent?, iha, ihb, aboveExtent?, sizeIf, Option.bind_eq_bind,
      Option.bind_some]
    -- a void part takes nothing away from the sum of the rows
    split_ifs <;> simp_all
  | @beside a b r m n _ _ iha ihb =>
    simp only [Expr.extent?, iha, ihb, besideExtent?, sizeIf, Option.bind_eq_bind,
      Option.bind_some]
    split_ifs <;> simp_all
  | slice extent start _ hs ih => simp [Expr.extent?, ih, sizeIf, hs]
  | tile n _ ih => simp [Expr.extent?, ih]
  | fill extent _ ih => simp [Expr.extent?, ih]
  | given _ _ iha ihr => simp [Expr.extent?, iha, ihr]

/-- Two expressions above each other have the sizes that are computed for them. -/
theorem of_above {a b : Expr σ α} {s t u : Extent} (h : HasSize Γ (Expr.above a b) u)
    (hs : a.extent? = some s) (ht : b.extent? = some t) :
    HasSize Γ a s ∧ HasSize Γ b t ∧ u = ⟨s.rows + t.rows, s.cols⟩ ∧ t.cols = s.cols := by
  cases h with
  | above ha hb =>
    cases ha.extent?_eq.symm.trans hs
    cases hb.extent?_eq.symm.trans ht
    exact ⟨ha, hb, rfl, rfl⟩

theorem of_beside {a b : Expr σ α} {s t u : Extent} (h : HasSize Γ (Expr.beside a b) u)
    (hs : a.extent? = some s) (ht : b.extent? = some t) :
    HasSize Γ a s ∧ HasSize Γ b t ∧ u = ⟨s.rows, s.cols + t.cols⟩ ∧ t.rows = s.rows := by
  cases h with
  | beside ha hb =>
    cases ha.extent?_eq.symm.trans hs
    cases hb.extent?_eq.symm.trans ht
    exact ⟨ha, hb, rfl, rfl⟩

/-- A single number fits to a matrix of any size. -/
theorem zip_unit_left {a b : Expr σ α} {s : Extent} (f : BinaryOp) (ha : HasSize Γ a .unit)
    (hb : HasSize Γ b s) : HasSize Γ (Expr.zip f a b) s := by
  refine .zip f ha hb ?_
  simp [zipExtent?, sizeIf, Matrix.commonExtent, Extent.unit]

/-! ## Values have the judged size -/

/-- Where the symbols have values of the declared sizes, so has the expression. -/
theorem extent_eval [Number α] {env : σ → Matrix α} (henv : ∀ i, (env i).extent = Γ i)
    {e : Expr σ α} {s : Extent} (h : HasSize Γ e s) : (e.eval env).extent = s := by
  induction h with
  | const m => rfl
  | symbol i => exact henv i
  | map f _ ih => exact ih
  | zip f _ _ hu iha ihb =>
    rw [← iha, ← ihb] at hu
    exact Matrix.extent_zip hu
  | transpose _ ih => simp [eval, Matrix.transpose, ih]
  | sumRows _ ih => simp [eval, Matrix.sumRows, Matrix.cols, ih]
  | dot _ _ _ _ => rfl
  | product _ _ hu iha ihb =>
    rw [← iha, ← ihb] at hu
    exact Matrix.extent_product hu
  | above _ _ iha ihb => exact Matrix.extent_above iha ihb
  | beside _ _ iha ihb => exact Matrix.extent_beside iha ihb
  | slice extent start _ _ _ => rfl
  | tile n _ ih => simp [eval, Matrix.tile, Matrix.rows, Matrix.cols, ih]
  | fill extent _ _ => rfl
  | given _ _ _ ihr => exact ihr

/-! ## Substitution -/

/-- Expressions of the declared sizes may take the place of the symbols. -/
theorem subst {f : σ → Expr τ α} (hf : ∀ i, HasSize Δ (f i) (Γ i)) {e : Expr σ α} {s : Extent}
    (h : HasSize Γ e s) : HasSize Δ (e.subst f) s := by
  induction h with
  | const m => exact .const m
  | symbol i => exact hf i
  | map g _ ih => exact .map g ih
  | zip g _ _ hu iha ihb => exact .zip g iha ihb hu
  | transpose _ ih => exact .transpose ih
  | sumRows _ ih => exact .sumRows ih
  | dot _ _ iha ihb => exact .dot iha ihb
  | product _ _ hu iha ihb => exact .product iha ihb hu
  | above _ _ iha ihb => exact .above iha ihb
  | beside _ _ iha ihb => exact .beside iha ihb
  | slice extent start _ hs ih => exact .slice extent start ih hs
  | tile n _ ih => exact .tile n ih
  | fill extent _ ih => exact .fill extent ih
  | given _ _ iha ihr => exact .given iha ihr

/-- A call's result keeps its size beside the arguments on which it depends. -/
theorem givenAll {arguments : List (Expr σ α)} (ha : ∀ a ∈ arguments, ∃ s, HasSize Γ a s)
    {e : Expr σ α} {s : Extent} (he : HasSize Γ e s) :
    HasSize Γ (Expr.givenAll arguments e) s := by
  unfold Expr.givenAll
  induction arguments with
  | nil => exact he
  | cons a arguments ih =>
    obtain ⟨t, ht⟩ := ha a List.mem_cons_self
    apply HasSize.given ht
    apply ih
    intro b hb
    exact ha b (List.mem_cons_of_mem a hb)

end HasSize

/-- The value after a substitution is the value at the values of what was put in. -/
theorem eval_subst [Number α] (env : τ → Matrix α) (f : σ → Expr τ α) (e : Expr σ α) :
    (e.subst f).eval env = e.eval fun i => (f i).eval env := by
  induction e <;> simp_all [Expr.subst, Expr.eval]

end Expr
end Collocation
