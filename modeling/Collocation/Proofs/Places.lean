import Collocation.Proofs.Layout
import Mathlib.Algebra.BigOperators.Group.List.Basic
import Mathlib.Algebra.GroupWithZero.Nat
import Mathlib.Logic.Equiv.Defs

/-! # Places in the decision vector

  Every element of a matrix has one place in the vector, and every place belongs to one element:
  the kinds follow each other in their order, and each of them is there column by column. -/

namespace Collocation

theorem Kind.pairwise_index : Kind.all.Pairwise fun k k' => k.index < k'.index := by decide

theorem Kind.index_injective {k k' : Kind} (h : k.index = k'.index) : k = k' := by
  cases k <;> cases k' <;> first | rfl | cases h

/-- An element of one of the matrices with the given extents. -/
structure Layout.Element (Γ : Kind → Extent) where
  kind : Kind
  row : Fin (Γ kind).rows
  col : Fin (Γ kind).cols

namespace Layout

variable {Γ : Kind → Extent} {extents : Table Extent}

/-! ## Parts of the vector -/

/-- A kind with a smaller index is listed before. -/
theorem mem_of_index_lt {before after : List Kind} {k k' : Kind}
    (h : Kind.all = before ++ k :: after) (hlt : k'.index < k.index) : k' ∈ before := by
  have hpairwise := Kind.pairwise_index
  rw [h, List.pairwise_append, List.pairwise_cons] at hpairwise
  obtain ⟨-, ⟨hafter, -⟩, -⟩ := hpairwise
  have hmem := k'.mem_all
  rw [h, List.mem_append, List.mem_cons] at hmem
  rcases hmem with hmem | rfl | hmem
  · exact hmem
  · exact absurd hlt (Nat.lt_irrefl _)
  · exact absurd hlt (Nat.lt_asymm (hafter k' hmem))

/-- A kind ends before every later one begins. -/
theorem offset_add_count_le {k k' : Kind} (h : k.index < k'.index) :
    offset extents k + count extents k ≤ offset extents k' := by
  obtain ⟨before', after', hall'⟩ := exists_split k'
  obtain ⟨before, between, rfl⟩ := List.append_of_mem (mem_of_index_lt hall' h)
  have hall : Kind.all = before ++ k :: (between ++ k' :: after') := by rw [hall']; simp
  have hmiddle : countAll extents (k :: between) =
      count extents k + countAll extents between := rfl
  rw [offset_eq hall, offset_eq hall', countAll_append, hmiddle]
  omega

theorem offset_add_count_le_length (k : Kind) :
    offset extents k + count extents k ≤ length extents := by
  obtain ⟨before, after, hall⟩ := exists_split k
  have hrest : countAll extents (k :: after) = count extents k + countAll extents after := rfl
  rw [offset_eq hall, length, hall, countAll_append, hrest]
  omega

/-- Every place is in the part of some kind. -/
theorem exists_offset_le {p : Nat} (h : p < length extents) :
    ∃ k, offset extents k ≤ p ∧ p < offset extents k + count extents k := by
  -- the kinds that are left begin at or before the place
  have hrest : ∀ before ks, Kind.all = before ++ ks → countAll extents before ≤ p →
      p < countAll extents before + countAll extents ks →
        ∃ k, offset extents k ≤ p ∧ p < offset extents k + count extents k := by
    intro before ks
    induction ks generalizing before with
    | nil =>
      intro _ hle hlt
      have hnone : countAll extents [] = 0 := rfl
      omega
    | cons k ks ih =>
      intro hall hle hlt
      have hcons : countAll extents (k :: ks) = count extents k + countAll extents ks := rfl
      have hnext : countAll extents (before ++ [k]) = countAll extents before + count extents k :=
        countAll_append before [k]
      by_cases hk : p < countAll extents before + count extents k
      · exact ⟨k, by rwa [offset_eq hall], by rwa [offset_eq hall]⟩
      · exact ih (before ++ [k]) (by simp [hall]) (by omega) (by omega)
  exact hrest [] Kind.all rfl (Nat.zero_le p) (by rwa [show countAll extents [] = 0 from rfl,
    Nat.zero_add])

/-! ## Elements and places -/

theorem count_full (k : Kind) : count (.full Γ) k = (Γ k).rows * (Γ k).cols := by
  simp [count, Extent.size]

theorem countAll_full (ks : List Kind) :
    countAll (.full Γ) ks = (ks.map fun k => (Γ k).rows * (Γ k).cols).sum := by
  induction ks with
  | nil => rfl
  | cons k ks ih =>
    show count (.full Γ) k + countAll (.full Γ) ks = _
    rw [ih, count_full, List.map_cons, List.sum_cons]

/-- A kind begins behind all elements of smaller kinds. -/
theorem offset_full (k : Kind) : offset (.full Γ) k =
    ((Kind.all.filter fun k' => k'.index < k.index).map fun k' =>
      (Γ k').rows * (Γ k').cols).sum := by
  have hbefore : Kind.all.takeWhile (· ≠ k) = Kind.all.filter fun k' => k'.index < k.index := by
    cases k <;> decide
  rw [offset, countAll_full, hbefore]

/-- The place of an element in the vector. -/
def Element.position (e : Element Γ) : Nat :=
  offset (.full Γ) e.kind + (e.row + (Γ e.kind).rows * e.col)

theorem Element.position_lt (e : Element Γ) :
    e.position < offset (.full Γ) e.kind + count (.full Γ) e.kind := by
  rw [count_full]
  exact Nat.add_lt_add_left (index_lt e.row.isLt e.col.isLt) _

/-- No two elements have one place. -/
theorem Element.position_injective {e e' : Element Γ} (h : e.position = e'.position) : e = e' := by
  have hkind : e.kind = e'.kind := by
    have hlt := e.position_lt
    have hlt' := e'.position_lt
    have hle : offset (.full Γ) e.kind ≤ e.position := Nat.le_add_right _ _
    have hle' : offset (.full Γ) e'.kind ≤ e'.position := Nat.le_add_right _ _
    rcases Nat.lt_trichotomy e.kind.index e'.kind.index with hindex | hindex | hindex
    · have hparts : offset (.full Γ) e.kind + count (.full Γ) e.kind ≤ offset (.full Γ) e'.kind :=
        offset_add_count_le hindex
      omega
    · exact Kind.index_injective hindex
    · have hparts : offset (.full Γ) e'.kind + count (.full Γ) e'.kind ≤ offset (.full Γ) e.kind :=
        offset_add_count_le hindex
      omega
  obtain ⟨k, i, j⟩ := e
  obtain ⟨k', i', j'⟩ := e'
  simp only at hkind
  subst hkind
  -- row and column are remainder and quotient
  have hplace : i.val + (Γ k).rows * j.val = i'.val + (Γ k).rows * j'.val := Nat.add_left_cancel h
  have hrow : i.val = i'.val := by
    have hmod := congrArg (· % (Γ k).rows) hplace
    simpa [Nat.add_mul_mod_self_left, Nat.mod_eq_of_lt] using hmod
  have hcol : j.val = j'.val := by
    rw [hrow] at hplace
    exact Nat.eq_of_mul_eq_mul_left (Nat.zero_lt_of_lt i.isLt) (Nat.add_left_cancel hplace)
  rw [Fin.ext hrow, Fin.ext hcol]

/-- Every place belongs to an element. -/
theorem Element.exists_position {p : Nat} (h : p < length (.full Γ)) :
    ∃ e : Element Γ, e.position = p := by
  obtain ⟨k, hle, hlt⟩ := exists_offset_le h
  rw [count_full] at hlt
  have hwithin : p - offset (.full Γ) k < (Γ k).rows * (Γ k).cols := by omega
  obtain ⟨i, hi, j, hj, hij⟩ := exists_index hwithin
  refine ⟨⟨k, ⟨i, hi⟩, ⟨j, hj⟩⟩, ?_⟩
  simp only [position]
  omega

theorem Element.exists_equiv (Γ : Kind → Extent) :
    ∃ place : Element Γ ≃ Fin (length (.full Γ)), ∀ e, (place e : Nat) = e.position := by
  have hlt : ∀ e : Element Γ, e.position < length (.full Γ) := fun e =>
    Nat.lt_of_lt_of_le e.position_lt (offset_add_count_le_length e.kind)
  refine ⟨.ofBijective (fun e => ⟨e.position, hlt e⟩) ⟨?_, ?_⟩, fun e => rfl⟩
  · intro e e' h
    exact position_injective (congrArg Fin.val h)
  · intro p
    obtain ⟨e, he⟩ := exists_position p.isLt
    exact ⟨e, Fin.ext he⟩

end Layout
end Collocation
