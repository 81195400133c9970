import Collocation.Indexing
import Collocation.Proofs.Outcome

/-! # Positions

  An index that lies on an axis means itself, unless it has more bits than an index may have, and -1
  means the last position. So a row of a matrix is read under its number, and an element under the
  numbers of its row and its column. -/

namespace Collocation

variable {α : Type} {axis size i : Nat}

theorem wrapIndex_natCast (h : i < 0x8000000000000000) :
    wrapIndex (α := α) (i : Int) = .ok (i : Int) := by
  unfold wrapIndex
  rw [if_neg (by omega), if_neg (by omega)]

theorem resolveIndex_natCast (h : i < size) :
    resolveIndex (α := α) axis size (i : Int) = .ok i := by
  unfold resolveIndex
  rw [if_pos (by omega)]
  rfl

theorem resolveIndex_last (h : 0 < size) :
    resolveIndex (α := α) axis size (-1) = .ok (size - 1) := by
  unfold resolveIndex
  rw [if_neg (by omega), if_pos (by omega)]
  exact congrArg Except.ok (by omega)

namespace Tensor

variable [Inhabited α] {t : Tensor α} {rows cols : Nat}

omit [Inhabited α] in
theorem resolve_row (hshape : t.shape = [rows, cols]) (hi : i < rows)
    (hindex : i < 0x8000000000000000) : t.resolve [(i : Int)] = .ok [i] := by
  unfold resolve
  simp [hshape, wrapIndex_natCast hindex, resolveIndices, resolveIndex_natCast hi, bind,
    Except.bind, pure, Except.pure]

omit [Inhabited α] in
theorem resolve_element (hshape : t.shape = [rows, cols]) (hi : i < rows)
    (hindex : i < 0x8000000000000000) (hcols : 0 < cols) :
    t.resolve [(i : Int), 0] = .ok [i, 0] := by
  have hzero : wrapIndex (α := α) 0 = .ok 0 := wrapIndex_natCast (i := 0) (by omega)
  have hfirst : resolveIndex (α := α) 1 cols 0 = .ok 0 := resolveIndex_natCast (i := 0) hcols
  unfold resolve
  simp [hshape, wrapIndex_natCast hindex, hzero, resolveIndices, resolveIndex_natCast hi, hfirst,
    bind, Except.bind, pure, Except.pure]

/-- Below a row there are its elements. -/
theorem below_row (hshape : t.shape = [rows, cols]) :
    t.below [i] = .vector (Array.ofFn fun j : Fin cols => t.get (i + rows * j)) := by
  refine Tensor.ext (by simp [below, vector, hshape]) (Array.ext ?_ ?_)
  · simp [below, ofFn, vector, hshape]
  · intro j hj hj'
    have hcol : j < cols := by simpa [vector] using hj'
    simp [below, vector, hshape, place, positionsAt, Nat.mod_eq_of_lt hcol]

/-- Below a row and a column there is one element. -/
theorem below_element (hshape : t.shape = [rows, cols]) :
    (t.below [i, 0]).shape = [] ∧ (t.below [i, 0]).get 0 = t.get i := by
  have hvolume : 0 < volume (t.shape.drop 2) := by simp [hshape]
  refine ⟨by simp [below, hshape], ?_⟩
  show (ofFn (t.shape.drop 2) _).get 0 = _
  rw [get_ofFn _ _ hvolume]
  simp [hshape, place, positionsAt]

end Tensor
end Collocation
