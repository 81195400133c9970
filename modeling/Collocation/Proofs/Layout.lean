import Collocation.Layout
import Collocation.Proofs.Tables

/-! # Stacking and cutting

  Tensors of the sizes that a layout asks for are stacked into a vector of its length, in which
  every kind starts at its own place. Cutting the vector gives the tensors back, and cutting any
  vector of this length and stacking the pieces gives the vector back. -/

namespace Collocation

/-! ## Rows and columns -/

theorem index_lt {rows cols i j : Nat} (hi : i < rows) (hj : j < cols) :
    i + rows * j < rows * cols := by
  have hcolumn : rows * (j + 1) ≤ rows * cols := Nat.mul_le_mul_left rows hj
  rw [Nat.mul_succ] at hcolumn
  omega

/-- The place of an element leads back to its row and its column. -/
theorem index_row_col {rows i : Nat} (hi : i < rows) (j : Nat) :
    (i + rows * j) % rows = i ∧ (i + rows * j) / rows = j := by
  rw [Nat.add_mul_mod_self_left, Nat.mod_eq_of_lt hi,
    Nat.add_mul_div_left _ _ (Nat.zero_lt_of_lt hi), Nat.div_eq_of_lt hi, Nat.zero_add]
  exact ⟨rfl, rfl⟩

/-- Every element of a matrix is in some row and column. -/
theorem exists_index {rows cols p : Nat} (h : p < rows * cols) :
    ∃ i < rows, ∃ j < cols, p = i + rows * j := by
  have hrows : 0 < rows := Nat.pos_of_mul_pos_right (Nat.zero_lt_of_lt h)
  exact ⟨p % rows, Nat.mod_lt p hrows, p / rows, Nat.div_lt_of_lt_mul h,
    (Nat.mod_add_div p rows).symm⟩

/-- A matrix is determined by its elements. -/
theorem Tensor.ext_elements {α : Type} [Inhabited α] {t u : Tensor α} {rows cols : Nat}
    (ht : t.shape = [rows, cols]) (hu : u.shape = [rows, cols])
    (h : ∀ i < rows, ∀ j < cols, t.get (i + rows * j) = u.get (i + rows * j)) : t = u := by
  refine Tensor.ext_get (ht.trans hu.symm) fun p hp => ?_
  obtain ⟨i, hi, j, hj, rfl⟩ := exists_index (by simpa [ht] using hp)
  exact h i hi j hj

namespace Layout

/-! ## Sizes -/

variable {α : Type} {extents : Table Extent} {t : Table (Tensor α)} {k : Kind}

/-- The tensors have the sizes of the extents, and there is one wherever there is an extent. -/
def Fits (extents : Table Extent) (t : Table (Tensor α)) : Prop :=
  ∀ k, (t.find? k).map (·.shape) = (extents.find? k).map (·.toList)

theorem volume_toList (e : Extent) : volume e.toList = e.size := by
  simp [Extent.toList, Extent.size]

theorem Fits.exists_find? (h : Fits extents t) {e : Extent} (hk : extents.find? k = some e) :
    ∃ v, t.find? k = some v ∧ v.shape = e.toList ∧ v.data.size = e.size := by
  have hshape := h k
  rw [hk, Option.map_some, Option.map_eq_some_iff] at hshape
  obtain ⟨v, hv, hshape⟩ := hshape
  exact ⟨v, hv, hshape, by rw [v.size_data, hshape, volume_toList]⟩

theorem fits_map {g : Kind → Extent → Tensor α}
    (h : ∀ k e, extents.find? k = some e → (g k e).shape = e.toList) :
    Fits extents (extents.map g) := by
  intro k
  rw [Table.find?_map]
  cases he : extents.find? k with
  | none => rfl
  | some e => exact congrArg some (h k e he)

theorem fits_full {Γ : Kind → Extent} {V : Kind → Tensor α}
    (h : ∀ k, (V k).shape = (Γ k).toList) : Fits (.full Γ) (.full V) := by
  intro k
  rw [Table.find?_full, Table.find?_full, Option.map_some, h]
  rfl

/-! ## Places -/

theorem countAll_append (ks ks' : List Kind) :
    countAll extents (ks ++ ks') = countAll extents ks + countAll extents ks' := by
  induction ks with
  | nil => simp [countAll]
  | cons k ks ih =>
    show count extents k + countAll extents (ks ++ ks') = _
    rw [ih, ← Nat.add_assoc]
    rfl

/-- A kind begins behind all kinds before it. -/
theorem offset_eq {before after : List Kind} (h : Kind.all = before ++ k :: after) :
    offset extents k = countAll extents before := by
  have hnodup := Kind.nodup_all
  rw [h, List.nodup_append] at hnodup
  have hbefore : ∀ k' ∈ before, k' ≠ k := fun k' hk' => hnodup.2.2 k' hk' k List.mem_cons_self
  unfold offset
  rw [h, List.takeWhile_append_of_pos (by simpa using hbefore)]
  simp

theorem exists_split (k : Kind) : ∃ before after, Kind.all = before ++ k :: after :=
  List.append_of_mem k.mem_all

/-! ## Stacking -/

/-- The elements of a kind; there are none without a tensor. -/
def elements (t : Table (Tensor α)) (k : Kind) : List α :=
  match t.find? k with
  | some v => v.data.toList
  | none => []

theorem flatten_eq (t : Table (Tensor α)) : flatten t = (Kind.all.flatMap (elements t)).toArray :=
  rfl

theorem elements_of_find? {v : Tensor α} (hk : t.find? k = some v) :
    elements t k = v.data.toList := by
  unfold elements
  rw [hk]

theorem length_elements (h : Fits extents t) (k : Kind) :
    (elements t k).length = count extents k := by
  have hshape := h k
  unfold elements count
  cases he : extents.find? k with
  | none =>
    rw [he, Option.map_none, Option.map_eq_none_iff] at hshape
    rw [hshape]
    rfl
  | some e =>
    obtain ⟨v, hv, -, hsize⟩ := h.exists_find? he
    rw [hv]
    exact hsize

theorem length_flatMap_elements (h : Fits extents t) (ks : List Kind) :
    (ks.flatMap (elements t)).length = countAll extents ks := by
  induction ks with
  | nil => rfl
  | cons k ks ih =>
    rw [List.flatMap_cons, List.length_append, ih, length_elements h]
    rfl

theorem size_flatten (h : Fits extents t) : (flatten t).size = length extents :=
  length_flatMap_elements h Kind.all

variable [Number α]

/-- Where an element of a kind is in the vector. -/
theorem getD_flatten (h : Fits extents t) {v : Tensor α} (hk : t.find? k = some v) {p : Nat}
    (hp : p < v.data.size) : (flatten t).getD (offset extents k + p) default = v.get p := by
  obtain ⟨before, after, hall⟩ := exists_split k
  have hlength := length_flatMap_elements h before
  rw [offset_eq hall, ← hlength, flatten_eq, hall, List.flatMap_append, List.flatMap_cons,
    elements_of_find? hk, Array.getD_eq_getD_getElem?, List.getElem?_toArray,
    List.getElem?_append_right (Nat.le_add_right _ _), Nat.add_sub_cancel_left,
    List.getElem?_append_left (by simpa using hp), Tensor.get, Array.getD_eq_getD_getElem?,
    Array.getElem?_toList]

/-- Cutting a stacked vector gives the tensors back. -/
theorem cut_flatten (h : Fits extents t) :
    (cut extents (flatten t)).map (fun _ m => m.toTensor) = t := by
  ext1 k
  rw [Table.find?_map, cut, Table.find?_map]
  cases he : extents.find? k with
  | none =>
    have hshape := h k
    rw [he, Option.map_none, Option.map_eq_none_iff] at hshape
    rw [hshape]
    rfl
  | some e =>
    obtain ⟨v, hv, hshape, hsize⟩ := h.exists_find? he
    rw [hv, Option.map_some, Option.map_some, Option.some.injEq]
    refine Tensor.ext hshape.symm (Array.ext ?_ ?_)
    · simp [Matrix.toTensor, Matrix.ofColumnMajor, hsize]
    · intro p hp hp'
      have hget := getD_flatten h hv hp'
      simpa [Matrix.toTensor, Matrix.ofColumnMajor, Tensor.get, hp'] using hget

/-! ## Cutting -/

variable {x : Array α}

theorem fits_cut (extents : Table Extent) (x : Array α) :
    Fits extents ((cut extents x).map fun _ m => m.toTensor) := by
  intro k
  rw [Table.find?_map, cut, Table.find?_map, Option.map_map, Option.map_map]
  rfl

/-- The elements of a kind in a vector that is cut. -/
theorem elements_cut {before after : List Kind} (h : Kind.all = before ++ k :: after) :
    elements ((cut extents x).map fun _ m => m.toTensor) k =
      (List.range' (countAll extents before) (count extents k)).map (x.getD · default) := by
  unfold elements count
  rw [Table.find?_map, cut, Table.find?_map, offset_eq h]
  cases extents.find? k with
  | none => rfl
  | some e =>
    apply List.ext_getElem
    · simp [Matrix.toTensor, Matrix.ofColumnMajor]
    · intro p _ _
      simp [Matrix.toTensor, Matrix.ofColumnMajor]

/-- The pieces of neighbouring kinds are neighbouring parts of the vector. -/
theorem flatMap_elements_cut {before ks : List Kind} (h : Kind.all = before ++ ks) :
    ks.flatMap (elements ((cut extents x).map fun _ m => m.toTensor)) =
      (List.range' (countAll extents before) (countAll extents ks)).map (x.getD · default) := by
  induction ks generalizing before with
  | nil => rfl
  | cons k ks ih =>
    have hnext : countAll extents (before ++ [k]) = countAll extents before + count extents k :=
      countAll_append before [k]
    have hsplit : Kind.all = (before ++ [k]) ++ ks := by simp [h]
    rw [List.flatMap_cons, elements_cut h, ih hsplit, hnext, ← List.map_append,
      List.range'_append_1]
    rfl

/-- Stacking the pieces of a vector gives the vector back. -/
theorem flatten_cut (h : x.size = length extents) :
    flatten ((cut extents x).map fun _ m => m.toTensor) = x := by
  have hpieces : Kind.all.flatMap (elements ((cut extents x).map fun _ m => m.toTensor)) =
      (List.range' 0 (length extents)).map (x.getD · default) :=
    flatMap_elements_cut (List.nil_append Kind.all).symm
  have hwhole : (List.range' 0 x.size).map (x.getD · default) = x.toList := by
    apply List.ext_getElem
    · simp
    · intro p _ hp
      have hp' : p < x.size := hp
      simp [hp']
  rw [flatten_eq, hpieces, ← h, hwhole]

end Layout
end Collocation
