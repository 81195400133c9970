import Collocation.Literal.Matrix
import Collocation.Proofs.Layout
import Mathlib.Algebra.BigOperators.Group.List.Basic

/-! # Numeric literals

  Numbers, arrays, and lists that nest regularly are read as arrays wherever their depth is within
  the limit. Up to two dimensions they are also read as matrices, by rules of their own that look
  at rows and at single numbers instead of shapes. Both readings keep the same elements in the same
  order. -/

namespace Collocation

/-! ## Orders of elements -/

section Orders

variable {α : Type} [Inhabited α]

theorem rank_vector {n p : Nat} (hp : p < n) : rank [n] p = p := by
  simp [rank, Nat.mod_eq_of_lt hp]

theorem rank_matrix {rows cols i j : Nat} (hi : i < rows) (hj : j < cols) :
    rank [rows, cols] (i + rows * j) = i * cols + j := by
  obtain ⟨hrow, hcol⟩ := index_row_col hi j
  simp [rank, hrow, hcol, Nat.mod_eq_of_lt hj]

/-- An element of a row, in all rows one after the other. -/
theorem getD_flatten_rows {rows : List (List α)} {cols i j : Nat}
    (h : ∀ row ∈ rows, row.length = cols) (hi : i < rows.length) (hj : j < cols) :
    rows.flatten.getD (i * cols + j) default = (rows.getD i []).getD j default := by
  induction rows generalizing i with
  | nil => cases hi
  | cons row rows ih =>
    have hrow : row.length = cols := h row List.mem_cons_self
    rw [List.flatten_cons, List.getD_eq_getElem?_getD]
    cases i with
    | zero =>
      rw [List.getElem?_append_left (by omega)]
      simp
    | succ i =>
      have hplace : (i + 1) * cols + j - row.length = i * cols + j := by
        rw [Nat.succ_mul]
        omega
      have hrest := ih (fun r hr => h r (List.mem_cons_of_mem row hr)) (Nat.lt_of_succ_lt_succ hi)
      rw [List.getElem?_append_right (by rw [Nat.succ_mul]; omega), hplace,
        ← List.getD_eq_getElem?_getD, hrest]
      rfl

/-- A tensor of one dimension keeps its elements as they are written. -/
theorem Tensor.written_of_shape {t : Tensor α} {n : Nat} (h : t.shape = [n]) :
    t.written = t.data := by
  apply Array.ext
  · simp [written]
  · intro k hk _
    simp [written, h, position, Tensor.get]

theorem Tensor.written_of_shape_nil {t : Tensor α} (h : t.shape = []) :
    t.written = #[t.get 0] := by
  have hsize : t.data.size = 1 := by rw [t.size_data, h, volume_nil]
  apply Array.ext
  · simp [written, hsize]
  · intro k hk _
    simp [written, h, position]

end Orders

namespace Literal

variable {α : Type} [Number α] {l : Literal α} {items : List (Literal α)} {shape : List Nat}

/-! ## Regular nesting -/

/-- A number, an array, or a list of such literals, all of one shape. -/
inductive IsNumeric : List Nat → Literal α → Prop
  | number {l : Literal α} {x : α} (h : l.bareNumber? = some x) : IsNumeric [] l
  | array (t : Tensor α) : IsNumeric t.shape (.array t)
  | empty : IsNumeric [0] (.list [])
  | list {shape : List Nat} {item : Literal α} {items : List (Literal α)}
      (h : ∀ l ∈ item :: items, IsNumeric shape l) :
      IsNumeric ((item :: items).length :: shape) (.list (item :: items))

/-- The numbers `depth` lists deep, in written order. -/
def numbers (depth : Nat) (l : Literal α) : List α := (l.leaves depth).filterMap bareNumber?

@[simp] theorem numbers_list (depth : Nat) (items : List (Literal α)) :
    (Literal.list items).numbers (depth + 1) = items.flatMap (numbers depth) := by
  unfold numbers
  rw [leaves, List.filterMap_flatMap]

theorem numbers_array {t : Tensor α} {depth : Nat} (h : t.shape.length = depth) :
    (Literal.array t).numbers depth = t.written.toList := by
  unfold numbers
  rw [leaves, if_pos h, List.filterMap_map]
  exact List.filterMap_some

/-- The forms of a number that needs no conversion. -/
theorem bareNumber?_eq_some {x : α} (h : l.bareNumber? = some x) :
    (∃ b, l = .truth b ∧ x = Number.ofInt (Scalar.truthInt b)) ∨
    (∃ n, l = .whole n ∧ realOfInt n = .ok x) ∨ l = .real x := by
  unfold bareNumber? at h
  split at h
  · next b => exact .inl ⟨b, rfl, (Option.some.inj h).symm⟩
  · next n => exact .inr (.inl ⟨n, rfl, eq_ok_of_toOption h⟩)
  · exact .inr (.inr (congrArg _ (Option.some.inj h)))
  · cases h

/-- Wherever elements of arrays are read, a number that needs no conversion is one. -/
theorem element_of_bareNumber? {x : α} (h : l.bareNumber? = some x) :
    l.toElement = .ok x ∧ l.isSequence = false ∧ l.nestedShape = [] ∧ l.single? = some x ∧
      ∀ depth, l.leaves depth = [l] := by
  rcases bareNumber?_eq_some h with ⟨b, rfl, rfl⟩ | ⟨n, rfl, hn⟩ | rfl
  · simp [toElement, isSequence, nestedShape, single?, bareNumber?, leaves]
  · simp [toElement, isSequence, nestedShape, single?, bareNumber?, leaves, hn, Except.toOption]
  · simp [toElement, isSequence, nestedShape, single?, bareNumber?, leaves]

theorem numbers_of_bareNumber? {x : α} (h : l.bareNumber? = some x) : l.numbers 0 = [x] := by
  obtain ⟨-, -, -, -, hleaves⟩ := element_of_bareNumber? h
  simp [numbers, hleaves, h]

/-! ## Arrays of numbers -/

@[simp] theorem commonShape_self (shape : List Nat) : commonShape shape shape = shape := by
  induction shape with
  | nil => rfl
  | cons n shape ih => simp [commonShape, ih]

omit [Number α] in
theorem agreedShape_of_forall (h : ∀ l ∈ items, l.nestedShape = shape) :
    agreedShape shape items = shape := by
  induction items with
  | nil => rfl
  | cons l items ih =>
    rw [agreedShape, h l List.mem_cons_self, commonShape_self]
    exact ih fun l' hl' => h l' (List.mem_cons_of_mem l hl')

theorem mapM_toElement (h : ∀ l ∈ items, ∃ x, l.bareNumber? = some x) :
    items.mapM toElement = .ok (items.filterMap bareNumber?) := by
  induction items with
  | nil => rfl
  | cons l items ih =>
    obtain ⟨x, hx⟩ := h l List.mem_cons_self
    rw [List.mapM_cons, (element_of_bareNumber? hx).1,
      ih fun l' hl' => h l' (List.mem_cons_of_mem l hl'), List.filterMap_cons_some hx]
    rfl

namespace IsNumeric

/-- The shape of a regular literal is found. -/
theorem nestedShape_eq (h : IsNumeric shape l) : l.nestedShape = shape := by
  induction h with
  | number h => exact (element_of_bareNumber? h).2.2.1
  | array t => rfl
  | empty => rfl
  | list h ih =>
    rw [nestedShape, ih _ List.mem_cons_self,
      agreedShape_of_forall fun l hl => ih l (List.mem_cons_of_mem _ hl)]
    rfl

/-- As deep as the shape says there are numbers, and nothing else. -/
theorem bareNumber?_of_mem_leaves (h : IsNumeric shape l) :
    ∀ leaf ∈ l.leaves shape.length, ∃ x, leaf.bareNumber? = some x := by
  induction h with
  | number h =>
    intro leaf hleaf
    rw [(element_of_bareNumber? h).2.2.2.2, List.mem_singleton] at hleaf
    exact ⟨_, hleaf ▸ h⟩
  | array t =>
    intro leaf hleaf
    rw [leaves, if_pos rfl, List.mem_map] at hleaf
    obtain ⟨x, -, rfl⟩ := hleaf
    exact ⟨x, rfl⟩
  | empty =>
    intro leaf hleaf
    simp [leaves] at hleaf
  | list h ih =>
    intro leaf hleaf
    rw [List.length_cons, leaves, List.mem_flatMap] at hleaf
    obtain ⟨l, hl, hleaf⟩ := hleaf
    exact ih l hl leaf hleaf

/-- There are as many numbers as the shape asks for. -/
theorem length_numbers (h : IsNumeric shape l) :
    (l.numbers shape.length).length = volume shape := by
  induction h with
  | number h =>
    rw [List.length_nil, numbers_of_bareNumber? h]
    rfl
  | array t =>
    rw [numbers_array rfl, ← t.size_data]
    simp [Tensor.written]
  | empty => rfl
  | @list shape item items h ih =>
    rw [List.length_cons, numbers_list, List.length_flatMap, volume_cons]
    have hrows : (item :: items).map (fun l => (l.numbers shape.length).length) =
        (item :: items).map fun _ => volume shape := List.map_congr_left ih
    rw [hrows]
    simp [Nat.add_mul, Nat.add_comm]

/-- A regular literal is read as an array, element for element. -/
theorem toTensor_eq (h : IsNumeric shape l) (hdepth : shape.length ≤ maxDimensions) :
    (∃ t, l = .array t) ∨ l.toTensor = .ok (.ofWritten shape (l.numbers shape.length).toArray) := by
  by_cases harray : ∃ t, l = .array t
  · exact .inl harray
  · refine .inr ?_
    have hleaf := h.bareNumber?_of_mem_leaves
    have hregular : (l.leaves shape.length).any isSequence = false := by
      rw [List.any_eq_false]
      intro leaf hmem
      obtain ⟨x, hx⟩ := hleaf leaf hmem
      simp [(element_of_bareNumber? hx).2.1]
    have helements := mapM_toElement hleaf
    have hwith : l.toTensor = l.toTensorWith maxDimensions toElement := by
      unfold toTensor toTensorWithin
      split
      · next t => exact absurd ⟨t, rfl⟩ harray
      · rfl
    rw [hwith]
    unfold toTensorWith
    simp only [h.nestedShape_eq, List.take_of_length_le hdepth, hregular, helements]
    rfl

/-- What a literal of some shape may be. -/
theorem exists_form (h : IsNumeric shape l) :
    (shape = [] ∧ ∃ x, l.bareNumber? = some x) ∨ (∃ t : Tensor α, l = .array t ∧ t.shape = shape) ∨
    ∃ items rest, l = .list items ∧ shape = items.length :: rest ∧ (items = [] → rest = []) ∧
      ∀ item ∈ items, IsNumeric rest item := by
  cases h with
  | number h => exact .inl ⟨rfl, _, h⟩
  | array t => exact .inr (.inl ⟨t, rfl, rfl⟩)
  | empty => exact .inr (.inr ⟨[], [], rfl, rfl, fun _ => rfl, by simp⟩)
  | list h => exact .inr (.inr ⟨_, _, rfl, rfl, by simp, h⟩)

end IsNumeric

/-! ## Matrices of numbers -/

section Items

variable {read : Literal α → Option α} {depth : Nat}

/-- Items that are single numbers each. -/
theorem mapM_eq_flatMap (h : ∀ l ∈ items, ∃ x, read l = some x ∧ l.numbers depth = [x]) :
    items.mapM read = some (items.flatMap (numbers depth)) := by
  induction items with
  | nil => rfl
  | cons l items ih =>
    obtain ⟨x, hx, hnumbers⟩ := h l List.mem_cons_self
    rw [List.mapM_cons, hx, ih fun l' hl' => h l' (List.mem_cons_of_mem l hl'),
      List.flatMap_cons, hnumbers]
    rfl

theorem eq_flatMap_of_mapM (h : ∀ l ∈ items, ∀ x, read l = some x → l.numbers depth = [x])
    {xs : List α} (hxs : items.mapM read = some xs) : xs = items.flatMap (numbers depth) := by
  induction items generalizing xs with
  | nil =>
    cases hxs
    rfl
  | cons l items ih =>
    rw [List.mapM_cons, Option.bind_eq_bind, Option.bind_eq_some_iff] at hxs
    obtain ⟨x, hx, hxs⟩ := hxs
    rw [Option.bind_eq_bind, Option.bind_eq_some_iff] at hxs
    obtain ⟨rest, hrest, hxs⟩ := hxs
    cases hxs
    rw [List.flatMap_cons, h l List.mem_cons_self x hx,
      ← ih (fun l' hl' => h l' (List.mem_cons_of_mem l hl')) hrest]
    rfl

/-- A reading of every item. -/
theorem mapM_eq_some_map {β γ : Type} {f : β → Option γ} {g : β → γ} {xs : List β}
    (h : ∀ x ∈ xs, f x = some (g x)) : xs.mapM f = some (xs.map g) := by
  induction xs with
  | nil => rfl
  | cons x xs ih =>
    rw [List.mapM_cons, h x List.mem_cons_self, ih fun y hy => h y (List.mem_cons_of_mem x hy)]
    rfl

end Items

theorem data_columnOf (xs : List α) : (columnOf xs).data = xs.toArray := by
  unfold columnOf
  split_ifs with hempty
  · rw [List.isEmpty_iff.mp hempty]
    rfl
  · rfl

theorem data_ofWritten_vector {β : Type} [Inhabited β] (xs : List β) :
    (Tensor.ofWritten [xs.length] xs.toArray).data = xs.toArray := by
  apply Array.ext
  · simp [Tensor.ofWritten, Tensor.ofFn]
  · intro p hp hp'
    have hp' : p < xs.length := by simpa using hp'
    simp [Tensor.ofWritten, rank_vector hp', hp']

theorem data_ofWritten_column (xs : List α) :
    (Tensor.ofWritten [xs.length, 1] xs.toArray).data = xs.toArray := by
  apply Array.ext
  · simp [Tensor.ofWritten, Tensor.ofFn]
  · intro p hp hp'
    have hp' : p < xs.length := by simpa using hp'
    have hrank : rank [xs.length, 1] (p + xs.length * 0) = p * 1 + 0 :=
      rank_matrix hp' Nat.one_pos
    rw [Nat.mul_zero, Nat.add_zero, Nat.mul_one, Nat.add_zero] at hrank
    simp [Tensor.ofWritten, hrank, hp']

namespace IsNumeric

/-- Where a single number is expected, a literal without dimensions is one. -/
theorem single?_eq (h : IsNumeric [] l) : ∃ x, l.single? = some x ∧ l.numbers 0 = [x] := by
  rcases h.exists_form with ⟨-, x, hx⟩ | ⟨t, rfl, ht⟩ | ⟨items, rest, -, hshape, -⟩
  · exact ⟨x, (element_of_bareNumber? hx).2.2.2.1, numbers_of_bareNumber? hx⟩
  · have hsize : t.size = 1 := by rw [Tensor.size, t.size_data, ht, volume_nil]
    refine ⟨t.get 0, by simp [single?, ht, hsize], ?_⟩
    rw [numbers_array (by rw [ht]; rfl), Tensor.written_of_shape_nil ht]
  · cases hshape

/-- A literal of one dimension is a row. -/
theorem row?_eq {n : Nat} (h : IsNumeric [n] l) : l.row? = some (l.numbers 1) := by
  rcases h.exists_form with ⟨hshape, -⟩ | ⟨t, rfl, ht⟩ | ⟨items, rest, rfl, hshape, -, hitems⟩
  · cases hshape
  · rw [numbers_array (by rw [ht]; rfl)]
    simp [row?, ht]
  · cases hshape
    rw [numbers_list]
    exact mapM_eq_flatMap fun l hl => (hitems l hl).single?_eq

/-- A row of one element counts as a single number, and no other row does. -/
theorem listedSingle?_eq (h : IsNumeric [1] l) :
    ∃ x, l.listedSingle? = some x ∧ l.numbers 1 = [x] := by
  rcases h.exists_form with ⟨hshape, -⟩ | ⟨t, rfl, ht⟩ | ⟨items, rest, rfl, hshape, -, hitems⟩
  · cases hshape
  · have hsize : t.size = 1 := by rw [Tensor.size, t.size_data, ht]; rfl
    refine ⟨t.get 0, by simp [listedSingle?, single?, ht, hsize], ?_⟩
    have hdata : t.data.toList.length = 1 := hsize
    obtain ⟨x, hx⟩ := List.length_eq_one_iff.mp hdata
    rw [numbers_array (by rw [ht]; rfl), Tensor.written_of_shape ht, hx, Tensor.get,
      Array.getD_eq_getD_getElem?, ← Array.getElem?_toList, hx]
    rfl
  · obtain ⟨hlength, rfl⟩ := List.cons.inj hshape
    obtain ⟨item, rfl⟩ := List.length_eq_one_iff.mp hlength.symm
    obtain ⟨x, hx, hnumbers⟩ := (hitems item List.mem_cons_self).single?_eq
    exact ⟨x, hx, by simp [hnumbers]⟩

theorem single?_of_row {n : Nat} (h : IsNumeric [n] l) {x : α} (hx : l.single? = some x) :
    l.listedSingle? = some x ∧ n = 1 := by
  rcases h.exists_form with ⟨hshape, -⟩ | ⟨t, rfl, ht⟩ | ⟨items, rest, rfl, -⟩
  · cases hshape
  · refine ⟨hx, ?_⟩
    have hsize : t.size = n := by rw [Tensor.size, t.size_data, ht]; simp
    simp only [single?] at hx
    split_ifs at hx with hone
    exact hsize ▸ hone.2
  · cases hx

theorem eq_one_of_listedSingle? {n : Nat} (h : IsNumeric [n] l) {x : α}
    (hx : l.listedSingle? = some x) : n = 1 := by
  rcases h.exists_form with ⟨hshape, -⟩ | ⟨t, rfl, ht⟩ | ⟨items, rest, rfl, hshape, -⟩
  · cases hshape
  · exact (h.single?_of_row hx).2
  · cases hshape
    unfold listedSingle? at hx
    split at hx
    · next heq =>
      cases heq
      rfl
    · cases hx

/-- Rows of one length become the matrix that has them as rows. -/
theorem ofRows_eq {rows : List (List α)} {cols : Nat} (hrows : ∀ row ∈ rows, row.length = cols)
    (hne : rows ≠ []) : ∃ m, ofRows rows = .ok m ∧
      m.data = (Tensor.ofWritten [rows.length, cols] rows.flatten.toArray).data := by
  have hcols : (rows.headD []).length = cols := by
    cases rows with
    | nil => exact absurd rfl hne
    | cons row rows => exact hrows row List.mem_cons_self
  refine ⟨.ofFn ⟨rows.length, cols⟩ fun i j => (rows.getD i []).getD j default, ?_, ?_⟩
  · unfold ofRows
    simp only [hcols]
    rw [if_pos]
    simpa using hrows
  · apply Array.ext
    · simp [Matrix.ofFn, Matrix.ofColumnMajor, Tensor.ofWritten, Tensor.ofFn, Extent.size]
    · intro p hp _
      have hsize : p < rows.length * cols := by
        simpa [Matrix.ofFn, Matrix.ofColumnMajor, Extent.size] using hp
      obtain ⟨i, hi, j, hj, rfl⟩ := exists_index hsize
      obtain ⟨hrow, hcol⟩ := index_row_col hi j
      have hget := getD_flatten_rows hrows hi hj
      simp only [Matrix.ofFn, Matrix.ofColumnMajor, Tensor.ofWritten, Tensor.getElem_data_ofFn,
        Array.getElem_ofFn, rank_matrix hi hj, hrow, hcol]
      rw [← hget]
      simp

omit [Number α] in
theorem exists_ofTensor? {t : Tensor α} (h : t.shape.length ≤ 2) :
    ∃ m, Matrix.ofTensor? t = some m ∧ m.data = t.data := by
  obtain ⟨shape, data, hsize⟩ := t
  rcases shape with _ | ⟨n, _ | ⟨m, _ | ⟨k, rest⟩⟩⟩
  · exact ⟨_, rfl, rfl⟩
  · exact ⟨_, rfl, rfl⟩
  · exact ⟨_, rfl, rfl⟩
  · simp at h

/-- Items that are numbers become a column. -/
theorem toMatrix_list_of_numbers (h : ∀ l ∈ items, IsNumeric [] l) :
    (Literal.list items).toMatrix = .ok (columnOf (items.flatMap (numbers 0))) := by
  have hnumbers : items.mapM single? = some (items.flatMap (numbers 0)) :=
    mapM_eq_flatMap fun l hl => (h l hl).single?_eq
  simp [toMatrix, flatMatrix?, hnumbers]

/-- Items that are rows of one number become a column. -/
theorem toMatrix_list_of_singles (h : ∀ l ∈ items, IsNumeric [1] l) :
    (Literal.list items).toMatrix = .ok (columnOf (items.flatMap (numbers 1))) := by
  have hlisted : items.mapM listedSingle? = some (items.flatMap (numbers 1)) :=
    mapM_eq_flatMap fun l hl => (h l hl).listedSingle?_eq
  cases hsingle : items.mapM single? with
  | none => simp [toMatrix, flatMatrix?, hsingle, hlisted]
  | some xs =>
    -- read as single numbers, the items are the same numbers
    have hxs : xs = items.flatMap (numbers 1) := by
      refine eq_flatMap_of_mapM ?_ hsingle
      intro l hl x hx
      obtain ⟨y, hy, hnumbers⟩ := (h l hl).listedSingle?_eq
      cases hy.symm.trans ((h l hl).single?_of_row hx).1
      exact hnumbers
    simp [toMatrix, flatMatrix?, hsingle, hxs]

/-- Items that are rows of any other length become the rows of a matrix. -/
theorem toMatrix_list_of_wide {cols : Nat} (hcols : cols ≠ 1)
    (h : ∀ l ∈ items, IsNumeric [cols] l) (hne : items ≠ []) :
    (Literal.list items).toMatrix = ofRows (items.map (numbers 1)) := by
  -- the first row is neither a single number nor a list of one
  obtain ⟨item, rest, rfl⟩ := List.exists_cons_of_ne_nil hne
  have hitem := h item List.mem_cons_self
  have hlisted : item.listedSingle? = none := by
    rw [← Option.not_isSome_iff_eq_none, Option.isSome_iff_exists]
    rintro ⟨x, hx⟩
    exact hcols (hitem.eq_one_of_listedSingle? hx)
  have hsingle : item.single? = none := by
    rw [← Option.not_isSome_iff_eq_none, Option.isSome_iff_exists]
    rintro ⟨x, hx⟩
    exact hcols (hitem.single?_of_row hx).2
  have hrows : (item :: rest).mapM row? = some ((item :: rest).map (numbers 1)) :=
    mapM_eq_some_map fun l hl => (h l hl).row?_eq
  have hsingles : (item :: rest).mapM single? = none := by simp [List.mapM_cons, hsingle]
  have hlistedSingles : (item :: rest).mapM listedSingle? = none := by
    simp [List.mapM_cons, hlisted]
  unfold toMatrix
  simp only [flatMatrix?, hsingles, hlistedSingles, hrows, Option.map_none]

/-- Items that are rows become a matrix, also where each of them counts as a single number. -/
theorem toMatrix_list_of_rows {cols : Nat} (h : ∀ l ∈ items, IsNumeric [cols] l)
    (hne : items ≠ []) : ∃ m, (Literal.list items).toMatrix = .ok m ∧
      m.data =
        (Tensor.ofWritten [items.length, cols] (items.flatMap (numbers 1)).toArray).data := by
  have hlength : ∀ l ∈ items, (l.numbers 1).length = cols := by
    intro l hl
    simpa using (h l hl).length_numbers
  by_cases hcols : cols = 1
  · subst hcols
    refine ⟨_, toMatrix_list_of_singles h, ?_⟩
    have hcount : (items.flatMap (numbers 1)).length = items.length := by
      rw [List.length_flatMap, List.map_congr_left hlength]
      simp
    rw [data_columnOf, ← hcount, data_ofWritten_column]
  · have hlengths : ∀ row ∈ items.map (numbers 1), row.length = cols := by
      simpa using hlength
    obtain ⟨m, hm, hdata⟩ := ofRows_eq hlengths (by simpa using hne)
    refine ⟨m, (toMatrix_list_of_wide hcols h hne).trans hm, ?_⟩
    rw [hdata, List.length_map, List.flatMap_def]

/-- A literal of at most two dimensions is read as a matrix with the elements of the array. -/
theorem toMatrix_eq (h : IsNumeric shape l) (hdepth : shape.length ≤ 2) :
    ∃ t m, l.toTensor = .ok t ∧ t.shape = shape ∧ l.toMatrix = .ok m ∧ m.data = t.data := by
  have hlimit : shape.length ≤ maxDimensions := Nat.le_trans hdepth (by decide)
  have htensor := h.toTensor_eq hlimit
  rcases h.exists_form with ⟨rfl, x, hx⟩ | ⟨t, rfl, rfl⟩ | ⟨items, rest, rfl, rfl, hrest, hitems⟩
  · rcases htensor with ⟨t, rfl⟩ | htensor
    · cases hx
    refine ⟨_, .unit x, htensor, rfl, ?_, ?_⟩
    · rcases bareNumber?_eq_some hx with ⟨b, rfl, -⟩ | ⟨n, rfl, -⟩ | rfl
      · simp [toMatrix, flatMatrix?, hx]
      · simp [toMatrix, flatMatrix?, hx]
      · simp [toMatrix, flatMatrix?, hx]
    · rw [List.length_nil, numbers_of_bareNumber? hx]
      rfl
  · obtain ⟨m, hm, hdata⟩ := exists_ofTensor? hdepth
    exact ⟨t, m, rfl, rfl, by simp [toMatrix, flatMatrix?, hm], hdata⟩
  · rcases htensor with ⟨t, ht⟩ | htensor
    · cases ht
    rcases rest with _ | ⟨cols, _ | ⟨_, rest⟩⟩
    · refine ⟨_, _, htensor, rfl, toMatrix_list_of_numbers hitems, ?_⟩
      have hcount : (items.flatMap (numbers 0)).length = items.length := by
        have hlength : ∀ l ∈ items, (l.numbers 0).length = 1 := fun l hl =>
          (hitems l hl).length_numbers
        rw [List.length_flatMap, List.map_congr_left hlength]
        simp
      rw [data_columnOf, List.length_singleton, numbers_list, ← hcount, data_ofWritten_vector]
    · have hne : items ≠ [] := fun hnil => List.cons_ne_nil _ _ (hrest hnil)
      obtain ⟨m, hm, hdata⟩ := toMatrix_list_of_rows hitems hne
      refine ⟨_, m, htensor, rfl, hm, ?_⟩
      rw [hdata, List.length_cons, numbers_list]
      rfl
    · simp at hdepth

end IsNumeric

end Literal
end Collocation
