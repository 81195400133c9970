import Collocation.Proofs.Literal
import Mathlib.Algebra.BigOperators.Group.List.Basic
import Mathlib.Algebra.GroupWithZero.Nat

/-! # Stacked values

  Numeric literals and symbolic matrices are stacked into one vector, whatever the order of their
  keys. Next to a symbolic part the literals are read as matrices, which changes no element. What
  is stacked from matrices is cut into these matrices again, and what is cut from a vector is
  stacked into this vector. -/

namespace Collocation

variable {α : Type} [Number α]

/-! ## Listings of a table -/

namespace Keyed

variable {β γ δ : Type} {R : β → γ → Prop} {entries : Keyed α β} {t : Table γ}

/-- The entries are those of a table, up to a relation, in whatever order and under whichever keys
    stand for its kinds. -/
structure Lists (R : β → γ → Prop) (entries : Keyed α β) (t : Table γ) : Prop where
  distinct : entries.Distinct
  value : ∀ entry ∈ entries, ∃ k v, entry.1.kind? = some k ∧ t.find? k = some v ∧ R entry.2 v
  complete : ∀ k, t.contains k → ∃ entry ∈ entries, entry.1.kind? = some k

omit [Number α] in
theorem exists_toTable (h : ∀ entry ∈ entries, ∃ k, entry.1.kind? = some k) :
    ∃ u, entries.toTable = .ok u := by
  have hentries : entries.mapM (fun entry => do return (← entry.1.toKind, entry.2)) =
      (.ok (entries.map fun entry => (entry.1.kind?.getD .initialTime, entry.2)) :
        Except (Fault α) _) := by
    refine mapM_of_ok ?_
    intro entry hentry
    obtain ⟨k, hk⟩ := h entry hentry
    rw [Key.toKind_of_kind? hk, hk]
    rfl
  refine ⟨.ofList (entries.map fun entry => (entry.1.kind?.getD .initialTime, entry.2)), ?_⟩
  unfold toTable
  rw [hentries]
  rfl

/-- What a table of entries holds was entered. -/
theorem exists_mem_of_toTable {u : Table β} (hdistinct : entries.Distinct)
    (hu : entries.toTable = .ok u) {k : Kind} {b : β} (h : u.find? k = some b) :
    ∃ entry ∈ entries, entry.1.kind? = some k ∧ entry.2 = b := by
  rw [← find?_of_toTable hdistinct hu] at h
  unfold Keyed.find? at h
  obtain ⟨entry, hentry, rfl⟩ := Option.map_eq_some_iff.mp h
  have hsame : entry.1.same (.kind k) = true :=
    List.find?_some (p := fun entry : Key α × β => entry.1.same (.kind k)) hentry
  exact ⟨entry, List.mem_of_find?_eq_some hentry, Key.same_kind_iff.mp hsame, rfl⟩

namespace Lists

/-- Listed entries make a table with related values. -/
theorem exists_toTable (h : entries.Lists R t) :
    ∃ u, entries.toTable = .ok u ∧
      ∀ k, (∃ b v, u.find? k = some b ∧ t.find? k = some v ∧ R b v) ∨
        (u.find? k = none ∧ t.find? k = none) := by
  obtain ⟨u, hu⟩ := Keyed.exists_toTable fun entry hentry => by
    obtain ⟨k, v, hk, -⟩ := h.value entry hentry
    exact ⟨k, hk⟩
  refine ⟨u, hu, ?_⟩
  intro k
  cases hfind : u.find? k with
  | some b =>
    obtain ⟨entry, hentry, hkey, rfl⟩ := exists_mem_of_toTable h.distinct hu hfind
    obtain ⟨k', v, hk', hv, hR⟩ := h.value entry hentry
    cases hkey.symm.trans hk'
    exact .inl ⟨entry.2, v, rfl, hv, hR⟩
  | none =>
    refine .inr ⟨rfl, Option.eq_none_iff_forall_ne_some.mpr ?_⟩
    intro v hv
    obtain ⟨⟨key, b⟩, hentry, hkey⟩ := h.complete k (by rw [Table.contains, hv]; rfl)
    obtain ⟨k', hk', hb⟩ := mem_of_toTable h.distinct hu hentry
    cases hkey.symm.trans hk'
    cases hfind.symm.trans hb

theorem toTable_eq {t : Table β} (h : entries.Lists Eq t) : entries.toTable = .ok t := by
  obtain ⟨u, hu, hrel⟩ := h.exists_toTable
  have htables : u = t := by
    ext1 k
    rcases hrel k with ⟨b, v, hb, hv, rfl⟩ | ⟨hb, hv⟩
    · rw [hb, hv]
    · rw [hb, hv]
  rw [hu, htables]

/-- A listing of a table lists the table of what its values are turned into. -/
theorem map {S : β → δ → Prop} {f : γ → δ} (h : entries.Lists R t)
    (hf : ∀ k b v, t.find? k = some v → R b v → S b (f v)) :
    entries.Lists S (t.map fun _ => f) := by
  refine ⟨h.distinct, ?_, ?_⟩
  · intro entry hentry
    obtain ⟨k, v, hk, hv, hR⟩ := h.value entry hentry
    exact ⟨k, f v, hk, by rw [Table.find?_map, hv, Option.map_some], hf k _ _ hv hR⟩
  · intro k hk
    rw [Table.contains, Table.find?_map, Option.isSome_map] at hk
    exact h.complete k hk

/-- The entries of a table, with values that stand for its values. -/
theorem of_toList {f : γ → β} (t : Table γ) (h : ∀ v, R (f v) v) :
    Lists R (t.toList.map fun e => ((.kind e.1, f e.2) : Key α × β)) t := by
  refine ⟨?_, ?_, ?_⟩
  · unfold Distinct
    rw [List.pairwise_map]
    refine t.pairwise_toList.imp ?_
    intro e e' hne
    rw [Key.same_of_kind? rfl rfl]
    exact decide_eq_false hne
  · intro entry hentry
    obtain ⟨⟨k, v⟩, hmem, rfl⟩ := List.mem_map.mp hentry
    exact ⟨k, v, rfl, Table.mem_toList.mp hmem, h v⟩
  · intro k hk
    obtain ⟨v, hv⟩ := Option.isSome_iff_exists.mp hk
    exact ⟨_, List.mem_map.mpr ⟨(k, v), Table.mem_toList.mpr hv, rfl⟩, rfl⟩

end Lists

end Keyed

namespace Layout

variable {items : Keyed α (Item α)} {item : Item α} {x : Array α}

/-! ## Stacking -/

/-- The elements of an item: of a symbolic matrix, or of a numeric literal of at most two
    dimensions. -/
inductive Item.Shows : Item α → Array α → Prop
  | symbolic (m : Matrix α) : Shows (.symbolic m) m.data
  | numeric {l : Literal α} {shape : List Nat} {t : Tensor α} (h : l.IsNumeric shape)
      (hdepth : shape.length ≤ 2) (ht : l.toTensor = .ok t) : Shows (.numeric l) t.data

/-- Both readings of an item give the elements that it shows. -/
theorem Item.Shows.elements_eq (h : item.Shows x) (besideSymbolic : Bool) :
    item.elements besideSymbolic = .ok x := by
  rcases h with m | ⟨h, hdepth, ht⟩
  · rfl
  · obtain ⟨t', m, ht', -, hm, hdata⟩ := h.toMatrix_eq hdepth
    cases ht.symm.trans ht'
    cases besideSymbolic with
    | true => simp [elements, hm, hdata]
    | false => simp [elements, ht]

/-- The arrays of a table, the kinds in their order. -/
def concat (t : Table (Array α)) : Array α :=
  (Kind.all.flatMap fun k => ((t.find? k).getD #[]).toList).toArray

omit [Number α] in
theorem flatMap_filterMap {β : Type} {u : Table β} {t : Table (Array α)} (ks : List Kind)
    (h : ∀ k, u.find? k = none → t.find? k = none) :
    (((ks.filterMap fun k => (u.find? k).map fun v => (k, v)).map fun e =>
      (t.find? e.1).getD #[]).flatMap Array.toList) =
        ks.flatMap fun k => ((t.find? k).getD #[]).toList := by
  induction ks with
  | nil => rfl
  | cons k ks ih =>
    rw [List.flatMap_cons, ← ih]
    cases hk : u.find? k with
    | none => simp [hk, h k hk]
    | some v => simp [hk]

/-- Items are stacked kind by kind, whatever their order and whether or not one is symbolic. -/
theorem stack_eq {t : Table (Array α)} (h : items.Lists Item.Shows t) :
    stack items = .ok ⟨items.any fun entry => entry.2.isSymbolic, concat t⟩ := by
  obtain ⟨u, hu, hrel⟩ := h.exists_toTable
  have hsymbolic : (u.toList.any fun entry => entry.2.isSymbolic) =
      items.any fun entry => entry.2.isSymbolic := by
    rw [Bool.eq_iff_iff, List.any_eq_true, List.any_eq_true]
    constructor
    · rintro ⟨⟨k, item⟩, hmem, hitem⟩
      obtain ⟨entry, hentry, -, rfl⟩ :=
        Keyed.exists_mem_of_toTable h.distinct hu (Table.mem_toList.mp hmem)
      exact ⟨entry, hentry, hitem⟩
    · rintro ⟨⟨key, item⟩, hmem, hitem⟩
      obtain ⟨k, -, hk⟩ := Keyed.mem_of_toTable h.distinct hu hmem
      exact ⟨(k, item), Table.mem_toList.mpr hk, hitem⟩
  have hparts : u.toList.mapM (fun entry => entry.2.elements
      (items.any fun entry => entry.2.isSymbolic)) =
        .ok (u.toList.map fun entry => (t.find? entry.1).getD #[]) := by
    refine mapM_of_ok ?_
    rintro ⟨k, item⟩ hmem
    rcases hrel k with ⟨b, x, hb, hx, hshows⟩ | ⟨hb, -⟩
    · cases hb.symm.trans (Table.mem_toList.mp hmem)
      rw [hshows.elements_eq, hx]
      rfl
    · cases hb.symm.trans (Table.mem_toList.mp hmem)
  have hnone : ∀ k, u.find? k = none → t.find? k = none := by
    intro k hk
    rcases hrel k with ⟨b, x, hb, -⟩ | ⟨-, ht⟩
    · cases hk.symm.trans hb
    · exact ht
  unfold stack
  rw [hu]
  simp only [hsymbolic, hparts, bind, Except.bind, pure, Except.pure]
  rw [concat, ← flatMap_filterMap Kind.all hnone]
  rfl

/-- The item is a matrix: a symbolic one, or a numeric literal of two dimensions. -/
inductive Item.IsMatrix : Item α → Matrix α → Prop
  | symbolic (m : Matrix α) : IsMatrix (.symbolic m) m
  | numeric {l : Literal α} {m : Matrix α} (h : l.IsNumeric m.extent.toList)
      (ht : l.toTensor = .ok m.toTensor) : IsMatrix (.numeric l) m

theorem Item.IsMatrix.shows {m : Matrix α} (h : item.IsMatrix m) : item.Shows m.data := by
  rcases h with _ | ⟨h, ht⟩
  · exact .symbolic m
  · exact .numeric h (Nat.le_refl 2) ht

/-- Matrices as arrays, under the kinds of a table. -/
theorem lists_arrays (V : Table (Matrix α)) :
    Keyed.Lists Item.IsMatrix ((Keyed.ofTable (V.map fun _ m => m.toTensor)).map fun entry =>
      ((entry.1, .numeric (.array entry.2)) : Key α × Item α)) V := by
  unfold Keyed.ofTable
  rw [Table.toList_map, List.map_map, List.map_map]
  have hmatrix : ∀ m : Matrix α, (Item.numeric (.array m.toTensor)).IsMatrix m := fun m =>
    .numeric (.array m.toTensor) rfl
  exact .of_toList V hmatrix

omit [Number α] in
theorem concat_map_data (t : Table (Tensor α)) : concat (t.map fun _ v => v.data) = flatten t := by
  unfold concat flatten
  congr 2
  funext k
  rw [Table.find?_map]
  cases t.find? k <;> rfl

/-- Arrays of at most two dimensions are stacked as they are kept. -/
theorem stack_of_arrays {t : Table (Tensor α)} (hdepth : ∀ k v, t.find? k = some v →
    v.shape.length ≤ 2) (h : items.Lists (fun item v => item = .numeric (.array v)) t) :
    stack items = .ok ⟨false, flatten t⟩ := by
  have hnumeric : (items.any fun entry => entry.2.isSymbolic) = false := by
    rw [List.any_eq_false]
    intro entry hentry
    obtain ⟨k, v, -, -, hitem⟩ := h.value entry hentry
    simp [hitem, Item.isSymbolic]
  have hshows : items.Lists Item.Shows (t.map fun _ v => v.data) := by
    refine h.map ?_
    rintro k item v hv rfl
    exact .numeric (.array v) (hdepth k v hv) rfl
  rw [stack_eq hshows, hnumeric, concat_map_data]

theorem stack_of_matrices {V : Table (Matrix α)} (h : items.Lists Item.IsMatrix V) :
    stack items = .ok ⟨items.any fun entry => entry.2.isSymbolic,
      flatten (V.map fun _ m => m.toTensor)⟩ := by
  have htables : V.map (fun _ m => m.data) =
      (V.map fun _ m => m.toTensor).map fun _ v => v.data := by
    ext1 k
    rw [Table.find?_map, Table.find?_map, Table.find?_map, Option.map_map]
    rfl
  rw [stack_eq (h.map fun _ _ _ _ => Item.IsMatrix.shows), htables, concat_map_data]

theorem stack_of_symbols {V : Table (Matrix α)} (hne : ∃ k, V.contains k)
    (h : items.Lists (fun item m => item = .symbolic m) V) :
    stack items = .ok ⟨true, flatten (V.map fun _ m => m.toTensor)⟩ := by
  have hsymbolic : (items.any fun entry => entry.2.isSymbolic) = true := by
    obtain ⟨k, hk⟩ := hne
    obtain ⟨entry, hentry, -⟩ := h.complete k hk
    obtain ⟨k', m, -, -, hitem⟩ := h.value entry hentry
    exact List.any_eq_true.mpr ⟨entry, hentry, by rw [hitem]; rfl⟩
  have hmatrices : items.Lists Item.IsMatrix V := by
    refine ⟨h.distinct, ?_, h.complete⟩
    intro entry hentry
    obtain ⟨k, m, hk, hm, hitem⟩ := h.value entry hentry
    exact ⟨k, m, hk, hm, hitem ▸ .symbolic m⟩
  rw [stack_of_matrices hmatrices, hsymbolic]

/-! ## Cutting -/

/-- The vector as it may be handed over: an array of one dimension, or a symbolic column. -/
inductive Item.IsVector : Item α → Array α → Prop
  | array (x : Array α) : IsVector (.numeric (.array (.vector x))) x
  | column (x : Array α) : IsVector (.symbolic (.column x)) x

theorem Item.IsVector.toVector_eq (h : item.IsVector x) : item.toVector = .ok x := by
  rcases h with _ | _
  · exact congrArg Except.ok (Tensor.written_of_shape (n := x.size) rfl)
  · refine congrArg Except.ok (Array.ext ?_ ?_)
    · simp [Tensor.written, Matrix.toTensor, Matrix.column]
    · intro k hk hk'
      simp [Tensor.written, Matrix.toTensor, Matrix.column, Extent.toList, position, Tensor.get,
        Nat.mod_one]

variable {shapes : Keyed α Extent} {extents : Table Extent}

omit [Number α] in
theorem total_eq {κ : Type} (shapes : List (κ × Extent)) :
    total shapes = (shapes.map fun entry => entry.2.size).sum := by
  induction shapes with
  | nil => rfl
  | cons entry shapes ih =>
    rw [List.map_cons, List.sum_cons, ← ih]
    rfl

omit [Number α] in
theorem countAll_eq (ks : List Kind) :
    countAll extents ks =
      ((ks.filterMap fun k => (extents.find? k).map fun e => (k, e)).map fun entry =>
        entry.2.size).sum := by
  induction ks with
  | nil => rfl
  | cons k ks ih =>
    show count extents k + countAll extents ks = _
    rw [ih, count]
    cases hk : extents.find? k with
    | none => simp [hk]
    | some e => simp [hk]

/-- Listed extents ask for as many elements as the layout has. -/
theorem total_of_lists (h : shapes.Lists Eq extents) : total shapes = length extents := by
  obtain ⟨kinds, rfl, hkinds⟩ := Keyed.exists_of_toTable h.toTable_eq
  have hne := Keyed.pairwise_kinds hkinds h.distinct
  have hperm : kinds.Perm (Table.ofList kinds).toList := by
    refine (List.perm_ext_iff_of_nodup ?_ ?_).mpr ?_
    · exact hne.imp fun hne heq => hne (congrArg _ heq)
    · exact (Table.pairwise_toList _).imp fun hne heq => hne (congrArg _ heq)
    · rintro ⟨k, e⟩
      rw [Table.mem_toList, Table.find?_ofList hne]
  have hsizes : shapes.map (fun entry => entry.2.size) = kinds.map fun entry => entry.2.size := by
    apply List.ext_getElem
    · rw [List.length_map, List.length_map, hkinds.length_eq]
    · intro i hi hi'
      rw [List.length_map] at hi hi'
      have hvalue := (hkinds.get hi hi').2
      rw [List.get_eq_getElem, List.get_eq_getElem] at hvalue
      rw [List.getElem_map, List.getElem_map, hvalue]
  rw [total_eq, hsizes, (hperm.map fun entry => entry.2.size).sum_eq, length, countAll_eq]
  rfl

/-- Under keys a vector is cut as it is by their kinds. -/
theorem expandKeyed_eq (h : shapes.Lists Eq extents) (x : Array α) :
    expandKeyed shapes x = expand extents x := by
  unfold expandKeyed expand
  rw [total_of_lists h, h.toTable_eq]
  split_ifs with hsize
  · show expand extents x = _
    unfold expand
    rw [if_pos hsize]
  · rfl

end Layout
end Collocation
