import Collocation.Proofs.Indexing
import Collocation.Proofs.Places
import Collocation.Proofs.Scheme.RoundTrip

/-! # Rows under names

  A solution carries the names of the components, and a component is read under its name. Names of
  a kind that are distinct stand for its rows in their order, so what is read are the elements of
  the row in the vector that was cut. -/

namespace Collocation

variable {α : Type} [Number α]

/-! ## Trajectories -/

namespace Trajectory

variable {t : Trajectory α} {k : Kind} {list : NameList} {name : String} {i rows cols : Nat}
  {v : Tensor α}

omit [Number α] in
theorem nameIndex_eq_ok (hnodup : (t.names.get list).Nodup)
    (h : (t.names.get list)[i]? = some name) : t.nameIndex list name = .ok i := by
  have hfirst : (t.names.get list).idxOf? name = some i := by
    obtain ⟨hi, hname⟩ := List.getElem?_eq_some_iff.mp h
    rw [List.idxOf?_eq_some_iff]
    refine ⟨hi, hname, ?_⟩
    intro j hj hsame
    have hij := hnodup.getElem_inj_iff.mp (hsame.trans hname.symm)
    omega
  unfold nameIndex
  rw [hfirst]

theorem namedRow_eq_ok (hvalue : t.values.get k = .ok v) (hshape : v.shape = [rows, cols])
    (hname : t.nameIndex list name = .ok i) (hi : i < rows) (hindex : i < 0x8000000000000000) :
    t.namedRow k list name =
      .ok (.vector (Array.ofFn fun j : Fin cols => v.get (i + rows * j))) := by
  unfold namedRow
  rw [hvalue, hname]
  simp only [bind, Except.bind, Tensor.resolve_row hshape hi hindex, pure, Except.pure,
    Tensor.below_row hshape]

theorem namedParameter_eq_ok (hvalue : t.values.get .parameters = .ok v)
    (hshape : v.shape = [rows, cols]) (hcols : 0 < cols)
    (hname : t.nameIndex .parameters name = .ok i) (hi : i < rows)
    (hindex : i < 0x8000000000000000) : t.namedParameter name = .ok (v.get i) := by
  obtain ⟨hscalar, hget⟩ := Tensor.below_element (i := i) hshape
  unfold namedParameter
  rw [hvalue, hname]
  simp only [bind, Except.bind, Tensor.resolve_element hshape hi hindex hcols, hscalar,
    List.isEmpty_nil, if_true, pure, Except.pure, hget]

end Trajectory

/-! ## Solutions -/

namespace Scheme

variable {s : Scheme α} {p : Problem α} {answer : Answer α} {t : Trajectory α} {Γ : Kind → Extent}
  {k : Kind} {list : NameList} {names : List String} {name : String} {i : Nat}

theorem names_of_solutionOf (h : s.solutionOf p answer = .ok t) : t.names = p.names := by
  obtain ⟨_, -, h⟩ := bind_eq_ok h
  obtain ⟨_, -, h⟩ := bind_eq_ok h
  obtain ⟨_, -, h⟩ := bind_eq_ok h
  cases h
  rfl

/-- The value of a kind in a solution is the part of the vector that belongs to the kind. -/
theorem value_of_solutionOf (hextents : s.extents = .full Γ)
    (h : s.solutionOf p answer = .ok t) (k : Kind) :
    ∃ v, t.values.get k = .ok v ∧ v.shape = (Γ k).toList ∧ ∀ q < (Γ k).rows * (Γ k).cols,
      v.get q = answer.vector.getD (Layout.offset (.full Γ) k + q) default := by
  have hvalues := values_of_solutionOf h
  refine ⟨(Matrix.ofColumnMajor (Γ k) fun q =>
    answer.vector.getD (Layout.offset (.full Γ) k + q) default).toTensor, ?_, rfl, ?_⟩
  · rw [hvalues]
    apply Keyed.get_of_toTable (Keyed.distinct_ofTable _) (Keyed.toTable_ofTable _)
    rw [Table.find?_map, Layout.cut, Table.find?_map, hextents, Table.find?_full]
    rfl
  · intro q hq
    simp [Tensor.get, Matrix.toTensor, Matrix.ofColumnMajor, Extent.size, hq]

/-- Under the name of a component are the elements of its row. -/
theorem namedRow_of_solutionOf (hextents : s.extents = .full Γ)
    (h : s.solutionOf p answer = .ok t) (hnames : p.names.get list = names)
    (hnodup : names.Nodup) (hname : names[i]? = some name) (hi : i < (Γ k).rows)
    (hindex : i < 0x8000000000000000) :
    t.namedRow k list name = .ok (.vector (Array.ofFn fun j : Fin (Γ k).cols =>
      answer.vector.getD (Layout.offset (.full Γ) k + j * (Γ k).rows + i) default)) := by
  obtain ⟨v, hvalue, hshape, hget⟩ := value_of_solutionOf hextents h k
  rw [← names_of_solutionOf h] at hnames
  subst hnames
  rw [Trajectory.namedRow_eq_ok hvalue hshape (Trajectory.nameIndex_eq_ok hnodup hname) hi hindex]
  congr 3
  funext j
  rw [hget _ (index_lt hi j.isLt), Nat.mul_comm, Nat.add_comm i, ← Nat.add_assoc]

/-- Parameters are at the end of the vector. -/
theorem namedParameter_of_solutionOf (hextents : s.extents = .full Γ)
    (h : s.solutionOf p answer = .ok t) (hnames : p.names.get .parameters = names)
    (hnodup : names.Nodup) (hname : names[i]? = some name) (hcols : (Γ .parameters).cols = 1)
    (hi : i < (Γ .parameters).rows) (hindex : i < 0x8000000000000000) :
    t.namedParameter name =
      .ok (answer.vector.getD (answer.vector.size - (Γ .parameters).rows + i) default) := by
  obtain ⟨v, hvalue, hshape, hget⟩ := value_of_solutionOf hextents h .parameters
  have hsize := size_of_solutionOf h
  rw [← names_of_solutionOf h] at hnames
  subst hnames
  have hlength : Layout.length (.full Γ) =
      Layout.offset (.full Γ) .parameters + (Γ .parameters).rows := by
    rw [Layout.length, Layout.countAll_full, Layout.offset_full]
    simp [Kind.all, Kind.index, hcols, Nat.add_assoc]
  rw [Trajectory.namedParameter_eq_ok hvalue hshape (by omega)
    (Trajectory.nameIndex_eq_ok hnodup hname) hi hindex, hget i (by rw [hcols]; omega)]
  congr 2
  rw [hsize, hextents, hlength]
  omega

end Scheme
end Collocation
