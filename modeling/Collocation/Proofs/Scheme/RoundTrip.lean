import Collocation.Proofs.Scheme.Transcribed
import Collocation.Proofs.Scheme.WarmStart
import Collocation.Proofs.Stacking

/-! # Values and vectors

  Stacking and cutting undo each other, for matrices of all sizes under keys in any order. So what
  a solution holds is what the backend answered with, element for element. -/

namespace Collocation

open Layout

variable {α : Type} [Number α]

/-! ## Matrices -/

section Matrices

variable {extents : Table Extent} {V : Table (Matrix α)}

/-- Matrices of the sizes of a layout are cut out of the vector into which they are stacked. -/
theorem Layout.expand_flatten (h : ∀ k, (V.find? k).map (·.extent) = extents.find? k) :
    expand extents (flatten (V.map fun _ m => m.toTensor)) = .ok V := by
  have hfits : Fits extents (V.map fun _ m => m.toTensor) := by
    intro k
    rw [Table.find?_map, ← h k, Option.map_map, Option.map_map]
    rfl
  unfold expand
  rw [if_pos (size_flatten hfits), Except.ok.injEq]
  ext1 k
  -- as tensors they are the same, and a matrix has an extent besides
  have htensors := congrArg (fun t => t.find? k) (cut_flatten hfits)
  simp only [Table.find?_map] at htensors
  have hextents : ((cut extents (flatten (V.map fun _ m => m.toTensor))).find? k).map (·.extent) =
      (V.find? k).map (·.extent) := by
    rw [h k, cut, Table.find?_map, Option.map_map]
    exact Option.map_id'
  cases hm : (cut extents (flatten (V.map fun _ m => m.toTensor))).find? k with
  | none =>
    rw [hm, Option.map_none, eq_comm, Option.map_eq_none_iff] at hextents
    exact hextents.symm
  | some m =>
    rw [hm, Option.map_some, eq_comm, Option.map_eq_some_iff] at hextents htensors
    obtain ⟨m', hm', hextent⟩ := hextents
    obtain ⟨m'', hm'', htensor⟩ := htensors
    cases hm'.symm.trans hm''
    rw [hm']
    exact congrArg some (Matrix.ext hextent.symm (congrArg Tensor.data htensor).symm)

theorem Layout.extent_cut (extents : Table Extent) (x : Array α) (k : Kind) :
    ((cut extents x).find? k).map (·.extent) = extents.find? k := by
  rw [cut, Table.find?_map, Option.map_map]
  exact Option.map_id'

end Matrices

/-! ## Solutions -/

namespace Scheme

variable {s s' : Scheme α} {p : Problem α} {answer : Answer α} {t : Trajectory α}

/-- A solution has the matrices that the answered vector is cut into. -/
theorem values_of_solutionOf (h : s.solutionOf p answer = .ok t) :
    t.values = Keyed.ofTable ((cut s.extents answer.vector).map fun _ m => m.toTensor) := by
  have hsize := size_of_solutionOf h
  unfold solutionOf at h
  rw [expand_eq hsize] at h
  obtain ⟨matrices, hmatrices, h⟩ := bind_eq_ok h
  cases hmatrices
  obtain ⟨times, -, h⟩ := bind_eq_ok h
  obtain ⟨_, -, h⟩ := bind_eq_ok h
  cases h
  rfl

theorem flatten_solutionOf (h : s.solutionOf p answer = .ok t) :
    t.flatten = .ok answer.vector := by
  have hvalues := values_of_solutionOf h
  rw [Trajectory.flatten_eq_ok (hvalues ▸ Keyed.toTable_ofTable _),
    flatten_cut (size_of_solutionOf h)]

/-- A scheme with a grid and two single end times reads every vector of its length. -/
theorem exists_solutionOf_of_grid {Γ : Kind → Extent} (hextents : s.extents = .full Γ)
    (hinitial : Γ .initialTime = .unit) (hfinal : Γ .finalTime = .unit) {grid : Array α}
    (hgrid : s.gridVector = .ok grid) (hsize : answer.vector.size = length s.extents)
    (p : Problem α) : ∃ t, s.solutionOf p answer = .ok t := by
  have hunit : ∀ k, Γ k = .unit →
      ∃ t, ((cut s.extents answer.vector).map fun _ m => m.toTensor).find? k = some t ∧
        t.size ≠ 0 := by
    intro k hk
    have hfind : s.extents.find? k = some .unit := by rw [hextents, Table.find?_full, hk]
    refine ⟨_, by rw [Table.find?_map, cut, Table.find?_map, hfind]; rfl, ?_⟩
    simp [Tensor.size, Matrix.toTensor, Matrix.ofColumnMajor, Extent.size, Extent.unit]
  obtain ⟨initial, hinitial', hinitialSize⟩ := hunit .initialTime hinitial
  obtain ⟨final, hfinal', hfinalSize⟩ := hunit .finalTime hfinal
  have htimes := timesOf_eq_ok hgrid hinitial' hinitialSize hfinal' hfinalSize
  unfold solutionOf
  rw [expand_eq hsize]
  simp only [bind, Except.bind]
  rw [htimes]
  unfold Trajectory.solution
  rw [Keyed.toTable_ofTable]
  exact ⟨_, rfl⟩

/-- A transcribed scheme reads every vector of its length. -/
theorem exists_solutionOf (hvariables : extentsFor p s.gridPoints = .ok s.extents)
    {p' : Problem α} (h : transcribe p' s = .ok () s')
    (hsize : answer.vector.size = length s'.extents) (problem : Problem α) :
    ∃ t, s'.solutionOf problem answer = .ok t := by
  obtain ⟨s₁, s₂, hprepare, happly, rfl⟩ := transcribe_eq_ok h
  obtain ⟨d, hd, rfl⟩ := prepare_eq_ok_iff.mp hprepare
  have hlater := steady_applyRule.later_of_ok happly
  obtain ⟨derivatives, slacks, -, -, hextents⟩ := extentsFor_eq_ok hvariables
  have hgrid : ({ s₂ with transcribed := true } : Scheme α).gridVector = .ok d.points := by
    show s₂.gridVector = _
    rw [hlater.rest]
    exact congrArg Except.ok (Tensor.written_vector _)
  exact exists_solutionOf_of_grid (hlater.extents.trans hextents) rfl rfl hgrid hsize problem

end Scheme

/-! ## Both directions -/

/-- Let extents be listed under keys. Matrices of these sizes, numeric or symbolic and under keys in
    any order, are stacked into a vector from which these matrices are cut again. Every vector with
    as many elements as the extents ask for, whether an array or a symbolic column, is cut into
    matrices of these sizes that are stacked into it again, and a vector of another length is
    refused. So for a scheme with these variables a solution is stacked into exactly the vector that
    the backend answered with, and if the scheme was transcribed then every vector of this length is
    read as a solution. -/
theorem flatten_expand_inverse {shapes : Keyed α Extent} {extents : Table Extent}
    (hshapes : shapes.Lists Eq extents) :
    (∀ (V : Table (Matrix α)) (items : Keyed α (Item α)),
      (∀ k, (V.find? k).map (·.extent) = extents.find? k) → items.Lists Item.IsMatrix V →
        ∃ x, stack items = .ok x ∧ ∀ v : Item α, v.IsVector x.data →
          (v.toVector >>= expandKeyed shapes) = .ok V) ∧
    (∀ (x : Array α) (v : Item α), v.IsVector x →
      (x.size = (shapes.map fun entry => entry.2.rows * entry.2.cols).sum →
        ∃ V, (v.toVector >>= expandKeyed shapes) = .ok V ∧
          (∀ k, (V.find? k).map (·.extent) = extents.find? k) ∧
          ∀ items : Keyed α (Item α), items.Lists Item.IsMatrix V →
            ∃ y, stack items = .ok y ∧ y.data = x) ∧
      (x.size ≠ (shapes.map fun entry => entry.2.rows * entry.2.cols).sum →
        ∃ fault, (v.toVector >>= expandKeyed shapes) = .error fault ∧
          fault.category = .contract)) ∧
    (∀ (s : Scheme α) (p : Problem α) backend guess solved, s.extents = extents →
      s.solve p backend guess = .ok solved →
        ∃ answer, backend solved.program = .ok answer ∧
          answer.vector.size = (shapes.map fun entry => entry.2.rows * entry.2.cols).sum ∧
          solved.solution.flatten = .ok answer.vector ∧
          stack (solved.solution.values.map fun entry => (entry.1, .numeric (.array entry.2))) =
            .ok ⟨false, answer.vector⟩) ∧
    ∀ (p p' : Problem α) (s s' : Scheme α), Scheme.extentsFor p s.gridPoints = .ok s.extents →
      Scheme.transcribe p' s = .ok () s' → s'.extents = extents →
        ∀ problem answer,
          answer.vector.size = (shapes.map fun entry => entry.2.rows * entry.2.cols).sum →
            ∃ t, s'.solutionOf problem answer = .ok t := by
  have hlength : (shapes.map fun entry => entry.2.rows * entry.2.cols).sum = length extents := by
    rw [← total_of_lists hshapes, total_eq]
    rfl
  simp only [hlength]
  refine ⟨?_, ?_, ?_, ?_⟩
  · intro V items hV hitems
    refine ⟨_, stack_of_matrices hitems, ?_⟩
    intro v hv
    rw [hv.toVector_eq]
    show expandKeyed shapes _ = _
    rw [expandKeyed_eq hshapes, expand_flatten hV]
  · intro x v hv
    rw [hv.toVector_eq]
    constructor
    · intro hsize
      refine ⟨cut extents x, ?_, extent_cut extents x, ?_⟩
      · show expandKeyed shapes x = _
        rw [expandKeyed_eq hshapes, expand, if_pos hsize]
      · intro items hitems
        exact ⟨_, stack_of_matrices hitems, flatten_cut hsize⟩
    · intro hsize
      refine ⟨.vectorLength x.size (length extents), ?_, rfl⟩
      show expandKeyed shapes x = _
      rw [expandKeyed_eq hshapes, expand, if_neg hsize]
  · intro s p backend guess solved hextents hsolve
    obtain ⟨-, answer, hanswer, hsolution⟩ := Scheme.solve_eq_ok hsolve
    have hsize := Scheme.size_of_solutionOf hsolution
    rw [hextents] at hsize
    refine ⟨answer, hanswer, hsize, Scheme.flatten_solutionOf hsolution, ?_⟩
    rw [Scheme.values_of_solutionOf hsolution, hextents]
    rw [stack_of_matrices (lists_arrays (cut extents answer.vector)), flatten_cut hsize]
    simp [List.any_map, Item.isSymbolic]
  · intro p p' s s' hvariables htranscribe hextents problem answer hsize
    exact Scheme.exists_solutionOf hvariables htranscribe (hextents ▸ hsize) problem

/-- States, controls and slacks without a row, under keys that are out of order. -/
def mixedShapes : Keyed (Extended ℚ) Extent :=
  [(.kind .slacks, ⟨0, 2⟩), (.index .controls (.whole 3), ⟨1, 2⟩), (.kind .states, ⟨2, 2⟩)]

def mixedStates : Matrix (Extended ℚ) := ⟨⟨2, 2⟩, #[1, 2, 3, 4].map .finite, by simp [Extent.size]⟩

def mixedControls : Matrix (Extended ℚ) := ⟨⟨1, 2⟩, #[5, 6].map .finite, by simp [Extent.size]⟩

def mixedSlacks : Matrix (Extended ℚ) := ⟨⟨0, 2⟩, #[], by simp [Extent.size]⟩

def mixedMatrices : Table (Matrix (Extended ℚ)) where
  states := some mixedStates
  controls := some mixedControls
  slacks := some mixedSlacks

/-- The states symbolically, everything else as arrays. -/
def mixedItems : Keyed (Extended ℚ) (Item (Extended ℚ)) :=
  [(.kind .controls, .numeric (.array mixedControls.toTensor)),
    (.kind .slacks, .numeric (.array mixedSlacks.toTensor)),
    (.index .states (.whole 2), .symbolic mixedStates)]

theorem lists_mixedShapes : mixedShapes.Lists Eq (mixedMatrices.map fun _ m => m.extent) := by
  refine ⟨by decide +kernel, ?_, ?_⟩
  · intro entry hentry
    simp only [mixedShapes, List.mem_cons, List.not_mem_nil, or_false] at hentry
    rcases hentry with rfl | rfl | rfl
    · exact ⟨.slacks, _, rfl, rfl, rfl⟩
    · exact ⟨.controls, _, rfl, rfl, rfl⟩
    · exact ⟨.states, _, rfl, rfl, rfl⟩
  · intro k
    cases k <;> decide +kernel

theorem lists_mixedItems : mixedItems.Lists Item.IsMatrix mixedMatrices := by
  have harray : ∀ m : Matrix (Extended ℚ), (Item.numeric (.array m.toTensor)).IsMatrix m := fun m =>
    .numeric (.array m.toTensor) rfl
  refine ⟨by decide +kernel, ?_, ?_⟩
  · intro entry hentry
    simp only [mixedItems, List.mem_cons, List.not_mem_nil, or_false] at hentry
    rcases hentry with rfl | rfl | rfl
    · exact ⟨.controls, _, rfl, rfl, harray _⟩
    · exact ⟨.slacks, _, rfl, rfl, harray _⟩
    · exact ⟨.states, _, rfl, rfl, .symbolic _⟩
  · intro k
    cases k <;> decide +kernel

/-- The mixed values are stacked and cut again, and a vector that is too short is refused. -/
theorem flatten_expand_inverse_mixed :
    (∃ x, stack mixedItems = .ok x ∧ ((Item.symbolic (.column x.data)).toVector >>=
      expandKeyed mixedShapes) = .ok mixedMatrices) ∧
    ∃ fault, ((Item.numeric (.array (.vector (#[1, 2].map Extended.finite)))).toVector >>=
      expandKeyed mixedShapes) = .error fault ∧ fault.category = .contract := by
  obtain ⟨hmatrices, hvectors, -⟩ := flatten_expand_inverse lists_mixedShapes
  refine ⟨?_, ?_⟩
  · have hextents := fun k => (Table.find?_map (fun _ m => m.extent) mixedMatrices k).symm
    obtain ⟨x, hx, hexpand⟩ := hmatrices mixedMatrices mixedItems hextents lists_mixedItems
    exact ⟨x, hx, hexpand _ (.column x.data)⟩
  · exact (hvectors _ _ (.array (#[1, 2].map Extended.finite))).2 (by decide +kernel)

end Collocation
