import Collocation.Proofs.Layout
import Collocation.Proofs.Times
import Collocation.Scheme.Program

/-! # Carried trajectories

  Carrying a trajectory to other times gives every kind its value there, under the key that it
  had. A guess whose values have the sizes of the decision variables becomes the vector of these
  values. -/

namespace Collocation

variable {α : Type} [Number α]

namespace Keyed

variable {β γ : Type} {entries : Keyed α β} {k : Kind}

/-- New values under the same keys, by the kinds that the keys are. -/
theorem find?_map (f : Option Kind → β → γ) (entries : Keyed α β) (k : Kind) :
    Keyed.find? (entries.map fun e => (e.1, f e.1.kind? e.2)) (.kind k) =
      (Keyed.find? entries (.kind k)).map (f (some k)) := by
  unfold Keyed.find?
  induction entries with
  | nil => rfl
  | cons e entries ih =>
    rw [List.map_cons, List.find?_cons, List.find?_cons]
    by_cases hk : e.1.same (.kind k) = true
    · simp [hk, Key.same_kind_iff.mp hk]
    · rw [Bool.not_eq_true] at hk
      simp only [hk]
      exact ih

end Keyed

namespace Trajectory

variable {t : Trajectory α} {values : Table (Tensor α)} {times : Array α} {k : Kind}

omit [Number α] in
theorem flatten_eq_ok (h : t.values.toTable = .ok values) :
    t.flatten = .ok (Layout.flatten values) := by
  unfold flatten
  rw [h]
  rfl

theorem first_eq_ok (hdistinct : t.values.Distinct) (h : t.values.toTable = .ok values)
    {v : Tensor α} (hk : values.find? k = some v) (hsize : v.data.size ≠ 0) :
    t.first k = .ok (v.get 0) := by
  unfold first
  rw [Keyed.get_of_toTable hdistinct h hk]
  simp [bind, Except.bind, Tensor.size, hsize, pure, Except.pure]

/-- Each value is carried by itself, by the kind that its key is. -/
theorem resample_eq_map {f : Option Kind → Tensor α → Tensor α}
    (h : ∀ e ∈ t.values, resampleValue t.times.written times e.1 e.2 = .ok (f e.1.kind? e.2)) :
    t.resample times = .ok
      (.iterate (t.values.map fun e => (e.1, f e.1.kind? e.2)) (.vector times) t.names) := by
  have hentries : t.values.mapM (fun e => do
      return (e.1, ← resampleValue t.times.written times e.1 e.2)) =
      .ok (t.values.map fun e => (e.1, f e.1.kind? e.2)) := by
    refine mapM_of_ok ?_
    intro e he
    simp only [h e he]
    rfl
  unfold resample
  simp only [hentries]
  rfl

/-- A trajectory that is carried has the carried value of every kind. -/
theorem resample_eq_ok (hdistinct : t.values.Distinct) (h : t.values.toTable = .ok values)
    {g : Kind → Tensor α → Tensor α}
    (hg : ∀ k v, values.find? k = some v →
      resampleValue t.times.written times (.kind k) v = .ok (g k v)) :
    ∃ carried, t.resample times = .ok (.iterate carried (.vector times) t.names) ∧
      ∀ k, Keyed.find? carried (.kind k) = (values.find? k).map (g k) := by
  let f : Option Kind → Tensor α → Tensor α := fun kind v => (kind.map fun k => g k v).getD v
  refine ⟨t.values.map fun e => (e.1, f e.1.kind? e.2), resample_eq_map ?_, ?_⟩
  · rintro ⟨key, v⟩ hmem
    obtain ⟨k, hk, hv⟩ := Keyed.mem_of_toTable hdistinct h hmem
    -- the key counts only as the kind that it is
    simp only [f, hk, Option.map_some, Option.getD_some]
    rw [← hg k v hv]
    unfold resampleValue
    rw [hk]
    rfl
  · intro k
    rw [Keyed.find?_map, Keyed.find?_of_toTable hdistinct h]
    rfl

end Trajectory

namespace Scheme

variable {s : Scheme α} {guess : Trajectory α} {values : Table (Tensor α)}

omit [Number α] in
/-- A matrix counts as it is where two dimensions are asked for. -/
theorem atLeast2D_of_shape {v : Tensor α} {e : Extent} (h : v.shape = e.toList) :
    v.atLeast2D = v := by
  refine Tensor.ext ?_ rfl
  show Tensor.matrixShape v.shape = v.shape
  rw [h]
  rfl

/-- A guess is carried to the times of the grid between its own end times. -/
theorem carryGuess_eq {grid : Array α} {initial final : α} (hgrid : s.gridVector = .ok grid)
    (hinitial : guess.first .initialTime = .ok initial)
    (hfinal : guess.first .finalTime = .ok final) :
    s.carryGuess guess = guess.resample (timesBetween grid initial final) := by
  unfold carryGuess
  rw [hinitial, hfinal]
  show (s.createTimes initial final >>= guess.resample) = _
  rw [createTimes_eq hgrid]
  rfl

/-- A guess with values of the sizes of the decision variables becomes the vector of them. -/
theorem flattenGuess_eq_ok (hfits : Layout.Fits s.extents values)
    (h : ∀ k, Keyed.find? guess.values (.kind k) = values.find? k) :
    s.flattenGuess guess = .ok (Layout.flatten values) := by
  have hvalue : ∀ k e, s.extents.find? k = some e →
      guessValue guess k e = .ok ((values.find? k).getD (.vector #[])) := by
    intro k e he
    obtain ⟨v, hv, hshape, -⟩ := hfits.exists_find? he
    unfold guessValue
    rw [h k, hv]
    simp [atLeast2D_of_shape hshape, hshape, bind, Except.bind, pure, Except.pure]
  have htable : s.extents.map (fun k _ => (values.find? k).getD (.vector #[])) = values := by
    ext1 k
    rw [Table.find?_map]
    cases he : s.extents.find? k with
    | none =>
      have hshape := hfits k
      rw [he, Option.map_none, Option.map_eq_none_iff] at hshape
      rw [hshape]
      rfl
    | some e =>
      obtain ⟨v, hv, -⟩ := hfits.exists_find? he
      rw [hv]
      rfl
  unfold flattenGuess
  rw [Table.mapExcept_of_ok hvalue, htable]
  rfl

end Scheme
end Collocation
