import Collocation.Proofs.Scheme.Integral
import Collocation.Proofs.Times

/-! # Transcribed schemes of the built-in rules

  A transcribed scheme was prepared before its constraints were written, and its preparation fits
  every finite decision vector. So what a prepared scheme says about the values in a vector is what
  the transcribed scheme says. -/

namespace Collocation

/-- A construction and the transcription after it end well, with schemes that pass a check. -/
def Scheme.transcribesTo {α : Type} [Number α] (p : Problem α)
    (construction : Except (Fault α) (Scheme α)) (check : Scheme α → Scheme α → Bool) : Bool :=
  match construction with
  | .ok s =>
    match transcribe p s with
    | .ok _ s' => check s s'
    | .error _ _ => false
  | .error _ => false

theorem Scheme.exists_of_transcribesTo {α : Type} [Number α] {p : Problem α}
    {construction : Except (Fault α) (Scheme α)} {check : Scheme α → Scheme α → Bool}
    (h : transcribesTo p construction check) :
    ∃ s s', construction = .ok s ∧ transcribe p s = .ok () s' ∧ check s s' := by
  unfold transcribesTo at h
  split at h
  · next s =>
    split at h
    · next s' hs' => exact ⟨s, s', rfl, hs', h⟩
    · cases h
  · cases h

open Extended

variable {K : Type} [Field K] [LinearOrder K] [FloorRing K] [Interpretation K]
  {p : Problem (Extended K)} {mesh : Array (Extended K)} {env : Kind → Matrix (Extended K)}
  {s s' : Scheme (Extended K)}

namespace BuiltIn

variable {b : BuiltIn} {settings : Settings (Extended K)} {literal : Literal (Extended K)}

/-- The prepared scheme that a transcription came from. -/
structure From (b : BuiltIn) (p : Problem (Extended K)) (mesh : Array (Extended K))
    (s₁ s' : Scheme (Extended K)) : Prop where
  finite_mesh : ∀ i, ∃ x, mesh.getD i default = finite x
  prepared : s₁.Prepared (b.rule mesh) p
  ready : ∀ x : Array K, Ready p (b.grid mesh) (s'.valuesOf (x.map finite)) s₁
  written : ∃ s₂, Scheme.applyRule p s₁ = .ok () s₂ ∧ s' = { s₂ with transcribed := true }
  extents : s'.extents = s₁.extents

/-- Every transcribed scheme comes from a prepared one with the variables of the fresh scheme. -/
theorem exists_from (hmesh : Mesh.ofLiteral literal = .ok mesh)
    (hdefined : ∀ x ∈ mesh, x ≠ undefined) (hs : b.scheme settings p literal = .ok s)
    (h : Scheme.transcribe p s = .ok () s') :
    ∃ s₁, b.From p mesh s₁ s' ∧ s'.extents = s.extents := by
  have hfresh := b.fresh hmesh hs
  obtain ⟨hsize, hfinite⟩ := Mesh.finite_of_literal hmesh hdefined
  obtain ⟨hgridSize, hgrid⟩ := b.finite_grid hsize hfinite
  obtain ⟨s₁, s₂, hprepare, happly, hs'⟩ := Scheme.transcribe_eq_ok h
  obtain ⟨hprepared, hextents⟩ := hfresh.prepared hprepare
  -- the constraints leave the sizes as they were prepared
  have hlater := Scheme.steady_applyRule.later_of_ok happly
  have hextents' : s'.extents = s₁.extents := by rw [hs', ← hlater.extents]
  refine ⟨s₁, ⟨hfinite, hprepared, ?_, ⟨s₂, happly, hs'⟩, hextents'⟩, hextents'.trans hextents⟩
  intro x
  rw [Scheme.valuesOf, hextents']
  exact hfresh.ready hgridSize hgrid x hprepare

namespace From

variable {s₁ : Scheme (Extended K)} (h : b.From p mesh s₁ s')

include h

/-- All kinds have a size. -/
theorem exists_extents : ∃ Γ, s'.extents = .full Γ :=
  ⟨_, h.extents.trans (h.ready #[]).extents⟩

/-- The grid of the scheme is the one of the rule. -/
theorem gridVector : s'.gridVector = .ok (b.grid mesh) := by
  obtain ⟨s₂, happly, hs'⟩ := h.written
  have hgrid : s'.grid = s₁.grid := by
    rw [hs', (Scheme.steady_applyRule.later_of_ok happly).rest]
    rfl
  unfold Scheme.gridVector
  rw [hgrid, (h.ready #[]).grid]
  exact congrArg Except.ok (Tensor.written_vector _)

/-- The times between two ends. -/
theorem createTimes (initial final : Extended K) :
    s'.createTimes initial final = .ok (Scheme.timesBetween (b.grid mesh) initial final) :=
  Scheme.createTimes_eq h.gridVector initial final

/-- The objective and the weights are those of the preparation. -/
theorem objective : ∃ w, s'.quadratureWeights = .ok w ∧ s₁.quadratureWeights = .ok w ∧
    s₁.costExpr p w = .ok s'.objective := by
  obtain ⟨s₂, happly, hs'⟩ := h.written
  have hlater := Scheme.steady_applyRule.later_of_ok happly
  obtain ⟨w, hw, hcost⟩ := h.prepared.objective
  have hobjective : s'.objective = s₁.objective := by rw [hs', ← hlater.objective]
  refine ⟨w, ?_, hw, hobjective ▸ hcost⟩
  rw [hs']
  exact hlater.quadratureWeights.trans hw

end From

/-! ## Defects -/

/-- The equations that tie the states to the dynamics. -/
def States (p : Problem (Extended K)) (mesh : Array (Extended K))
    (v : Kind → Matrix (Extended K)) : BuiltIn → Prop
  | trapezoidal => TrapezoidalStates p mesh v
  | hermiteSimpson _ => HermiteSimpsonStates p mesh v

/-- The first equations of a transcribed scheme are the defects: they are zero exactly where the
    states follow from the dynamics by the rule. -/
theorem From.vanishing_iff {s₁ : Scheme (Extended K)} (h : b.From p mesh s₁ s') (x : Array K) :
    b.defectCount p mesh ≤ (s'.constraintValues (s'.valuesOf (x.map finite))).size ∧
      ((∀ i < b.defectCount p mesh,
        (s'.constraintValues (s'.valuesOf (x.map finite))).getD i default = finite 0) ↔
          b.States p mesh (s'.valuesOf (x.map finite))) := by
  obtain ⟨s₂, happly, hs'⟩ := h.written
  have hready := h.ready x
  have hprepared := h.prepared
  have hconstraints : s'.constraintValues (s'.valuesOf (x.map finite)) =
      s₂.constraintValues (s'.valuesOf (x.map finite)) := by
    rw [hs']
    rfl
  rw [hconstraints]
  cases b with
  | trapezoidal => exact Scheme.trapezoidal_vanishing_iff hready hprepared happly
  | hermiteSimpson tieControls =>
    exact Scheme.hermiteSimpson_vanishing_iff h.finite_mesh hready hprepared happly

end BuiltIn
end Collocation
