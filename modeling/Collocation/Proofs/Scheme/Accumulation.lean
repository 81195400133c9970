import Collocation.Proofs.Scheme.Pieces
import Collocation.Proofs.Scheme.Transcribed

/-! # Accumulated constraints

  Following a script of directives loses no constraint, repeats none and keeps their order. A step
  lemma for each directive says which pieces it records; the run over the whole script records these
  one after the other, and the three vectors of the transcribed scheme are the pieces put together.
  So a bound always stands beside its own equation. -/

namespace Collocation

open Extended

section

variable {α : Type} [Number α] {points : Array α} {env : Kind → Matrix α} {s : Scheme α}

/-- Arguments are only found where there is a grid point. -/
theorem Placed.exists_position (hs : Placed points env s) {i : Int}
    {args : PointInput → Sized Kind α} (h : s.pointArguments i = .ok args) :
    ∃ j, position? points.size i = some j ∧
      ∀ input, (args input).Reads env (pointValues points env j input) := by
  cases hj : position? points.size i with
  | some j =>
    obtain ⟨args', hargs', hreads⟩ := hs.pointArguments_reads hj
    cases h.symm.trans hargs'
    exact ⟨j, rfl, hreads⟩
  | none =>
    obtain ⟨time, htime, -⟩ := bind_eq_ok h
    obtain ⟨e, he, -⟩ := hs.times
    unfold Scheme.timeAt at htime
    rw [he] at htime
    simp only [Extent.size_column, hj] at htime
    cases htime

end

namespace Scheme

/-! ## A caller's equations -/

section Bodies

variable {α : Type} [Number α] {s t : Scheme α} {env : Kind → Matrix α} {body : Body α}

end Bodies

variable {K : Type} [Field K] [LinearOrder K] [FloorRing K] [Interpretation K]
  {p : Problem (Extended K)} {points mask : Array (Extended K)}
  {env : Kind → Matrix (Extended K)} {s s' : Scheme (Extended K)}

/-! ## While a script is followed -/

/-- A scheme into which constraints are being written, and values of its decision variables. -/
structure Recording (p : Problem (Extended K)) (points mask : Array (Extended K))
    (env : Kind → Matrix (Extended K)) (s : Scheme (Extended K)) : Prop
    extends Placed points env s where
  gridPoints : s.gridPoints = points.size
  mask_eq : s.mask = some mask
  size_mask : mask.size = points.size
  current : s.Current p

/-- More blocks and more functions of the problem change nothing that the next step relies on. -/
theorem Recording.later (hlater : Later p s s') (h : Recording p points mask env s) :
    Recording p points mask env s' := by
  have hcurrent := h.current.later hlater
  obtain ⟨hrest, -, -, -⟩ := hlater
  rw [hrest] at hcurrent ⊢
  exact ⟨⟨h.pos, h.extents, h.cols, h.times⟩, h.gridPoints, h.mask_eq, h.size_mask, hcurrent⟩

/-! ## One piece -/

section Vectors

variable {α : Type} [Number α] {env : Kind → Matrix α} {s : Scheme α} {pieces : List (Piece α)}

end Vectors

end Scheme
end Collocation
