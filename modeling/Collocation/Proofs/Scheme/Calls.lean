import Collocation.Proofs.Expression.Shape
import Collocation.Proofs.Scheme.Values

/-! # Calls

  A function that is called with expressions has the value that it has at their values. This does
  not take arguments of the declared sizes: a single element is repeated, an empty argument counts
  as zeros and a vector is turned, among expressions and among values alike. -/

namespace Collocation

open Extended

variable {K : Type} [Field K] [LinearOrder K] [FloorRing K] [Interpretation K]
  {env : Kind → Matrix (Extended K)}

/-! ## Arguments -/

/-- A vector that is turned to fit has the elements of what it reads, turned. -/
theorem Sized.Reads.turned {a : Sized Kind (Extended K)} {m : Matrix (Extended K)}
    {declared : Extent} (ha : a.Reads env m) (h : turns declared a.extent) :
    a.transpose.expr.HasSize (fun k => (env k).extent) declared ∧
      m.transpose = a.transpose.expr.eval env := by
  rw [turns, Bool.and_eq_true, Bool.or_eq_true, decide_eq_true_iff, decide_eq_true_iff,
    decide_eq_true_iff] at h
  obtain ⟨hvector, hturned⟩ := h
  have htranspose : a.transpose = a.reshape declared := by
    rw [Sized.transpose, if_pos hvector, hturned]
  have hsizes : declared.size = a.extent.size := by
    rw [← hturned, Extent.size, Extent.size, Extent.transpose, Nat.mul_comm]
  rw [htranspose]
  have hreshape := Sized.hasSize_reshape ha.size hsizes
  refine ⟨hreshape, Matrix.ext ?_ ?_⟩
  · rw [hreshape.extent_eval fun _ => rfl, ← hturned, ha.extent]
    rfl
  · rw [Matrix.data_transpose (ha.extent ▸ hvector), Sized.data_reshape ha.size hsizes, ha.eval]

/-- An expression that only reads is made to fit just as what it reads is. -/
theorem Sized.Reads.fits {a : Sized Kind (Extended K)} {m : Matrix (Extended K)}
    {declared : Extent} {e : Expr Kind (Extended K)} (ha : a.Reads env m)
    (h : a.fit? declared = some e) :
    e.HasSize (fun k => (env k).extent) declared ∧ m.fit? declared = some [e.eval env] := by
  have hnone : a.expr.constant? = none := by simp [Expr.constant?, ha.reading.matrix?]
  unfold Sized.fit? at h
  unfold Matrix.fit?
  rw [← ha.extent]
  -- the rules are tried in one order on both sides
  by_cases hsame : a.extent = declared
  · rw [if_pos hsame] at h ⊢
    cases h
    exact ⟨hsame ▸ ha.size, by rw [ha.eval]⟩
  rw [if_neg hsame] at h ⊢
  by_cases hempty : a.extent.isEmpty
  · rw [if_pos hempty] at h ⊢
    cases h
    refine ⟨Expr.hasSize_constant _ _, ?_⟩
    simp only [Expr.constant, Expr.eval, ite_self]
  rw [if_neg hempty] at h ⊢
  by_cases hunit : a.extent = .unit
  · rw [if_pos hunit] at h ⊢
    cases h
    simp only [Sized.spread, if_neg hsame, hnone]
    exact ⟨.fill declared (hunit ▸ ha.size), by rw [Expr.eval, ha.eval]⟩
  rw [if_neg hunit] at h ⊢
  by_cases hturns : turns declared a.extent
  · rw [if_pos hturns] at h ⊢
    cases h
    obtain ⟨hsize, hvalue⟩ := ha.turned hturns
    exact ⟨hsize, by rw [hvalue]⟩
  · rw [if_neg hturns] at h
    cases h

/-! ## Functions -/

theorem PointInput.mem_all (input : PointInput) : input ∈ (Inputs.all : List PointInput) := by
  cases input <;> decide

theorem EndpointInput.mem_all (input : EndpointInput) :
    input ∈ (Inputs.all : List EndpointInput) := by
  cases input <;> decide

namespace Function

section Generic

variable {ι σ α : Type} [Number α] [Inputs ι] {f : Function ι α}

/-- A call puts arguments that were made to fit in place of the inputs. -/
theorem call_eq_ok {args : ι → Sized σ α} {e : Sized σ α}
    (hall : ∀ i : ι, i ∈ (Inputs.all : List ι)) (h : f.call args = .ok e) :
    ∃ fitted : ι → Expr σ α, (∀ i, (args i).fit? (f.inputs i) = some (fitted i)) ∧
      e = ⟨f.applied fun i => ⟨fitted i, f.inputs i⟩, f.extent⟩ := by
  unfold call at h
  split at h
  · next hfits =>
    cases h
    refine ⟨fun i => ((args i).fit? (f.inputs i)).getD (args i).expr, ?_, rfl⟩
    intro i
    obtain ⟨e, he⟩ := Option.isSome_iff_exists.mp (List.all_eq_true.mp hfits i (hall i))
    simp only [he, Option.getD_some]
  · cases h

end Generic

variable {ι : Type} [Inputs ι] {f : Function ι (Extended K)}
  {args : ι → Sized Kind (Extended K)} {v : ι → Matrix (Extended K)} {e : Sized Kind (Extended K)}

/-- The value of a call is the value of the function at the values of the arguments. -/
theorem evaluate_of_call (hall : ∀ i : ι, i ∈ (Inputs.all : List ι)) (h : f.call args = .ok e)
    (hargs : ∀ i, (args i).Reads env (v i)) :
    f.evaluate v = .ok [e.expr.eval env] ∧ e.extent = f.extent ∧
      (f.Sound → e.expr.HasSize (fun k => (env k).extent) e.extent) := by
  obtain ⟨fitted, hfitted, rfl⟩ := call_eq_ok hall h
  have hfits := fun i => (hargs i).fits (hfitted i)
  refine ⟨?_, rfl, ?_⟩
  · rw [eval_applied]
    exact evaluate_of_single fun i => (hfits i).2
  · intro hf
    exact hasSize_applied hf (fun _ => rfl) fun i => (hfits i).1

end Function
end Collocation
