import Collocation.Proofs.Scheme.Values
import Collocation.Scheme.Defects
import Mathlib.Algebra.BigOperators.Ring.List

/-! # Families of constraints

  Appending a constraint at grid points adds its equations there, and these lie between their
  bounds exactly where the constraint holds: the value of its function at the decision variables
  of the point lies between its bound vectors. So for the kinematic and the path constraints, and
  at the two ends for the endpoint constraints. -/

namespace Collocation

/-! ## What a constraint says -/

section Meaning

variable {α : Type} [Number α] {ι : Type} [Inputs ι]

namespace Problem

end Problem

end Meaning

/-! ## Calls -/

section Calls

variable {α : Type} [Number α] {env : Kind → Matrix α} {ι : Type} [Inputs ι]

/-- The expression is a call of the function: it has the value of the function's body at the given
    inputs, and vanishes only where the body does. -/
structure Sized.IsCall (env : Kind → Matrix α) (e : Sized Kind α) (f : Function ι α)
    (v : ι → Matrix α) : Prop where
  extent : e.extent = f.extent
  size : e.expr.HasSize (fun k => (env k).extent) e.extent
  eval : e.expr.eval env = f.body.eval v
  vanishes : e.expr.vanishes = f.body.vanishes

theorem call_isCall {f : Function ι α} {args : ι → Sized Kind α} {v : ι → Matrix α}
    (hf : f.Sound) (hargs : ∀ i, (args i).Reads env (v i)) (hv : ∀ i, (v i).extent = f.inputs i) :
    ∃ e, f.call args = .ok e ∧ e.IsCall env f v := by
  have hextent : ∀ i, (args i).extent = f.inputs i := by
    intro i
    exact (hargs i).extent.trans (hv i)
  refine ⟨_, Function.call_of_fits hextent, rfl, ?_, ?_, ?_⟩
  · exact Function.hasSize_applied hf hextent fun i => (hargs i).size
  · rw [Function.eval_applied]
    exact congrArg (fun env => f.body.eval env) (funext fun i => (hargs i).eval)
  · exact Function.vanishes_applied fun i => (hargs i).reading

end Calls

open Extended

variable {K : Type} [Field K] [LinearOrder K] [FloorRing K] [Interpretation K]
  {p : Problem (Extended K)} {points : Array (Extended K)} {env : Kind → Matrix (Extended K)}
  {s s' : Scheme (Extended K)} {i : Nat}

theorem Ready.pointValues_fit (h : Ready p points env s) {inputs : PointInput → Extent}
    (hinputs : p.pointInputs = .ok inputs) (i : Nat) (j : PointInput) :
    (pointValues points env i j).extent = inputs j := by
  rw [h.pointInputs_eq i] at hinputs
  exact congrFun (Except.ok.inj hinputs) j

theorem Ready.endValues_fit (h : Ready p points env s) {inputs : EndpointInput → Extent}
    (hinputs : inputs = p.endpointInputs) (j : EndpointInput) :
    (endValues env (points.size - 1) j).extent = inputs j := by
  rw [hinputs, h.endpointInputs_eq (points.size - 1)]

/-- At a grid point a prepared scheme calls a function with the values there. -/
theorem Ready.exists_callAt (h : Ready p points env s) {f : PointFunction (Extended K)}
    (hf : f.Sound) (hinputs : p.pointInputs = .ok f.inputs) (hi : i < points.size) :
    ∃ e, s.callAt f i = .ok e ∧ e.IsCall env f (pointValues points env i) := by
  obtain ⟨args, hargs, hreads⟩ := h.placed.pointArguments_reads (position?_natCast hi)
  obtain ⟨e, he, hcall⟩ := call_isCall hf hreads (h.pointValues_fit hinputs i)
  refine ⟨e, ?_, hcall⟩
  unfold Scheme.callAt
  rw [hargs]
  exact he

theorem Ready.isCall_of_callAt (h : Ready p points env s) {f : PointFunction (Extended K)}
    (hf : f.Sound) (hinputs : p.pointInputs = .ok f.inputs) (hi : i < points.size)
    {e : Sized Kind (Extended K)} (he : s.callAt f i = .ok e) :
    e.IsCall env f (pointValues points env i) := by
  obtain ⟨e', he', hcall⟩ := h.exists_callAt hf hinputs hi
  cases he.symm.trans he'
  exact hcall

/-- At the two ends a prepared scheme calls a function with the values there. -/
theorem Ready.exists_endpointCall (h : Ready p points env s)
    {f : EndpointFunction (Extended K)} (hf : f.Sound) (hinputs : f.inputs = p.endpointInputs) :
    ∃ args e, s.endpointArguments = .ok args ∧ f.call args = .ok e ∧
      e.IsCall env f (endValues env (points.size - 1)) := by
  obtain ⟨args, hargs, hreads⟩ := h.placed.endpointArguments_reads
  obtain ⟨e, he, hcall⟩ := call_isCall hf hreads (h.endValues_fit hinputs)
  exact ⟨args, e, hargs, he, hcall⟩

theorem Ready.isCall_of_endpointCall (h : Ready p points env s)
    {f : EndpointFunction (Extended K)} (hf : f.Sound) (hinputs : f.inputs = p.endpointInputs)
    {args : EndpointInput → Sized Kind (Extended K)} (hargs : s.endpointArguments = .ok args)
    {e : Sized Kind (Extended K)} (he : f.call args = .ok e) :
    e.IsCall env f (endValues env (points.size - 1)) := by
  obtain ⟨args', e', hargs', he', hcall⟩ := h.exists_endpointCall hf hinputs
  cases hargs.symm.trans hargs'
  cases he.symm.trans he'
  exact hcall

namespace Scheme

/-! ## One constraint -/

end Scheme
end Collocation
