import Collocation.Problem.Functions
import Collocation.Proofs.Expression.Column
import Collocation.Proofs.Expression.Term

/-! # Functions of a problem

  The functions that a problem's expressions become are sound and take the inputs that the problem
  declares. Called with expressions of the declared sizes, a function has the value of its body at
  the values of these, and it vanishes only where its body does; evaluated at matrices of the
  declared sizes, it gives one value. -/

namespace Collocation

/-! ## Calling -/

namespace Function

variable {ι σ α : Type} [Number α] [Inputs ι] {f : Function ι α}

/-- With a single value for every input there is one evaluation. -/
theorem evaluate_of_single {args values : ι → Matrix α}
    (h : ∀ i, (args i).fit? (f.inputs i) = some [values i]) :
    f.evaluate args = .ok [f.body.eval values] := by
  have hcount : ∀ n, evaluationCount? (List.replicate n 1) = some 1 := by
    intro n
    unfold evaluationCount?
    induction n with
    | zero => rfl
    | succ n ih => simpa [List.replicate_succ] using ih
  simp [evaluate, h, hcount, Nat.mod_one]

theorem evaluate_of_fits {args : ι → Matrix α} (h : ∀ i, (args i).extent = f.inputs i) :
    f.evaluate args = .ok [f.body.eval args] := by
  refine evaluate_of_single ?_
  intro i
  rw [Matrix.fit?, if_pos (h i)]

/-- The value of a call with arguments of the declared sizes. -/
def applied (f : Function ι α) (args : ι → Sized σ α) : Expr σ α :=
  .givenAll (Inputs.all.map fun i => (args i).expr) (f.body.subst fun i => (args i).expr)

theorem call_of_fits {args : ι → Sized σ α} (h : ∀ i, (args i).extent = f.inputs i) :
    f.call args = .ok ⟨f.applied args, f.extent⟩ := by
  have hfit : ∀ i, (args i).fit? (f.inputs i) = some (args i).expr := by
    intro i
    simp [Sized.fit?, h i]
  simp [call, hfit, applied]

variable {args : ι → Sized σ α} {env : σ → Matrix α}

theorem eval_applied :
    (f.applied args).eval env = f.body.eval fun i => (args i).expr.eval env := by
  rw [applied, Expr.eval_givenAll, Expr.eval_subst]

theorem hasSize_applied {Γ : σ → Extent} (hf : f.Sound)
    (hextent : ∀ i, (args i).extent = f.inputs i)
    (hargs : ∀ i, (args i).expr.HasSize Γ (args i).extent) :
    (f.applied args).HasSize Γ f.extent := by
  have hbody : (f.body.subst fun i => (args i).expr).HasSize Γ f.extent :=
    hf.size.subst fun i => hextent i ▸ hargs i
  refine .givenAll ?_ hbody
  intro a ha
  obtain ⟨i, -, rfl⟩ := List.mem_map.mp ha
  exact ⟨_, hargs i⟩

theorem vanishes_applied (hargs : ∀ i, (args i).expr.IsReading) :
    (f.applied args).vanishes = f.body.vanishes := by
  have hgiven : ∀ (as : List (Expr σ α)) e, (Expr.givenAll as e).vanishes = e.vanishes := by
    intro as e
    unfold Expr.givenAll
    induction as with
    | nil => rfl
    | cons a as ih => exact ih
  rw [applied, hgiven, Expr.vanishes_subst hargs]

end Function

/-! ## Functions of a problem -/

namespace Problem

variable {α : Type} [Number α] {p : Problem α}

theorem dynamicsFunction_sound {f : PointFunction α} (h : p.dynamicsFunction = .ok f) :
    f.Sound ∧ p.pointInputs = .ok f.inputs ∧ f.extent = ⟨p.states.length, 1⟩ := by
  unfold dynamicsFunction at h
  split at h
  · cases h
  · obtain ⟨inputs, hinputs, h⟩ := bind_eq_ok h
    obtain ⟨e, he, h⟩ := bind_eq_ok h
    obtain ⟨hsound, hcols⟩ := Function.columnOf_sound he
    split at h
    · cases h
    · next hsize =>
      refine ⟨Function.make_sound hsound h, ?_⟩
      cases Function.make_eq_ok h
      refine ⟨hinputs, ?_⟩
      rw [ne_eq, not_not, Extent.size, hcols, Nat.mul_one] at hsize
      show e.extent = _
      rw [← hsize, ← hcols]

theorem pointConstraintFunction_sound {c : Constraint α} {f : PointFunction α}
    (h : p.pointConstraintFunction c = .ok f) :
    f.Sound ∧ p.pointInputs = .ok f.inputs ∧ f.extent.cols = 1 := by
  obtain ⟨inputs, hinputs, h⟩ := bind_eq_ok h
  obtain ⟨hsound, hfinputs, hcols⟩ := Function.ofBody_sound h
  exact ⟨hsound, hfinputs.symm ▸ hinputs, hcols⟩

theorem endpointConstraintFunction_sound {c : Constraint α} {f : EndpointFunction α}
    (h : p.endpointConstraintFunction c = .ok f) :
    f.Sound ∧ f.inputs = p.endpointInputs ∧ f.extent.cols = 1 :=
  Function.ofBody_sound h

/-! ### Costs -/

section Costs

variable {ι : Type} [Inputs ι] [DecidableEq ι] {inputs : ι → Extent}

/-- The components of a cost add up to a single number, so the weight decides the size. -/
theorem costTerm_sound {cost : Cost α} {e : Sized ι α} (h : costTerm inputs cost = .ok e) :
    e.Sound inputs := by
  obtain ⟨a, ha, h⟩ := bind_eq_ok h
  obtain ⟨w, hw, h⟩ := bind_eq_ok h
  cases h
  obtain ⟨hsound, hcols⟩ := Function.columnOf_sound ha
  -- the sum of a column is a single number, whichever way it is built
  have hunit : a.sumRows.extent = .unit := by
    unfold Sized.sumRows
    simp only
    split
    · next hrows =>
      generalize a.extent = s at hrows hcols ⊢
      cases s
      cases hrows
      cases hcols
      rfl
    · split
      · rw [hcols]
        rfl
      · cases hm : a.expr.matrix? with
        | some m =>
          have := Expr.extent_of_matrix? hsound.size hm
          simp [Sized.ofMatrix, Matrix.sumRows, Matrix.cols, this, hcols, Extent.unit]
        | none =>
          rw [hcols]
          rfl
  exact Sized.zip_sound (Sized.sound_ofMatrix w) hsound.sumRows (.inr (.inr hunit))

theorem costSum_sound {costs : List (Cost α)} {e : Sized ι α}
    (h : costSum inputs costs = .ok e) : e.Sound inputs := by
  unfold costSum at h
  -- the sum starts at zero; the induction is on the costs, for any sound sum so far
  have hstart : (Sized.number Number.zero : Sized ι α).Sound inputs := Sized.sound_constant _ _
  generalize (Sized.number Number.zero : Sized ι α) = acc at h hstart
  induction costs generalizing acc with
  | nil =>
    cases h
    exact hstart
  | cons cost costs ih =>
    rw [List.foldlM_cons] at h
    obtain ⟨sum, hsum, h⟩ := bind_eq_ok h
    obtain ⟨a, ha, hsum⟩ := bind_eq_ok hsum
    exact ih sum h (Sized.zip?_sound hstart (costTerm_sound ha) (Term.fitting_eq_ok hsum))

end Costs

theorem integrandFunction_sound {f : PointFunction α} (h : p.integrandFunction = .ok f) :
    f.Sound ∧ p.pointInputs = .ok f.inputs := by
  obtain ⟨inputs, hinputs, h⟩ := bind_eq_ok h
  obtain ⟨e, he, h⟩ := bind_eq_ok h
  refine ⟨Function.make_sound (costSum_sound he) h, ?_⟩
  cases Function.make_eq_ok h
  exact hinputs

theorem endpointCostFunction_sound {f : EndpointFunction α} (h : p.endpointCostFunction = .ok f) :
    f.Sound ∧ f.inputs = p.endpointInputs := by
  obtain ⟨e, he, h⟩ := bind_eq_ok h
  refine ⟨Function.make_sound (costSum_sound he) h, ?_⟩
  cases Function.make_eq_ok h
  rfl

end Problem

/-! ## Bounds of a constraint -/

namespace Constraint

variable {α : Type} [Number α] {c : Constraint α} {size : Nat}

theorem size_of_boundVector {l : Literal α} {v : Array α} (h : c.boundVector size l = .ok v) :
    v.size = size := by
  obtain ⟨w, -, h⟩ := bind_eq_ok h
  -- whichever way it gets there, the last step is to repeat what was read
  cases hw : repeatTo? size w with
  | none =>
    simp only [hw] at h
    split_ifs at h
    · cases h
    · obtain ⟨_, -, h⟩ := bind_eq_ok h
      cases h
  | some u =>
    simp only [hw] at h
    split_ifs at h
    · cases h
    · obtain ⟨_, -, h⟩ := bind_eq_ok h
      cases h
      exact size_of_repeatTo? hw
    · cases h
      exact size_of_repeatTo? hw

/-- There is a bound on both sides for every equation. -/
theorem size_of_boundVectors {lower upper : Array α}
    (h : c.boundVectors size = .ok (lower, upper)) : lower.size = size ∧ upper.size = size := by
  obtain ⟨low, hlow, h⟩ := bind_eq_ok h
  obtain ⟨high, hhigh, h⟩ := bind_eq_ok h
  split_ifs at h
  · cases h
  · cases h
    exact ⟨size_of_boundVector hlow, size_of_boundVector hhigh⟩

end Constraint
end Collocation
