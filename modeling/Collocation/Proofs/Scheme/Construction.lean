import Collocation.Proofs.Outcome
import Collocation.Scheme.Bounds

/-! # Constructed schemes

  What is known of a scheme right after its construction: it has its rule, its grid and the sizes
  that its problem asks for, and nothing is written yet. Entering the problem's bounds touches the
  bound tables only. -/

namespace Collocation

variable {α β : Type}

/-- A result that does not depend on the state, of a step that ends well. -/
theorem attempt_eq_ok {ε σ : Type} {result : Except ε β} {s s' : σ} {v : β}
    (h : attempt result s = .ok v s') : result = .ok v ∧ s' = s := by
  unfold attempt at h
  cases result with
  | ok w =>
    cases h
    exact ⟨rfl, rfl⟩
  | error fault => cases h

theorem run_attempt_bind_eq_ok {ε σ γ : Type} {result : Except ε β} {f : β → EStateM ε σ γ}
    {s s' : σ} {r : γ} (h : (attempt result >>= f) s = .ok r s') :
    ∃ v, result = .ok v ∧ f v s = .ok r s' := by
  cases result with
  | ok v => exact ⟨v, rfl, h⟩
  | error fault => cases h

theorem run_attempt_bind_of_ok {ε σ γ : Type} {result : Except ε β} {f : β → EStateM ε σ γ}
    {s : σ} {v : β} {r : EStateM.Result ε σ γ} (h : result = .ok v) (hf : f v s = r) :
    (attempt result >>= f) s = r := by
  rw [h]
  exact hf

/-- A result that does not depend on the state leaves it alone. -/
theorem meets_attempt {ε σ : Type} {result : Except ε β} {s : σ} {cause : ε → Prop}
    (h : FailsOnly cause result) :
    Meets s (attempt result) (fun v s' => result = .ok v ∧ s' = s) cause := by
  cases result with
  | ok v => exact ⟨rfl, rfl⟩
  | error fault => exact h fault rfl

/-- What follows a result that does not depend on the state. -/
theorem meets_attempt_bind {ε σ γ : Type} {result : Except ε β} {f : β → EStateM ε σ γ} {s : σ}
    {after : γ → σ → Prop} {cause : ε → Prop} (h : FailsOnly cause result)
    (hf : ∀ v, result = .ok v → Meets s (f v) after cause) :
    Meets s (attempt result >>= f) after cause := by
  refine (meets_attempt h).bind ?_
  rintro v _ ⟨hv, rfl⟩
  exact hf v hv

theorem meets_attempt_of_ok {ε σ γ : Type} {result : Except ε β} {f : β → EStateM ε σ γ} {s : σ}
    {v : β} {after : γ → σ → Prop} {cause : ε → Prop} (h : result = .ok v)
    (hf : Meets s (f v) after cause) : Meets s (attempt result >>= f) after cause := by
  rw [h]
  exact hf

theorem Table.find?_of_get {t : Table β} {k : Kind} {v : β}
    (h : t.get k = (.ok v : Except (Fault α) β)) : t.find? k = some v := by
  unfold Table.get at h
  split at h
  · next w hw =>
    cases h
    exact hw
  · cases h

namespace Scheme

/-! ## Entering bounds -/

/-- The schemes agree in everything but the bounds of the decision variables. -/
def AgreesButBounds (s s' : Scheme α) : Prop :=
  ∃ lower upper strayLower strayUpper,
    s' = { s with
      lower := lower, upper := upper, strayLower := strayLower, strayUpper := strayUpper }

theorem AgreesButBounds.refl (s : Scheme α) : s.AgreesButBounds s := ⟨_, _, _, _, rfl⟩

theorem AgreesButBounds.trans {s₁ s₂ s₃ : Scheme α} (h : s₁.AgreesButBounds s₂)
    (h' : s₂.AgreesButBounds s₃) : s₁.AgreesButBounds s₃ := by
  obtain ⟨_, _, _, _, rfl⟩ := h
  obtain ⟨_, _, _, _, rfl⟩ := h'
  exact ⟨_, _, _, _, rfl⟩

/-- The schemes agree in everything but constraints, those of the decision variables among them, and
    the functions of the problem that are built. -/
def AgreesButConstraints (s s' : Scheme α) : Prop :=
  ∃ lower upper strayLower strayUpper blocks dynamics quadratureError,
    s' = { s with
      lower := lower, upper := upper, strayLower := strayLower, strayUpper := strayUpper,
      blocks := blocks, dynamics := dynamics, quadratureError := quadratureError }

theorem AgreesButConstraints.refl (s : Scheme α) : s.AgreesButConstraints s :=
  ⟨_, _, _, _, _, _, _, rfl⟩

theorem AgreesButConstraints.trans {s₁ s₂ s₃ : Scheme α} (h : s₁.AgreesButConstraints s₂)
    (h' : s₂.AgreesButConstraints s₃) : s₁.AgreesButConstraints s₃ := by
  obtain ⟨_, _, _, _, _, _, _, rfl⟩ := h
  obtain ⟨_, _, _, _, _, _, _, rfl⟩ := h'
  exact ⟨_, _, _, _, _, _, _, rfl⟩

theorem AgreesButBounds.agreesButConstraints {s s' : Scheme α} (h : s.AgreesButBounds s') :
    s.AgreesButConstraints s' := by
  obtain ⟨_, _, _, _, rfl⟩ := h
  exact ⟨_, _, _, _, _, _, _, rfl⟩

variable [Number α] {s s' : Scheme α}

theorem agreesButBounds_eraseBound (s : Scheme α) (which : Side) (key : Key α) :
    s.AgreesButBounds (s.eraseBound which key) := by
  unfold eraseBound
  cases key.kind? <;> cases which <;> exact ⟨_, _, _, _, rfl⟩

theorem agreesButBounds_putBound (s : Scheme α) (which : Side) (key : Key α)
    (v : Tensor α) : s.AgreesButBounds (s.putBound which key v) := by
  unfold putBound
  cases key.kind? <;> cases which <;> exact ⟨_, _, _, _, rfl⟩

theorem agreesButBounds_writeBounds {key : Key α} {rows cols : Selector α} {bounds : Bounds α}
    (h : writeBounds key rows cols bounds s = .ok () s') : s.AgreesButBounds s' := by
  unfold writeBounds at h
  rw [run_get_bind] at h
  obtain ⟨lower, -, h⟩ := run_attempt_bind_eq_ok h
  obtain ⟨upper, -, h⟩ := run_attempt_bind_eq_ok h
  obtain ⟨rows, -, h⟩ := run_attempt_bind_eq_ok h
  obtain ⟨cols, -, h⟩ := run_attempt_bind_eq_ok h
  by_cases hvector : (!rows.isVector || !cols.isVector) = true
  · rw [if_pos hvector] at h
    cases h
  rw [if_neg hvector] at h
  -- the lower table is written before the values of the upper bounds are looked at
  change (modify _ >>= fun _ => attempt _ >>= fun _ => modify _) s = _ at h
  rw [run_modify_bind] at h
  obtain ⟨-, -, h⟩ := run_attempt_bind_eq_ok h
  cases h
  exact (agreesButBounds_putBound _ _ _ _).trans (agreesButBounds_putBound _ _ _ _)

/-! ## Construction -/

/-- A scheme right after its construction for a problem: the rule, the grid, variables of the
    sizes that the problem asks for, and nothing else. -/
structure Fresh (rule : Rule α) (points : Array α) (p : Problem α) (s : Scheme α) : Prop where
  rule : s.rule = rule
  gridPoints : s.gridPoints = points.size
  grid : s.grid = some (.vector points)
  extents : extentsFor p points.size = .ok s.extents
  blocks : s.blocks = []
  dynamics : s.dynamics = none
  quadratureError : s.quadratureError = none

theorem createVariables_eq_ok {p : Problem α} (h : createVariables p s = .ok () s') :
    ∃ extents, extentsFor p s.gridPoints = .ok extents ∧
      { s with extents := extents }.AgreesButBounds s' := by
  unfold createVariables at h
  rw [run_get_bind] at h
  obtain ⟨extents, hextents, h⟩ := run_attempt_bind_eq_ok h
  rw [run_set_bind] at h
  refine ⟨extents, hextents, ?_⟩
  -- all that follows are entries into the bound tables
  have hwrites := run_forM_eq_ok (R := AgreesButBounds) .refl .trans
    (fun w _ {_ _} hw => agreesButBounds_writeBounds hw) h
  obtain ⟨_, _, _, _, rfl⟩ := hwrites
  exact ⟨_, _, _, _, rfl⟩

theorem fresh_of_createVariables {rule : Rule α} {settings : Settings α} {points : Array α}
    {p : Problem α}
    (h : createVariables p (.start rule settings points.size (some (.vector points))) = .ok () s) :
    s.Fresh rule points p := by
  obtain ⟨extents, hextents, hagrees⟩ := createVariables_eq_ok h
  obtain ⟨_, _, _, _, rfl⟩ := hagrees
  exact ⟨rfl, rfl, rfl, hextents, rfl, rfl, rfl⟩

omit [Number α] in
theorem built_eq_ok {action : Building α Unit} (h : built action s = .ok s') :
    action s = .ok () s' := by
  unfold built at h
  split at h
  · next hrun =>
    cases h
    exact hrun
  · cases h

omit [Number α] in
theorem built_eq_error {action : Building α Unit} {fault : Fault α}
    (h : built action s = .error fault) : ∃ s', action s = .error fault s' := by
  unfold built at h
  split at h
  · cases h
  · next hrun =>
    cases h
    exact ⟨_, hrun⟩

/-- A scheme of a caller's own rule that was made with variables has those that its problem asks
    for. -/
theorem extents_of_custom {settings : Settings α} {p : Problem α} {hooks : Hooks α}
    {grid : Option (Tensor α)} {gridPoints : Nat}
    (h : custom settings p hooks grid gridPoints true = .ok s) :
    extentsFor p s.gridPoints = .ok s.extents := by
  obtain ⟨extents, hextents, hagrees⟩ := createVariables_eq_ok (built_eq_ok h)
  obtain ⟨_, _, _, _, rfl⟩ := hagrees
  exact hextents

section BuiltIn

variable {settings : Settings α} {p : Problem α} {mesh : Literal α} {points : Array α}
  {tieControls : Bool}

theorem trapezoidal_eq_built (hmesh : Mesh.ofLiteral mesh = .ok points) :
    trapezoidal settings p mesh = built (createVariables p)
      (.start (.trapezoidal points) settings points.size (some (.vector points))) := by
  unfold trapezoidal
  rw [hmesh]
  rfl

theorem hermiteSimpson_eq_built (hmesh : Mesh.ofLiteral mesh = .ok points) :
    hermiteSimpson settings p mesh tieControls = built (createVariables p)
      (.start (.hermiteSimpson points tieControls) settings (withMidpoints points).size
        (some (.vector (withMidpoints points)))) := by
  have hsize : (withMidpoints points).size = 2 * points.size - 1 := by simp [withMidpoints]
  unfold hermiteSimpson
  rw [hmesh, hsize]
  rfl

/-- A trapezoidal scheme is what the variables are made from, with them. -/
theorem createVariables_of_trapezoidal (hmesh : Mesh.ofLiteral mesh = .ok points)
    (h : trapezoidal settings p mesh = .ok s) :
    createVariables p
      (.start (.trapezoidal points) settings points.size (some (.vector points))) = .ok () s :=
  built_eq_ok ((trapezoidal_eq_built hmesh).symm.trans h)

/-- A Hermite-Simpson scheme is what the variables are made from, with them. -/
theorem createVariables_of_hermiteSimpson (hmesh : Mesh.ofLiteral mesh = .ok points)
    (h : hermiteSimpson settings p mesh tieControls = .ok s) :
    createVariables p
      (.start (.hermiteSimpson points tieControls) settings (withMidpoints points).size
        (some (.vector (withMidpoints points)))) = .ok () s :=
  built_eq_ok ((hermiteSimpson_eq_built hmesh).symm.trans h)

theorem fresh_trapezoidal (hmesh : Mesh.ofLiteral mesh = .ok points)
    (h : trapezoidal settings p mesh = .ok s) : s.Fresh (.trapezoidal points) points p :=
  fresh_of_createVariables (createVariables_of_trapezoidal hmesh h)

end BuiltIn

end Scheme
end Collocation
