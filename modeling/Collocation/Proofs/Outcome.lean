import Mathlib.Data.List.Forall2

/-! # Outcomes

  What is known of a chain of steps that ended well: every step in it did. Steps may end in a
  fault, and they may change a state. Where a chain fails, one of its steps did, and for a reason
  of its own. -/

namespace Collocation

/-! ## Steps that may end in a fault -/

section Fault

variable {ε β γ : Type}

/-- A step that gives a result, and what follows it. -/
theorem bind_eq_ok {x : Except ε β} {f : β → Except ε γ} {r : γ} (h : (x >>= f) = .ok r) :
    ∃ y, x = .ok y ∧ f y = .ok r := by
  cases x with
  | error e => cases h
  | ok y => exact ⟨y, rfl, h⟩

/-- A step that fails, or what follows it fails. -/
theorem bind_eq_error {x : Except ε β} {f : β → Except ε γ} {e : ε} (h : (x >>= f) = .error e) :
    x = .error e ∨ ∃ y, x = .ok y ∧ f y = .error e := by
  cases x with
  | error e' =>
    cases h
    exact .inl rfl
  | ok y => exact .inr ⟨y, rfl, h⟩

/-- One step for every element of a list, in order. -/
theorem mapM_eq_ok {f : β → Except ε γ} {xs : List β} {ys : List γ} (h : xs.mapM f = .ok ys) :
    List.Forall₂ (fun x y => f x = .ok y) xs ys := by
  -- the first element and the rest end well on their own
  induction xs generalizing ys with
  | nil =>
    cases h
    exact .nil
  | cons x xs ih =>
    rw [List.mapM_cons] at h
    obtain ⟨y, hy, h⟩ := bind_eq_ok h
    obtain ⟨rest, hrest, h⟩ := bind_eq_ok h
    cases h
    exact .cons hy (ih hrest)

/-- What every result of a step has, all results have. -/
theorem forall_of_mapM_eq_ok {good : γ → Prop} {f : β → Except ε γ} {xs : List β} {ys : List γ}
    (h : xs.mapM f = .ok ys) (hf : ∀ x y, f x = .ok y → good y) : ∀ y ∈ ys, good y := by
  have hsteps := mapM_eq_ok h
  clear h
  induction hsteps with
  | nil => exact fun y hy => nomatch hy
  | cons hfirst _ ih => exact List.forall_mem_cons.mpr ⟨hf _ _ hfirst, ih⟩

/-- One step for every number below a bound, in order. -/
theorem mapM_range_eq_ok {f : Nat → Except ε γ} {n : Nat} {ys : List γ}
    (h : (List.range n).mapM f = .ok ys) :
    ys.length = n ∧ ∀ k (hk : k < ys.length), f k = .ok ys[k] := by
  have hsteps := mapM_eq_ok h
  have hlength : ys.length = n := by rw [← hsteps.length_eq, List.length_range]
  refine ⟨hlength, ?_⟩
  intro k hk
  simpa using hsteps.get (i := k) (by simpa [← hlength] using hk) hk

theorem eq_ok_of_toOption {x : Except ε β} {y : β} (h : x.toOption = some y) : x = .ok y := by
  cases x with
  | error e => cases h
  | ok z => exact congrArg Except.ok (Option.some.inj h)

/-- Steps none of which fails. -/
theorem mapM_of_ok {f : β → Except ε γ} {g : β → γ} {xs : List β}
    (h : ∀ x ∈ xs, f x = .ok (g x)) : xs.mapM f = .ok (xs.map g) := by
  induction xs with
  | nil => rfl
  | cons x xs ih =>
    rw [List.mapM_cons, h x List.mem_cons_self, ih fun y hy => h y (List.mem_cons_of_mem x hy)]
    rfl

theorem forM_eq_ok_iff {f : β → Except ε Unit} {xs : List β} :
    xs.forM f = .ok () ↔ ∀ x ∈ xs, f x = .ok () := by
  induction xs with
  | nil => simp [List.forM, pure, Except.pure]
  | cons x xs ih =>
    rw [List.forall_mem_cons, ← ih]
    constructor
    · intro h
      obtain ⟨_, hx, hrest⟩ := bind_eq_ok h
      exact ⟨hx, hrest⟩
    · rintro ⟨hx, hrest⟩
      show (f x >>= fun _ => xs.forM f) = _
      rw [hx]
      exact hrest

/-! ### Reasons to fail -/

/-- The step fails for no other reasons than those of a kind. -/
def FailsOnly (cause : ε → Prop) (x : Except ε β) : Prop := ∀ e, x = .error e → cause e

namespace FailsOnly

variable {cause cause' : ε → Prop} {x : Except ε β} {f : β → Except ε γ}

theorem ok (y : β) : FailsOnly cause (.ok y : Except ε β) := by
  intro e h
  cases h

theorem error {e : ε} (h : cause e) : FailsOnly cause (.error e : Except ε β) := by
  intro e' h'
  cases h'
  exact h

theorem mono (hx : FailsOnly cause x) (h : ∀ e, cause e → cause' e) : FailsOnly cause' x :=
  fun e he => h e (hx e he)

theorem bind (hx : FailsOnly cause x) (hf : ∀ y, x = .ok y → FailsOnly cause (f y)) :
    FailsOnly cause (x >>= f) := by
  cases x with
  | error e => exact error (hx e rfl)
  | ok y => exact hf y rfl

theorem bind_of_ok {y : β} (hx : x = .ok y) (hf : FailsOnly cause (f y)) :
    FailsOnly cause (x >>= f) := by
  rw [hx]
  exact hf

theorem map (hx : FailsOnly cause x) (g : β → γ) : FailsOnly cause (g <$> x) := by
  cases x with
  | error e => exact error (hx e rfl)
  | ok y => exact ok (g y)

theorem mapM {f : β → Except ε γ} {xs : List β} (h : ∀ x ∈ xs, FailsOnly cause (f x)) :
    FailsOnly cause (xs.mapM f) := by
  induction xs with
  | nil => exact ok []
  | cons x xs ih =>
    rw [List.mapM_cons]
    have hrest := ih fun y hy => h y (List.mem_cons_of_mem x hy)
    exact (h x List.mem_cons_self).bind fun _ _ => hrest.bind fun _ _ => ok _

theorem foldlM {f : γ → β → Except ε γ} {xs : List β}
    (h : ∀ x ∈ xs, ∀ acc, FailsOnly cause (f acc x)) (acc : γ) :
    FailsOnly cause (xs.foldlM f acc) := by
  induction xs generalizing acc with
  | nil => exact ok acc
  | cons x xs ih =>
    rw [List.foldlM_cons]
    exact (h x List.mem_cons_self acc).bind fun sum _ =>
      ih (fun y hy => h y (List.mem_cons_of_mem x hy)) sum

end FailsOnly

end Fault

/-! ## Steps that change a state -/

section State

variable {ε σ β γ : Type} {s s' : σ}

/-- A step that ends well, and what follows it. -/
theorem run_bind_eq_ok {x : EStateM ε σ β} {f : β → EStateM ε σ γ} {r : γ}
    (h : (x >>= f) s = .ok r s') : ∃ y s₁, x s = .ok y s₁ ∧ f y s₁ = .ok r s' := by
  change EStateM.bind x f s = .ok r s' at h
  unfold EStateM.bind at h
  split at h
  · next y s₁ hx => exact ⟨y, s₁, hx, h⟩
  · cases h

/-- A step that fails, or what follows it fails. -/
theorem run_bind_eq_error {x : EStateM ε σ β} {f : β → EStateM ε σ γ} {e : ε}
    (h : (x >>= f) s = .error e s') :
    x s = .error e s' ∨ ∃ y s₁, x s = .ok y s₁ ∧ f y s₁ = .error e s' := by
  change EStateM.bind x f s = .error e s' at h
  unfold EStateM.bind at h
  split at h
  · next y s₁ hx => exact .inr ⟨y, s₁, hx, h⟩
  · next e' s₁ hx =>
    cases h
    exact .inl hx

theorem run_error_bind {x : EStateM ε σ β} {f : β → EStateM ε σ γ} {e : ε} {s₁ : σ}
    (h : x s = .error e s₁) : (x >>= f) s = .error e s₁ := by
  show EStateM.bind x f s = .error e s₁
  unfold EStateM.bind
  rw [h]

theorem run_ok_bind {x : EStateM ε σ β} {f : β → EStateM ε σ γ} {y : β} {s₁ : σ}
    (h : x s = .ok y s₁) : (x >>= f) s = f y s₁ := by
  show EStateM.bind x f s = f y s₁
  unfold EStateM.bind
  rw [h]

theorem run_get_bind {f : σ → EStateM ε σ γ} : (get >>= f) s = f s s := rfl

theorem run_get_bind_eq_ok {f : σ → EStateM ε σ γ} {r : γ} (h : (get >>= f) s = .ok r s') :
    f s s = .ok r s' := h

theorem run_modify_bind {g : σ → σ} {f : PUnit → EStateM ε σ γ} :
    (modify g >>= f) s = f ⟨⟩ (g s) := rfl

theorem run_set_bind {t : σ} {f : PUnit → EStateM ε σ γ} : (set t >>= f) s = f ⟨⟩ t := rfl

/-- Every step of a run over a list that ended well did so itself, wherever it started. -/
theorem exists_of_forM_eq_ok {f : β → EStateM ε σ PUnit} {xs : List β} {x : β} (hx : x ∈ xs)
    (h : xs.forM f s = .ok () s') : ∃ s₁ s₂, f x s₁ = .ok () s₂ := by
  induction xs generalizing s with
  | nil => cases hx
  | cons y ys ih =>
    obtain ⟨_, s₁, hy, h⟩ := run_bind_eq_ok h
    rcases List.mem_cons.mp hx with rfl | hx
    · exact ⟨s, s₁, hy⟩
    · exact ih hx h

/-- What every step keeps, a run over a list keeps. -/
theorem run_forM_eq_ok {R : σ → σ → Prop} (hrefl : ∀ s, R s s)
    (htrans : ∀ {s₁ s₂ s₃}, R s₁ s₂ → R s₂ s₃ → R s₁ s₃) {f : β → EStateM ε σ PUnit}
    {xs : List β} (hstep : ∀ x ∈ xs, ∀ {s s'}, f x s = .ok () s' → R s s')
    (h : xs.forM f s = .ok () s') : R s s' := by
  induction xs generalizing s with
  | nil =>
    cases h
    exact hrefl _
  | cons x xs ih =>
    obtain ⟨_, s₁, hx, h⟩ := run_bind_eq_ok h
    have hfirst : R s s₁ := hstep x List.mem_cons_self hx
    have hrest : R s₁ s' := ih (fun y hy => hstep y (List.mem_cons_of_mem x hy)) h
    exact htrans hfirst hrest

/-! ### Ends of a step -/

/-- From a state the step ends with a result and a state of one kind, or in a fault of another. -/
def Meets (s : σ) (x : EStateM ε σ β) (ends : β → σ → Prop) (cause : ε → Prop) : Prop :=
  match x s with
  | .ok y s' => ends y s'
  | .error e _ => cause e

namespace Meets

variable {x : EStateM ε σ β} {f : β → EStateM ε σ γ} {ends ends' : β → σ → Prop}
  {after : γ → σ → Prop} {cause : ε → Prop}

theorem mono (h : Meets s x ends cause)
    (hends : ∀ y s', x s = .ok y s' → ends y s' → ends' y s') : Meets s x ends' cause := by
  unfold Meets at h ⊢
  cases hx : x s with
  | ok y s' =>
    rw [hx] at h
    exact hends y s' hx h
  | error e s' =>
    rw [hx] at h
    exact h

/-- A step without a reason to fail ends well. -/
theorem exists_ok (h : Meets s x ends fun _ => False) : ∃ y s', x s = .ok y s' ∧ ends y s' := by
  unfold Meets at h
  cases hx : x s with
  | ok y s' =>
    rw [hx] at h
    exact ⟨y, s', rfl, h⟩
  | error e s' =>
    rw [hx] at h
    exact h.elim

/-- What follows starts where the step ended. -/
theorem bind (h : Meets s x ends cause) (hf : ∀ y s', ends y s' → Meets s' (f y) after cause) :
    Meets s (x >>= f) after cause := by
  unfold Meets at h
  cases hx : x s with
  | ok y s' =>
    rw [hx] at h
    unfold Meets
    rw [run_ok_bind hx]
    exact hf y s' h
  | error e s' =>
    rw [hx] at h
    unfold Meets
    rw [run_error_bind hx]
    exact h

theorem bind_of_ok {y : β} (hx : x s = .ok y s') (h : Meets s' (f y) after cause) :
    Meets s (x >>= f) after cause := by
  unfold Meets
  rw [run_ok_bind hx]
  exact h

theorem get {f : σ → EStateM ε σ γ} (h : Meets s (f s) after cause) :
    Meets s (MonadState.get >>= f) after cause := h

theorem set {t : σ} {f : PUnit → EStateM ε σ γ} (h : Meets t (f ⟨⟩) after cause) :
    Meets s (MonadStateOf.set t >>= f) after cause := h

theorem modify {g : σ → σ} {f : PUnit → EStateM ε σ γ} (h : Meets (g s) (f ⟨⟩) after cause) :
    Meets s (modifyThe σ g >>= f) after cause := h

theorem cause_of_error {e : ε} (h : Meets s x ends cause) (he : x s = .error e s') : cause e := by
  unfold Meets at h
  rwa [he] at h

/-- What every step keeps, a run over a list keeps. -/
theorem forM {inv : σ → Prop} {f : β → EStateM ε σ PUnit} {xs : List β} (hs : inv s)
    (h : ∀ x ∈ xs, ∀ s, inv s → Meets s (f x) (fun _ => inv) cause) :
    Meets s (xs.forM f) (fun _ => inv) cause := by
  induction xs generalizing s with
  | nil => exact hs
  | cons x xs ih =>
    exact (h x List.mem_cons_self s hs).bind fun _ s' hs' =>
      ih hs' fun y hy => h y (List.mem_cons_of_mem x hy)

/-- The results of a run over a list are those of its steps. -/
theorem mapM {inv : σ → Prop} {good : β → γ → Prop} {f : β → EStateM ε σ γ} {xs : List β}
    (hs : inv s) (h : ∀ x ∈ xs, ∀ s, inv s → Meets s (f x) (fun y s' => good x y ∧ inv s') cause) :
    Meets s (xs.mapM f) (fun ys s' => List.Forall₂ good xs ys ∧ inv s') cause := by
  induction xs generalizing s with
  | nil => exact ⟨.nil, hs⟩
  | cons x xs ih =>
    rw [List.mapM_cons]
    refine (h x List.mem_cons_self s hs).bind ?_
    rintro y s₁ ⟨hy, hs₁⟩
    refine (ih hs₁ fun z hz => h z (List.mem_cons_of_mem x hz)).bind ?_
    rintro ys s₂ ⟨hys, hs₂⟩
    exact ⟨.cons hy hys, hs₂⟩

end Meets

end State
end Collocation
