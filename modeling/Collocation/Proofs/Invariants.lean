import Collocation.Proofs.Scheme.Steps

/-! # Invariants of actions

  An action keeps a property of the state if the property holds where the action ends, well or in
  a fault, provided that it held before. A chain of steps keeps what each of its steps keeps. So
  it is enough to look at the steps that write. -/

namespace Collocation

variable {ε σ β γ : Type} {inv : σ → Prop} {s : σ}

/-- However the action ends, what held before it holds after it. -/
def Keeps (inv : σ → Prop) (a : EStateM ε σ β) : Prop := ∀ s, inv s → inv (stateOf (a s))

namespace Keeps

theorem ok {a : EStateM ε σ β} (ha : Keeps inv a) {v : β} {s s' : σ} (hs : inv s)
    (h : a s = .ok v s') : inv s' := by
  have hend := ha s hs
  rwa [h] at hend

/-! ## Steps that write nothing -/

theorem pure (v : β) : Keeps inv (pure v : EStateM ε σ β) := fun _ hs => hs

theorem throw (e : ε) : Keeps inv (throw e : EStateM ε σ β) := fun _ hs => hs

theorem attempt (result : Except ε β) : Keeps inv (attempt result : EStateM ε σ β) := by
  intro s hs
  cases result with
  | ok v => exact hs
  | error e => exact hs

/-! ## Chains -/

theorem bind {a : EStateM ε σ β} {f : β → EStateM ε σ γ} (ha : Keeps inv a)
    (hf : ∀ v, Keeps inv (f v)) : Keeps inv (a >>= f) := by
  intro s hs
  apply stateOf_bind (ha s hs)
  intro v s₁ h
  exact hf v s₁ (ha.ok hs h)

theorem attempt_bind {result : Except ε β} {f : β → EStateM ε σ γ}
    (hf : ∀ v, result = .ok v → Keeps inv (f v)) :
    Keeps inv (Collocation.attempt result >>= f) := by
  intro s hs
  apply stateOf_attempt_bind hs
  intro v hv
  exact hf v hv s hs

/-- What follows a look at the state may count on what holds of it. -/
theorem read {f : σ → EStateM ε σ γ} (hf : ∀ s, inv s → inv (stateOf (f s s))) :
    Keeps inv (get >>= f) := hf

theorem modify {g : σ → σ} (hg : ∀ s, inv s → inv (g s)) :
    Keeps inv (modify g : EStateM ε σ PUnit) := hg

theorem ite {c : Prop} [Decidable c] {a b : EStateM ε σ β} (ha : Keeps inv a)
    (hb : Keeps inv b) : Keeps inv (if c then a else b) := by
  by_cases hc : c
  · rwa [if_pos hc]
  · rwa [if_neg hc]

/-! ## Lists -/

theorem forM {xs : List β} {f : β → EStateM ε σ PUnit} (hf : ∀ x ∈ xs, Keeps inv (f x)) :
    Keeps inv (xs.forM f) := by
  induction xs with
  | nil => exact .pure _
  | cons x xs ih =>
    apply (hf x List.mem_cons_self).bind
    intro _
    exact ih fun y hy => hf y (List.mem_cons_of_mem x hy)

theorem mapM {xs : List β} {f : β → EStateM ε σ γ} (hf : ∀ x ∈ xs, Keeps inv (f x)) :
    Keeps inv (xs.mapM f) := by
  induction xs with
  | nil => exact .pure _
  | cons x xs ih =>
    rw [List.mapM_cons]
    apply (hf x List.mem_cons_self).bind
    intro y
    apply (ih fun z hz => hf z (List.mem_cons_of_mem x hz)).bind
    intro ys
    exact .pure _

end Keeps

/-- To ask whether a scheme is closed writes nothing. -/
theorem Scheme.keeps_checkMutable {α : Type} {inv : Scheme α → Prop} :
    Keeps inv (checkMutable : Building α Unit) :=
  .read fun s hs => Keeps.ite (.throw _) (.pure _) s hs

/-! ## Ends of chains -/

theorem stateOf_attempt (result : Except ε β) (s : σ) : stateOf (attempt result s) = s := by
  cases result <;> rfl

/-- What only looks at the state does not matter for where a run ends. -/
theorem stateOf_bind_of_reads {a : EStateM ε σ β} {f : β → EStateM ε σ γ}
    (hf : ∀ v s, stateOf (f v s) = s) : stateOf ((a >>= f) s) = stateOf (a s) := by
  apply stateOf_bind (P := (· = stateOf (a s))) rfl
  intro v s₁ h
  rw [hf, h]
  rfl

/-- Two chains that begin with the same result. -/
theorem stateOf_attempt_bind_congr {δ : Type} {result : Except ε β} {f : β → EStateM ε σ γ}
    {g : β → EStateM ε σ δ} (h : ∀ v, result = .ok v → stateOf (f v s) = stateOf (g v s)) :
    stateOf ((attempt result >>= f) s) = stateOf ((attempt result >>= g) s) := by
  cases result with
  | ok v => exact h v rfl
  | error fault => rfl

end Collocation
