import Collocation.Proofs.Scheme.Construction
import Collocation.Scheme.Transcription

/-! # Steps that end either way

  A step of a transcription that fails leaves what the steps before it did. So a run that ends in
  a fault has recorded some blocks and built some functions of the problem, and nothing else is
  changed. What is already there does not matter to the steps that follow: they record the same
  blocks behind it and end in the same way, as long as the functions that were built are still
  those of the problem. -/

namespace Collocation

/-! ## Ends of runs -/

section Ends

variable {ε σ β γ : Type}

/-- The state in which a run ends, well or in a fault. -/
def stateOf : EStateM.Result ε σ β → σ
  | .ok _ s => s
  | .error _ s => s

/-- What holds where a step ends, and where what follows it ends. -/
theorem stateOf_bind {P : σ → Prop} {x : EStateM ε σ β} {f : β → EStateM ε σ γ} {s : σ}
    (hx : P (stateOf (x s))) (hf : ∀ v s₁, x s = .ok v s₁ → P (stateOf (f v s₁))) :
    P (stateOf ((x >>= f) s)) := by
  show P (stateOf (EStateM.bind x f s))
  unfold EStateM.bind
  cases hs : x s with
  | ok v s₁ => exact hf v s₁ hs
  | error fault s₁ =>
    rw [hs] at hx
    exact hx

theorem stateOf_attempt_bind {P : σ → Prop} {result : Except ε β} {f : β → EStateM ε σ γ} {s : σ}
    (hs : P s) (hf : ∀ v, result = .ok v → P (stateOf (f v s))) :
    P (stateOf ((attempt result >>= f) s)) := by
  cases result with
  | ok v => exact hf v rfl
  | error fault => exact hs

/-- Two runs end with one result or in one fault, and in related states. -/
inductive SameEnd (R : σ → σ → Prop) :
    EStateM.Result ε σ β → EStateM.Result ε σ β → Prop
  | ok {v : β} {s t : σ} : R s t → SameEnd R (.ok v s) (.ok v t)
  | error {e : ε} {s t : σ} : R s t → SameEnd R (.error e s) (.error e t)

/-- What is kept was there before, or it is new and what is asked for. -/
def Kept (asked : β → Prop) (before after : Option β) : Prop :=
  after = before ∨ before = none ∧ ∃ f, after = some f ∧ asked f

theorem Kept.trans {asked : β → Prop} {o₁ o₂ o₃ : Option β} (h : Kept asked o₁ o₂)
    (h' : Kept asked o₂ o₃) : Kept asked o₁ o₃ := by
  rcases h with rfl | ⟨hnone, f, hsome, hasked⟩
  · exact h'
  · rcases h' with rfl | ⟨hnone', -⟩
    · exact .inr ⟨hnone, f, hsome, hasked⟩
    · cases hsome.symm.trans hnone'

/-- What is kept where there was nothing is what is asked for. -/
theorem Kept.of_none {asked : β → Prop} {after : Option β} (h : Kept asked none after) {f : β}
    (hf : after = some f) : asked f := by
  rcases h with rfl | ⟨-, g, hg, hasked⟩
  · cases hf
  · cases hg.symm.trans hf
    exact hasked

end Ends

variable {α β γ : Type}

namespace Scheme

/-! ## What a run leaves -/

/-- The scheme with other blocks and other functions kept. -/
def withHistory (s : Scheme α) (blocks : List (Block α)) (dynamics : Option (PointFunction α))
    (quadratureError : Option (PointFunction α)) : Scheme α :=
  { s with blocks := blocks, dynamics := dynamics, quadratureError := quadratureError }

variable [Number α]

/-- The second scheme is the first one with more blocks at the end and more functions of the
    problem built. -/
structure Later (p : Problem α) (s s' : Scheme α) : Prop where
  rest : s' = s.withHistory s'.blocks s'.dynamics s'.quadratureError
  blocks : s.blocks <+: s'.blocks
  dynamics : Kept (fun f => p.dynamicsFunction = .ok f) s.dynamics s'.dynamics
  quadratureError :
    Kept (fun f => p.quadratureErrorFunction = .ok (some f)) s.quadratureError s'.quadratureError

/-- The functions that a scheme keeps are those of the problem. -/
structure Current (p : Problem α) (s : Scheme α) : Prop where
  dynamics : ∀ f, s.dynamics = some f → p.dynamicsFunction = .ok f
  quadratureError : ∀ f, s.quadratureError = some f → p.quadratureErrorFunction = .ok (some f)

/-- Two schemes that differ in the blocks at the front and in which functions of the problem are
    built. -/
structure Alike (p : Problem α) (front front' : List (Block α)) (s t : Scheme α) : Prop where
  rest : t = s.withHistory t.blocks t.dynamics t.quadratureError
  blocks : ∃ bs, s.blocks = front ++ bs ∧ t.blocks = front' ++ bs
  left : s.Current p
  right : t.Current p

variable {p : Problem α} {s s₁ s₂ s₃ t : Scheme α} {front front' : List (Block α)}

theorem Later.refl (p : Problem α) (s : Scheme α) : Later p s s :=
  ⟨rfl, List.prefix_rfl, .inl rfl, .inl rfl⟩

theorem Later.trans (h : Later p s₁ s₂) (h' : Later p s₂ s₃) : Later p s₁ s₃ := by
  refine ⟨?_, h.blocks.trans h'.blocks, h.dynamics.trans h'.dynamics,
    h.quadratureError.trans h'.quadratureError⟩
  rw [h'.rest, h.rest]
  rfl

theorem Later.extents (h : Later p s t) : t.extents = s.extents := by
  rw [h.rest]
  rfl

theorem Later.gridPoints (h : Later p s t) : t.gridPoints = s.gridPoints := by
  rw [h.rest]
  rfl

theorem Later.objective (h : Later p s t) : t.objective = s.objective := by
  rw [h.rest]
  rfl

/-- No step writes into an array of bounds. -/
theorem Later.side (h : Later p s t) : t.side = s.side := by
  rw [h.rest]
  rfl

theorem Later.quadratureWeights (h : Later p s t) :
    t.quadratureWeights = s.quadratureWeights := by
  rw [h.rest]
  rfl

/-- A step of a transcription: where it ends, only blocks and functions were added, and runs from
    schemes that are alike end alike. -/
structure Steady (p : Problem α) (a : Building α β) : Prop where
  later : ∀ s, Later p s (stateOf (a s))
  same : ∀ {front front' s t}, Alike p front front' s t →
    SameEnd (Alike p front front') (a s) (a t)

namespace Steady

theorem later_of_ok {a : Building α β} (ha : Steady p a) {v : β} {s' : Scheme α}
    (h : a s = .ok v s') : Later p s s' := by
  have hlater := ha.later s
  rw [h] at hlater
  exact hlater

/-! ## Building blocks of steps -/

theorem pure (v : β) : Steady p (pure v : Building α β) :=
  ⟨fun s => .refl p s, fun h => .ok h⟩

theorem throw (fault : Fault α) : Steady p (throw fault : Building α β) :=
  ⟨fun s => .refl p s, fun h => .error h⟩

theorem attempt (result : Except (Fault α) β) : Steady p (attempt result) := by
  cases result with
  | ok v => exact .pure v
  | error fault => exact .throw fault

theorem ite {c : Prop} [Decidable c] {a b : Building α β} (ha : Steady p a) (hb : Steady p b) :
    Steady p (if c then a else b) := by
  by_cases hc : c
  · rwa [if_pos hc]
  · rwa [if_neg hc]

theorem bind {a : Building α β} {f : β → Building α γ} (ha : Steady p a)
    (hf : ∀ v, Steady p (f v)) : Steady p (a >>= f) := by
  constructor
  · intro s
    have hlater := ha.later s
    apply stateOf_bind hlater
    intro v s₁ hs
    rw [hs] at hlater
    exact hlater.trans ((hf v).later s₁)
  · intro front front' s t h
    show SameEnd _ (EStateM.bind a f s) (EStateM.bind a f t)
    have hsame := ha.same h
    unfold EStateM.bind
    -- both first steps end well, with one result, or both in one fault
    cases hs : a s with
    | ok v s₁ =>
      rw [hs] at hsame
      cases ht : a t with
      | ok w t₁ =>
        rw [ht] at hsame
        cases hsame with
        | ok h₁ => exact (hf v).same h₁
      | error fault t₁ =>
        rw [ht] at hsame
        cases hsame
    | error fault s₁ =>
      rw [hs] at hsame
      cases ht : a t with
      | ok w t₁ =>
        rw [ht] at hsame
        cases hsame
      | error fault' t₁ =>
        rw [ht] at hsame
        cases hsame with
        | error h₁ => exact .error h₁

/-- A step may read anything but the blocks and the functions that are kept. -/
theorem read {f : Scheme α → Building α β} (hf : ∀ s, Steady p (f s))
    (hread : ∀ s blocks dynamics quadratureError,
      f (s.withHistory blocks dynamics quadratureError) = f s) : Steady p (get >>= f) := by
  refine ⟨fun s => (hf s).later s, ?_⟩
  intro front front' s t h
  -- what is read is the same on both sides
  show SameEnd _ (f s s) (f t t)
  have ht : f t = f s := by
    rw [h.rest]
    exact hread s _ _ _
  rw [ht]
  exact (hf s).same h

theorem forM {xs : List β} {f : β → Building α PUnit} (hf : ∀ x ∈ xs, Steady p (f x)) :
    Steady p (xs.forM f) := by
  induction xs with
  | nil => exact .pure _
  | cons x xs ih =>
    apply (hf x List.mem_cons_self).bind
    intro _
    apply ih
    intro y hy
    exact hf y (List.mem_cons_of_mem x hy)

theorem mapM {xs : List β} {f : β → Building α γ} (hf : ∀ x ∈ xs, Steady p (f x)) :
    Steady p (xs.mapM f) := by
  induction xs with
  | nil => exact .pure _
  | cons x xs ih =>
    rw [List.mapM_cons]
    apply (hf x List.mem_cons_self).bind
    intro y
    apply (ih fun z hz => hf z (List.mem_cons_of_mem x hz)).bind
    intro ys
    exact .pure _

/-- Recording a block. -/
theorem push (b : Block α) :
    Steady p (modify fun s => { s with blocks := s.blocks ++ [b] } : Building α PUnit) := by
  constructor
  · intro s
    exact ⟨rfl, ⟨[b], rfl⟩, .inl rfl, .inl rfl⟩
  · intro front front' s t h
    obtain ⟨bs, hs, ht⟩ := h.blocks
    apply SameEnd.ok
    refine ⟨?_, ⟨bs ++ [b], ?_, ?_⟩, ⟨h.left.dynamics, h.left.quadratureError⟩,
      ⟨h.right.dynamics, h.right.quadratureError⟩⟩
    · rw [h.rest]
      rfl
    · show s.blocks ++ [b] = _
      rw [hs, List.append_assoc]
    · show t.blocks ++ [b] = _
      rw [ht, List.append_assoc]

end Steady

/-! ## Functions of the problem -/

/-- The dynamics are built at most once, and what was built is what would be built. -/
theorem dynamicsOf_eq (h : s.Current p) : dynamicsOf p s =
    match p.dynamicsFunction with
    | .ok f => .ok f { s with dynamics := some f }
    | .error fault => .error fault s := by
  unfold dynamicsOf
  rw [run_get_bind]
  cases hs : s.dynamics with
  | some f =>
    rw [h.dynamics f hs]
    show EStateM.Result.ok f s = .ok f { s with dynamics := some f }
    rw [← hs]
  | none => cases p.dynamicsFunction <;> rfl

theorem quadratureErrorOf_eq (h : s.Current p) : quadratureErrorOf p s =
    match p.quadratureErrorFunction with
    | .ok (some f) => .ok f { s with quadratureError := some f }
    | .ok none => .error .quadratureErrorUndeclared s
    | .error fault => .error fault s := by
  unfold quadratureErrorOf
  rw [run_get_bind]
  cases hs : s.quadratureError with
  | some f =>
    rw [h.quadratureError f hs]
    show EStateM.Result.ok f s = .ok f { s with quadratureError := some f }
    rw [← hs]
  | none =>
    cases p.quadratureErrorFunction with
    | error fault => rfl
    | ok function => cases function <;> rfl

theorem Alike.withDynamics {f : PointFunction α} (h : Alike p front front' s t)
    (hf : p.dynamicsFunction = .ok f) :
    Alike p front front' { s with dynamics := some f } { t with dynamics := some f } := by
  have hcurrent : ∀ g, some f = some g → p.dynamicsFunction = .ok g := by
    rintro g ⟨⟩
    exact hf
  refine ⟨?_, h.blocks, ⟨hcurrent, h.left.quadratureError⟩, ⟨hcurrent, h.right.quadratureError⟩⟩
  rw [h.rest]
  rfl

theorem Alike.withQuadratureError {f : PointFunction α} (h : Alike p front front' s t)
    (hf : p.quadratureErrorFunction = .ok (some f)) :
    Alike p front front' { s with quadratureError := some f }
      { t with quadratureError := some f } := by
  have hcurrent : ∀ g, some f = some g → p.quadratureErrorFunction = .ok (some g) := by
    rintro g ⟨⟩
    exact hf
  refine ⟨?_, h.blocks, ⟨h.left.dynamics, hcurrent⟩, ⟨h.right.dynamics, hcurrent⟩⟩
  rw [h.rest]
  rfl

theorem steady_dynamicsOf : Steady p (dynamicsOf p) := by
  constructor
  · intro s
    unfold dynamicsOf
    rw [run_get_bind]
    cases hs : s.dynamics with
    | some f => exact .refl p s
    | none =>
      cases hf : p.dynamicsFunction with
      | ok f => exact ⟨rfl, List.prefix_rfl, .inr ⟨hs, f, rfl, hf⟩, .inl rfl⟩
      | error fault => exact .refl p s
  · intro front front' s t h
    rw [dynamicsOf_eq h.left, dynamicsOf_eq h.right]
    cases hf : p.dynamicsFunction with
    | ok f => exact .ok (h.withDynamics hf)
    | error fault => exact .error h

theorem steady_quadratureErrorOf : Steady p (quadratureErrorOf p) := by
  constructor
  · intro s
    unfold quadratureErrorOf
    rw [run_get_bind]
    cases hs : s.quadratureError with
    | some f => exact .refl p s
    | none =>
      cases hf : p.quadratureErrorFunction with
      | ok function =>
        cases function with
        | some f => exact ⟨rfl, List.prefix_rfl, .inl rfl, .inr ⟨hs, f, rfl, hf⟩⟩
        | none => exact .refl p s
      | error fault => exact .refl p s
  · intro front front' s t h
    rw [quadratureErrorOf_eq h.left, quadratureErrorOf_eq h.right]
    cases hf : p.quadratureErrorFunction with
    | ok function =>
      cases function with
      | some f => exact .ok (h.withQuadratureError hf)
      | none => exact .error h
    | error fault => exact .error h

/-! ## Calling them -/

theorem steady_derivativesAt {i : Int} : Steady p (derivativesAt p i) := by
  apply steady_dynamicsOf.bind
  intro f
  exact .read (fun s => .attempt _) fun _ _ _ _ => rfl

theorem steady_quadratureErrorAt {i : Int} {channels : Literal α} :
    Steady p (quadratureErrorAt p i channels) := by
  refine .read (fun s => ?_) fun _ _ _ _ => rfl
  apply (Steady.attempt _).bind
  intro arguments
  apply steady_quadratureErrorOf.bind
  intro f
  apply (Steady.attempt _).bind
  intro error
  exact .ite (.pure _) (.throw _)

theorem steady_differentialEquations {index channels : Literal α} {withError : Bool} :
    Steady p (differentialEquations p index channels withError) := by
  apply steady_dynamicsOf.bind
  intro _
  apply (Steady.attempt _).bind
  intro i
  apply steady_derivativesAt.bind
  intro derivatives
  refine .ite ?_ (.pure _)
  apply steady_quadratureErrorAt.bind
  intro error
  exact .pure _

theorem steady_allDerivatives : Steady p (allDerivatives p) := by
  refine .read (fun s => ?_) fun _ _ _ _ => rfl
  apply (Steady.mapM fun i _ => steady_derivativesAt).bind
  intro derivatives
  exact .pure _

/-! ## Appending -/

theorem steady_checkMutable : Steady p (checkMutable : Building α Unit) := by
  refine .read (fun s => ?_) fun _ _ _ _ => rfl
  exact .ite (.throw _) (.pure _)

theorem steady_append {lower upper : BoundVector α} {equations : Sized Kind α} :
    Steady p (append lower upper equations) := by
  apply steady_checkMutable.bind
  intro _
  split
  · exact .push _
  · exact .throw _

theorem steady_appendZero {count : Nat} {equations : Expr Kind α} :
    Steady p (appendZero count equations) := by
  apply (Steady.attempt _).bind
  intro e
  exact steady_append

theorem steady_appendBody {lower upper : BoundSource α} {body : Body α} :
    Steady p (appendBody lower upper body) := by
  refine .read (fun s => ?_) ?_
  · apply (Steady.attempt _).bind
    intro low
    apply (Steady.attempt _).bind
    intro high
    apply (Steady.attempt _).bind
    intro equations
    apply steady_checkMutable.bind
    intro _
    apply (Steady.attempt _).bind
    intro lower
    apply (Steady.attempt _).bind
    intro upper
    exact steady_append
  · -- the arrays are looked up in tables that no step writes
    intro s blocks dynamics quadratureError
    have hsame : (s.withHistory blocks dynamics quadratureError).handOver = s.handOver :=
      handOver_congr rfl
    rw [hsame]
    rfl

/-! ## Families of constraints -/

theorem steady_appendConstraint {c : Constraint α} {indices : GridIndices α} :
    Steady p (appendConstraint p c indices) := by
  apply (Steady.attempt _).bind
  intro f
  apply (Steady.attempt _).bind
  intro bounds
  apply (Steady.attempt _).bind
  intro indices
  -- a grid index may be refused, and so may what is appended there
  apply Steady.forM
  intro index _
  apply (Steady.attempt _).bind
  intro i
  refine .read (fun s => ?_) fun _ _ _ _ => rfl
  apply (Steady.attempt _).bind
  intro e
  exact steady_append

theorem steady_appendFamily {family : ConstraintFamily} {indices : GridIndices α} :
    Steady p (appendFamily p family indices) :=
  .forM fun _ _ => steady_appendConstraint

theorem steady_appendPath {indices : Literal α} : Steady p (appendPath p indices) :=
  .read (fun _ => steady_appendFamily) fun _ _ _ _ => rfl

theorem steady_appendKinematic : Steady p (appendKinematic p) :=
  .read (fun _ => steady_appendFamily) fun _ _ _ _ => rfl

theorem steady_appendEndpoint : Steady p (appendEndpoint p) := by
  apply Steady.forM
  intro c _
  apply (Steady.attempt _).bind
  intro f
  apply (Steady.attempt _).bind
  intro bounds
  refine .read (fun s => ?_) fun _ _ _ _ => rfl
  apply (Steady.attempt _).bind
  intro arguments
  apply (Steady.attempt _).bind
  intro e
  exact steady_append

theorem steady_appendFamilies : Steady p (appendFamilies p) := by
  apply steady_appendKinematic.bind
  intro _
  apply steady_appendPath.bind
  intro _
  exact steady_appendEndpoint

/-! ## Rules -/

theorem steady_appendTrapezoidal {steps : Array α} {derivatives : Array (Expr Kind α)} :
    Steady p (appendTrapezoidal p steps derivatives) :=
  .read (fun _ => .forM fun _ _ => steady_appendZero) fun _ _ _ _ => rfl

theorem steady_appendHermiteSimpson {steps : Array α} {derivatives : Array (Expr Kind α)} :
    Steady p (appendHermiteSimpson p steps derivatives) :=
  .read (fun _ => .forM fun _ _ => steady_appendZero) fun _ _ _ _ => rfl

theorem steady_appendMidpointControls {intervals : Nat} :
    Steady p (appendMidpointControls p intervals) :=
  .read (fun _ => .forM fun _ _ => steady_appendZero) fun _ _ _ _ => rfl

theorem steady_follow (directive : Directive α) : Steady p (follow p directive) := by
  cases directive with
  | path indices => exact steady_appendPath
  | kinematic => exact steady_appendKinematic
  | endpoint => exact steady_appendEndpoint
  | dynamics index channels withError =>
    apply steady_differentialEquations.bind
    intro equations
    apply steady_append.bind
    intro _
    exact steady_append
  | constrain lower upper equations => exact steady_appendBody

/-- Whatever the rule, writing the constraints only adds. -/
theorem steady_applyRule : Steady p (applyRule p) := by
  refine .read (fun s => ?_) fun _ _ _ _ => rfl
  cases s.rule with
  | trapezoidal mesh =>
    apply (Steady.attempt _).bind
    intro grid
    apply steady_allDerivatives.bind
    intro derivatives
    apply steady_appendTrapezoidal.bind
    intro _
    exact steady_appendFamilies
  | hermiteSimpson mesh tieControls =>
    apply steady_allDerivatives.bind
    intro derivatives
    apply steady_appendHermiteSimpson.bind
    intro _
    refine .ite ?_ steady_appendFamilies
    apply steady_appendMidpointControls.bind
    intro _
    exact steady_appendFamilies
  | custom hooks => exact .forM fun directive _ => steady_follow directive

end Scheme
end Collocation
