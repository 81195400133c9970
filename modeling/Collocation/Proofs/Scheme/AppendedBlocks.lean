import Collocation.Proofs.Invariants
import Collocation.Proofs.Scheme.Retry
import Collocation.Proofs.Scheme.Transcribed

/-! # Appended blocks

  A scheme only ever appends blocks. Those that it appends by itself have bounds of their own: zeros
  for equations that are to vanish, and the bounds of a problem's constraint as they are read. Only
  the directives of a custom rule hand bounds over. So a test that all these blocks pass is passed
  by every block, wherever a transcription ends. -/

namespace Collocation

variable {α : Type} [Number α]

/-- The test is passed by every block that is appended without bounds being handed over for it. -/
structure PassesOwn (test : Block α → Prop) : Prop where
  zero : ∀ b : Block α, b.Owns → b.lower.elements = Array.replicate b.size Number.zero →
    b.upper.elements = Array.replicate b.size Number.zero → test b
  read : ∀ b : Block α, b.Owns → ∀ (c : Constraint α) size,
    c.boundVectors size = .ok (b.lower.elements, b.upper.elements) → test b

/-- The test is passed by every block with the bounds that the directive hands over. -/
def Directive.Passes (test : Block α → Prop) : Directive α → Prop
  | .constrain lower upper _ =>
    ∀ b : Block α, b.lower.array = lower.array? → b.upper.array = upper.array? → test b
  | _ => True

namespace Scheme

/-- The schemes agree in everything but the functions of the problem that are built. -/
def AgreesButFunctions (s s' : Scheme α) : Prop :=
  ∃ dynamics quadratureError,
    s' = { s with dynamics := dynamics, quadratureError := quadratureError }

/-- The test is passed by all blocks of the scheme. -/
def AllBlocks (test : Block α → Prop) (s : Scheme α) : Prop := ∀ b ∈ s.blocks, test b

variable {p : Problem α} {s s' : Scheme α} {test : Block α → Prop}

omit [Number α] in
theorem AllBlocks.of_blocks (h : s.AllBlocks test) (hblocks : s'.blocks = s.blocks) :
    s'.AllBlocks test := by
  unfold AllBlocks
  rw [hblocks]
  exact h

/-! ## Functions of the problem -/

theorem keeps_dynamicsOf : Keeps s.AgreesButFunctions (dynamicsOf p) := by
  refine .read fun t ht => ?_
  cases hkept : t.dynamics with
  | some f => exact ht
  | none =>
    apply stateOf_attempt_bind ht
    intro f _
    obtain ⟨_, _, rfl⟩ := ht
    exact ⟨_, _, rfl⟩

theorem keeps_quadratureErrorOf : Keeps s.AgreesButFunctions (quadratureErrorOf p) := by
  refine .read fun t ht => ?_
  cases hkept : t.quadratureError with
  | some f => exact ht
  | none =>
    apply stateOf_attempt_bind ht
    intro f _
    cases f with
    | none => exact ht
    | some f =>
      obtain ⟨_, _, rfl⟩ := ht
      exact ⟨_, _, rfl⟩

theorem keeps_derivativesAt {i : Int} : Keeps s.AgreesButFunctions (derivativesAt p i) :=
  keeps_dynamicsOf.bind fun _ => .read fun t ht => Keeps.attempt _ t ht

theorem keeps_differentialEquations {index channels : Literal α} {withError : Bool} :
    Keeps s.AgreesButFunctions (differentialEquations p index channels withError) := by
  have herror : ∀ i, Keeps s.AgreesButFunctions (quadratureErrorAt p i channels) := by
    refine fun i => .read fun t ht => ?_
    apply stateOf_attempt_bind ht
    intro arguments _
    refine (keeps_quadratureErrorOf.bind fun f => (Keeps.attempt _).bind fun error => ?_) t ht
    exact .ite (.pure _) (.throw _)
  refine keeps_dynamicsOf.bind fun _ => (Keeps.attempt _).bind fun i =>
    keeps_derivativesAt.bind fun derivatives => ?_
  exact .ite ((herror i).bind fun _ => .pure _) (.pure _)

/-! ## Steps -/

theorem allBlocks_append {lower upper : BoundVector α} {e : Sized Kind α}
    (h : ∀ b : Block α, b.lower = lower → b.upper = upper → test b) :
    Keeps (AllBlocks test) (append lower upper e) := by
  refine keeps_checkMutable.bind fun _ => ?_
  split
  · refine .modify fun s hs b hb => ?_
    rcases List.mem_append.mp hb with hold | hnew
    · exact hs b hold
    · rw [List.mem_singleton.mp hnew]
      exact h _ rfl rfl
  · exact .throw _

omit [Number α] in
/-- To build functions of the problem appends nothing. -/
theorem allBlocks_of_agreesButFunctions {β : Type} {a : Building α β}
    (h : ∀ s : Scheme α, Keeps s.AgreesButFunctions a) : Keeps (AllBlocks test) a := by
  intro s hs
  obtain ⟨_, _, hend⟩ := h s s ⟨_, _, rfl⟩
  rw [hend]
  exact hs

theorem allBlocks_allDerivatives : Keeps (AllBlocks test) (allDerivatives p) :=
  allBlocks_of_agreesButFunctions fun _ => .read fun t ht =>
    ((Keeps.mapM fun _ _ => keeps_derivativesAt).bind fun _ => .pure _) t ht

/-! ## Bounds of a block's own -/

section Own

variable (hown : PassesOwn test)

include hown

theorem allBlocks_appendRead {c : Constraint α} {size : Nat} {lower upper : Array α}
    (h : c.boundVectors size = .ok (lower, upper)) {e : Sized Kind α} :
    Keeps (AllBlocks test) (append lower upper e) := by
  refine allBlocks_append fun b hlower hupper => ?_
  have howns : b.Owns := ⟨congrArg BoundVector.array hlower, congrArg BoundVector.array hupper⟩
  refine hown.read b howns c size ?_
  rw [hlower, hupper]
  exact h

theorem allBlocks_appendZeros {e : Sized Kind α} {n : Nat} :
    Keeps (AllBlocks test) (append (Array.replicate n Number.zero : Array α)
      (Array.replicate n Number.zero : Array α) e) := by
  refine allBlocks_append fun b hlower hupper => ?_
  -- the zeros are as many as the equations of the block
  have hsize : b.size = n := by
    rw [← b.size_lower, hlower]
    exact Array.size_replicate
  subst hsize
  exact hown.zero b ⟨congrArg BoundVector.array hlower, congrArg BoundVector.array hupper⟩
    (congrArg BoundVector.elements hlower) (congrArg BoundVector.elements hupper)

theorem allBlocks_appendZero {count : Nat} {e : Expr Kind α} :
    Keeps (AllBlocks test) (appendZero count e) :=
  .attempt_bind fun _ _ => allBlocks_appendZeros hown

theorem allBlocks_appendConstraint {c : Constraint α} {indices : GridIndices α} :
    Keeps (AllBlocks test) (appendConstraint p c indices) := by
  refine .attempt_bind fun f _ => .attempt_bind fun bounds hbounds => ?_
  refine .attempt_bind fun indices _ => .forM fun index _ => ?_
  refine .attempt_bind fun i _ => .read fun s hs => ?_
  exact (Keeps.attempt_bind fun e _ => allBlocks_appendRead hown hbounds) s hs

theorem allBlocks_appendFamily {family : ConstraintFamily} {indices : GridIndices α} :
    Keeps (AllBlocks test) (appendFamily p family indices) :=
  .forM fun _ _ => allBlocks_appendConstraint hown

theorem allBlocks_appendPath {indices : Literal α} :
    Keeps (AllBlocks test) (appendPath p indices) :=
  .read fun s hs => allBlocks_appendFamily hown s hs

theorem allBlocks_appendKinematic : Keeps (AllBlocks test) (appendKinematic p) :=
  .read fun s hs => allBlocks_appendFamily hown s hs

theorem allBlocks_appendEndpoint : Keeps (AllBlocks test) (appendEndpoint p) := by
  refine .forM fun c _ => .attempt_bind fun f _ => .attempt_bind fun bounds hbounds => ?_
  refine .read fun s hs => ?_
  exact (Keeps.attempt_bind fun arguments _ => .attempt_bind fun e _ =>
    allBlocks_appendRead hown hbounds) s hs

theorem allBlocks_appendFamilies : Keeps (AllBlocks test) (appendFamilies p) :=
  (allBlocks_appendKinematic hown).bind fun _ => (allBlocks_appendPath hown).bind fun _ =>
    allBlocks_appendEndpoint hown

theorem allBlocks_appendTrapezoidal {steps : Array α} {derivatives : Array (Expr Kind α)} :
    Keeps (AllBlocks test) (appendTrapezoidal p steps derivatives) :=
  .read fun s hs => Keeps.forM (fun _ _ => allBlocks_appendZero hown) s hs

theorem allBlocks_appendHermiteSimpson {steps : Array α} {derivatives : Array (Expr Kind α)} :
    Keeps (AllBlocks test) (appendHermiteSimpson p steps derivatives) :=
  .read fun s hs => Keeps.forM (fun _ _ => allBlocks_appendZero hown) s hs

theorem allBlocks_appendMidpointControls {intervals : Nat} :
    Keeps (AllBlocks test) (appendMidpointControls p intervals) :=
  .read fun s hs => Keeps.forM (fun _ _ => allBlocks_appendZero hown) s hs

/-! ## Rules -/

theorem allBlocks_follow {d : Directive α} (hd : d.Passes test) :
    Keeps (AllBlocks test) (follow p d) := by
  cases d with
  | path indices => exact allBlocks_appendPath hown
  | kinematic => exact allBlocks_appendKinematic hown
  | endpoint => exact allBlocks_appendEndpoint hown
  | dynamics index channels withError =>
    exact (allBlocks_of_agreesButFunctions fun _ => keeps_differentialEquations).bind fun _ =>
      (allBlocks_appendZeros hown).bind fun _ => allBlocks_appendZeros hown
  | constrain lower upper body =>
    refine .read fun s hs => ?_
    refine (Keeps.attempt_bind fun low _ => .attempt_bind fun high _ => .attempt_bind fun e _ =>
      keeps_checkMutable.bind fun _ => .attempt_bind fun l _ => .attempt_bind fun u _ => ?_) s hs
    refine allBlocks_append fun b hlower hupper => ?_
    exact hd b (congrArg BoundVector.array hlower) (congrArg BoundVector.array hupper)

/-- Wherever a rule ends, all blocks pass a test that the blocks before passed and that those pass
    which it appends. -/
theorem AllBlocks.applyRule (hs : s.AllBlocks test)
    (hhooks : ∀ hooks, s.rule = .custom hooks → ∀ d ∈ hooks.directives, d.Passes test) :
    (stateOf (applyRule p s)).AllBlocks test := by
  unfold Scheme.applyRule
  rw [run_get_bind]
  -- defects come first, then the families of the problem
  cases hkind : s.rule with
  | trapezoidal mesh =>
    have hsteps : ∀ grid, Keeps (AllBlocks test) (do
        appendTrapezoidal p (differences grid) (← allDerivatives p)
        appendFamilies p) :=
      fun _ => allBlocks_allDerivatives.bind fun _ =>
        (allBlocks_appendTrapezoidal hown).bind fun _ => allBlocks_appendFamilies hown
    exact Keeps.attempt_bind (fun grid _ => hsteps grid) s hs
  | hermiteSimpson mesh tieControls =>
    have hsteps : Keeps (AllBlocks test) (do
        appendHermiteSimpson p (differences mesh) (← allDerivatives p)
        if tieControls && !p.controls.isEmpty then appendMidpointControls p (differences mesh).size
        appendFamilies p) :=
      allBlocks_allDerivatives.bind fun _ => (allBlocks_appendHermiteSimpson hown).bind fun _ =>
        .ite ((allBlocks_appendMidpointControls hown).bind fun _ => allBlocks_appendFamilies hown)
          (allBlocks_appendFamilies hown)
    exact hsteps s hs
  | custom hooks =>
    exact Keeps.forM (fun d hd => allBlocks_follow hown (hhooks hooks hkind d hd)) s hs

/-- So do all blocks wherever a transcription ends. -/
theorem AllBlocks.transcribe (hs : s.AllBlocks test)
    (hhooks : ∀ hooks, s.rule = .custom hooks → ∀ d ∈ hooks.directives, d.Passes test) :
    (stateOf (transcribe p s)).AllBlocks test := by
  have hdrafted := drafted_prepare p s
  refine stateOf_bind (hs.of_blocks hdrafted.blocks) fun _ s₁ hs₁ => ?_
  rw [hs₁] at hdrafted
  have hprepared : s₁.AllBlocks test := hs.of_blocks hdrafted.blocks
  have hrule : s₁.rule = s.rule := hdrafted.toSameFrame.rule
  have happlied := hprepared.applyRule (p := p) hown (hrule ▸ hhooks)
  refine stateOf_bind happlied fun _ s₂ hs₂ => ?_
  rw [hs₂] at happlied
  exact happlied

end Own
end Scheme
end Collocation
