import Collocation.Scheme.Constraints

/-! # Defects

  The equations by which each rule ties the states to the dynamics, and the order in which a rule
  writes its constraints. `x`, `f` and `u` are the states, their derivatives and the controls at
  grid points, `h` is the length of an interval of the unit interval, and the step is `h` times
  the duration.

  * Trapezoidal: `x₁ - x₀ = step / 2 * (f₀ + f₁)`.
  * Hermite: `xₘ = (x₀ + x₁) / 2 + step / 8 * (f₀ - f₁)`.
  * Simpson: `x₁ - x₀ = step / 6 * (f₀ + 4 fₘ + f₁)`.

  Where the derivatives are zero in any case, the step does not matter. -/

namespace Collocation

variable {α : Type} [Number α]

namespace Scheme

/-! ## Equations over one interval -/

/-- A whole number as an expression. -/
def wholeNumber {σ : Type} (n : Int) : Expr σ α := .number (Number.ofInt n)

/-- One half as an expression. -/
def halfNumber {σ : Type} : Expr σ α := .number Number.half

/-- What is left of a difference of states without the way of a step; a slope that is zero in any
    case leads nowhere. -/
def lessWay {σ : Type} (difference step slope : Expr σ α) : Expr σ α :=
  if slope.vanishes then difference else difference - step * slope

/-- What the trapezoidal rule sets to zero. -/
def trapezoidalDefect {σ : Type} (h : α) (duration x₀ x₁ f₀ f₁ : Expr σ α) : Expr σ α :=
  lessWay (x₁ - x₀) (.number (Number.half * h) * duration) (f₀ + f₁)

/-- What Hermite interpolation sets to zero. -/
def hermiteDefect {σ : Type} (step x₀ xₘ x₁ f₀ f₁ : Expr σ α) : Expr σ α :=
  lessWay (xₘ - halfNumber * (x₀ + x₁)) (step / wholeNumber 8) (f₀ - f₁)

/-- What Simpson's rule sets to zero. -/
def simpsonDefect {σ : Type} (step x₀ x₁ f₀ fₘ f₁ : Expr σ α) : Expr σ α :=
  lessWay (x₁ - x₀) (step / wholeNumber 6) (f₀ + wholeNumber 4 * fₘ + f₁)

/-- What ties the value at a midpoint to the mean of its neighbours. -/
def midpointDefect {σ : Type} (u₀ uₘ u₁ : Expr σ α) : Expr σ α :=
  uₘ - halfNumber * (u₀ + u₁)

/-! ## Equations over all intervals -/

/-- The derivatives of the states at every grid point. -/
def allDerivatives (p : Problem α) : Building α (Array (Expr Kind α)) := do
  let s ← get
  let derivatives ← (List.range s.gridPoints).mapM fun (i : Nat) => derivativesAt p i
  return (derivatives.map (·.expr)).toArray

/-- The duration, once it is there. -/
def durationOf (s : Scheme α) : Expr Kind α :=
  match s.duration with
  | some duration => duration.expr
  | none => default

/-- Column `i` of a kind of decision variables. -/
def columnAt (s : Scheme α) (k : Kind) (i : Nat) : Expr Kind α :=
  match s.extents.find? k with
  | some extent => .column extent.rows i (.symbol k extent)
  | none => default

/-- The states at a grid point. -/
def statesAt (s : Scheme α) (i : Nat) : Expr Kind α := s.columnAt .states i

/-- The controls at a grid point. -/
def controlsAt (s : Scheme α) (i : Nat) : Expr Kind α := s.columnAt .controls i

/-- Appends the defects of the trapezoidal rule on grid intervals of the given lengths, from the
    derivatives at the grid points. -/
def appendTrapezoidal (p : Problem α) (steps : Array α) (derivatives : Array (Expr Kind α)) :
    Building α Unit := do
  let s ← get
  let x := s.statesAt
  let f := fun i => derivatives.getD i default
  (List.range (s.gridPoints - 1)).forM fun k =>
    appendZero p.states.length
      (trapezoidalDefect (steps.getD k default) s.durationOf (x k) (x (k + 1)) (f k) (f (k + 1)))

/-- Appends the defects of Hermite interpolation and of Simpson's rule on mesh intervals of the
    given lengths, from the derivatives at the grid points. -/
def appendHermiteSimpson (p : Problem α) (steps : Array α) (derivatives : Array (Expr Kind α)) :
    Building α Unit := do
  let s ← get
  let x := s.statesAt
  let f := fun i => derivatives.getD i default
  (List.range steps.size).forM fun k =>
    let (i, m, j) := (2 * k, 2 * k + 1, 2 * k + 2)
    let step := .number (steps.getD k default) * s.durationOf
    appendZero (2 * p.states.length)
      (.above (hermiteDefect step (x i) (x m) (x j) (f i) (f j))
        (simpsonDefect step (x i) (x j) (f i) (f m) (f j)))

/-- Appends the ties of the controls at the midpoints of mesh intervals. -/
def appendMidpointControls (p : Problem α) (intervals : Nat) : Building α Unit := do
  let s ← get
  let u := s.controlsAt
  (List.range intervals).forM fun k =>
    let (i, m, j) := (2 * k, 2 * k + 1, 2 * k + 2)
    appendZero p.controls.length (midpointDefect (u i) (u m) (u j))

/-! ## The constraints of a rule -/

/-- Follows one directive of a custom rule. -/
def follow (p : Problem α) : Directive α → Building α Unit
  | .path indices => appendPath p indices
  | .kinematic => appendKinematic p
  | .endpoint => appendEndpoint p
  | .dynamics index channels withError => do
    let (derivatives, error) ← differentialEquations p index channels withError
    let zeros : Sized Kind α → Array α := fun e => .replicate e.extent.size Number.zero
    append (zeros derivatives) (zeros derivatives) derivatives
    append (zeros error) (zeros error) error
  | .constrain lower upper equations => appendBody lower upper equations

/-- Appends the constraints that both built-in rules write after their defects. -/
def appendFamilies (p : Problem α) : Building α Unit := do
  appendKinematic p
  appendPath p .null
  appendEndpoint p

/-- Appends all constraints of the scheme's rule. -/
def applyRule (p : Problem α) : Building α Unit := do
  let s ← get
  match s.rule with
  | .trapezoidal _ =>
    let grid ← attempt s.gridVector
    appendTrapezoidal p (differences grid) (← allDerivatives p)
    appendFamilies p
  | .hermiteSimpson mesh tieControls =>
    let steps := differences mesh
    appendHermiteSimpson p steps (← allDerivatives p)
    if tieControls && !p.controls.isEmpty then appendMidpointControls p steps.size
    appendFamilies p
  | .custom hooks => hooks.directives.forM (follow p)

end Scheme
end Collocation
