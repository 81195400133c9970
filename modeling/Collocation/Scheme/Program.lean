import Collocation.Scheme.Guess
import Collocation.Scheme.Transcription

/-! # Nonlinear programs

  What a transcribed scheme hands to a backend, and how the backend's answer is read. The
  variables, the guess, their bounds and the answer all share the layout of the decision vector. A
  guess may live on another grid: it is carried to the scheme's grid first. Bounds that exclude
  every value are reported before the backend runs, those of the variables first. -/

namespace Collocation

variable {α : Type}

/-- A nonlinear program with a vector to start from. -/
structure Program (α : Type) where
  solver : String
  options : Options α
  /-- The decision vector, as a column of all decision variables. -/
  unknowns : Expr Kind α
  /-- The values that are to lie within the constraint bounds, as one column. -/
  constraints : Expr Kind α
  start : Array α
  lower : Array α
  upper : Array α
  constraintLower : Array α
  constraintUpper : Array α
  objective : Expr Kind α

/-- What a backend found. -/
structure Answer (α : Type) where
  vector : Array α
  stats : Options α

/-- Why a backend gave no answer. -/
inductive BackendFailure (α : Type) where
  /-- It could not be run. -/
  | run (text : String)
  /-- It was refused something else. -/
  | other (fault : Fault α)

/-- A backend for nonlinear programs. -/
abbrev Backend (α : Type) := Program α → Except (BackendFailure α) (Answer α)

/-- A solution with the program that it solves. -/
structure Solved (α : Type) where
  program : Program α
  solution : Trajectory α

variable [Number α]

/-- Refuses a lower bound above its upper bound; the first one is reported. -/
def checkFeasible (part : BoundedPart) (lower upper : Array α) : Except (Fault α) Unit :=
  match stretch? [lower.size] [upper.size] with
  | none => .error (.shapesNotBroadcastable [[lower.size], [upper.size]])
  | some common =>
    let count := volume common
    let low := (repeatTo? count lower).getD lower
    let high := (repeatTo? count upper).getD upper
    match (List.range count).find? fun i =>
        Number.below (high.getD i default) (low.getD i default) with
    | none => .ok ()
    | some i =>
      if lower.size ≤ i then .error (.indexOutOfBounds i 0 lower.size)
      else if upper.size ≤ i then .error (.indexOutOfBounds i 0 upper.size)
      else .error (.infeasible part i (lower.getD i default) (upper.getD i default))

namespace Scheme

/-! ## Before the backend -/

/-- A guess's value of one kind, which must have the size of the decision variables. -/
def guessValue (guess : Trajectory α) (k : Kind) (extent : Extent) :
    Except (Fault α) (Tensor α) := do
  let value ← match Keyed.find? guess.values (.kind k) with
    | some value => pure value.atLeast2D
    | none =>
      if extent.size = 0 then pure (Tensor.fill extent.toList Number.zero)
      else throw (.guessMissing k)
  if value.shape = extent.toList then return value
  else throw (.guessShape k value.shape extent.toList)

/-- The decision vector of a guess on the scheme's own grid. -/
def flattenGuess (s : Scheme α) (guess : Trajectory α) : Except (Fault α) (Array α) := do
  return Layout.flatten (← s.extents.mapExcept (guessValue guess))

/-- The guess on the scheme's own grid, between its own end times. -/
def carryGuess (s : Scheme α) (guess : Trajectory α) : Except (Fault α) (Trajectory α) := do
  let initial ← guess.first .initialTime
  let final ← guess.first .finalTime
  guess.resample (← s.createTimes initial final)

omit [Number α] in
/-- The decision variables in one column: the kinds in their order, each matrix column by column. -/
def stackedVariables (s : Scheme α) : Expr Kind α :=
  .stacked (s.extents.toList.map fun (k, extent) => (Sized.symbol k extent).vec.expr)

omit [Number α] in
/-- The equations of all blocks in one column. -/
def stackedEquations (s : Scheme α) : Expr Kind α := .stacked (s.blocks.map (·.equations))

/-- The nonlinear program that a transcribed scheme hands over for a guess. -/
def program (s : Scheme α) (guess : Trajectory α) : Except (Fault α) (Program α) := do
  if !s.transcribed then throw .notTranscribed
  let start ← s.flattenGuess (← s.carryGuess guess)
  let _ ← s.strayLower.toTable
  let lower := Layout.flatten s.lower
  let _ ← s.strayUpper.toTable
  let upper := Layout.flatten s.upper
  checkFeasible .variable lower upper
  checkFeasible .constraint s.constraintLower s.constraintUpper
  return {
    solver := s.settings.solver
    options := s.settings.backendOptions
    unknowns := s.stackedVariables
    constraints := s.stackedEquations
    start := start
    lower := lower
    upper := upper
    constraintLower := s.constraintLower
    constraintUpper := s.constraintUpper
    objective := s.objective }

/-! ## After the backend -/

/-- The solution that a backend's answer is. -/
def solutionOf (s : Scheme α) (p : Problem α) (answer : Answer α) :
    Except (Fault α) (Trajectory α) := do
  let matrices ← s.expand answer.vector
  let values := matrices.map fun _ m => m.toTensor
  let times ← s.timesOf values
  Trajectory.solution (Keyed.ofTable values) (.vector times) p.names answer.stats

/-- Solves the nonlinear program once, from a guess, whether or not the backend is satisfied
    with what it found. -/
def solve (s : Scheme α) (p : Problem α) (backend : Backend α) (guess : Trajectory α) :
    Except (Fault α) (Solved α) := do
  let program ← s.program guess
  match backend program with
  | .error (.run text) => throw (.backend program.solver text)
  | .error (.other fault) => throw fault
  | .ok answer => return ⟨program, ← s.solutionOf p answer⟩

end Scheme

end Collocation
