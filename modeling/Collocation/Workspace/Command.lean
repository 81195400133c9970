import Collocation.Workspace

/-! # Commands

  What a caller can ask of a workspace. Arguments are kept as they were written: they are read
  when the command runs, so that the first argument that does not fit is the one reported. -/

namespace Collocation

/-- What of a problem is evaluated at numeric arguments. -/
inductive Evaluated where
  | dynamics
  | quadratureError
  | integralCost
  | endpointCost
  | constraint (family : ConstraintFamily) (index : Int)

/-- New values for some parts of a constraint. -/
structure ConstraintEdit (α : Type) where
  name : Option String
  body : Option (Body α)
  lower : Option (Literal α)
  upper : Option (Literal α)

/-- The parts of a constraint that an edit names, replaced. -/
def ConstraintEdit.apply {α : Type} (edit : ConstraintEdit α) (c : Constraint α) :
    Constraint α where
  name := edit.name.getD c.name
  body := edit.body.getD c.body
  lower := edit.lower.getD c.lower
  upper := edit.upper.getD c.upper

/-- The two classes of trajectories. -/
inductive TrajectoryClass where
  | iterate
  | solution
  deriving Repr, DecidableEq

/-- What is asked of the current problem. Bounds are given by a list of their arguments. -/
inductive ProblemCommand (α : Type) where
  | setTimes (initial final : Literal α)
  | addComponent (kind : ComponentKind) (name : String) (bounds initial final : Literal α)
  | setDerivatives (count bounds : Literal α)
  | setSlacks (count : Literal α)
  | setDynamics (body : Body α)
  | setQuadratureError (body : Body α) (count : Literal α)
  | addCost (kind : CostKind) (cost : Cost α)
  | addConstraint (family : ConstraintFamily) (c : Constraint α)
  | editConstraint (family : ConstraintFamily) (index : Int) (edit : ConstraintEdit α)
  | showDimensions
  | countPathEquations
  | evaluate (what : Evaluated) (args : List (Literal α))
  | constraintBounds (family : ConstraintFamily) (index size : Int)
  /-- A trajectory without values that carries the problem's names. -/
  | createTrajectory (trajectoryClass : TrajectoryClass) (stats : Option (Options α))
      (target : String)

/-- What a new scheme is made of. -/
inductive SchemeChoice (α : Type) where
  | trapezoidal (mesh : Literal α)
  | hermiteSimpson (mesh : Literal α) (tieControls : Bool)
  /-- The number of grid points is that of the grid unless it is given. -/
  | custom (hooks : Hooks α) (grid : Literal α) (gridPoints : Option Int) (withVariables : Bool)

/-- A decision vector: its elements, or the trajectory that is flattened. -/
inductive VectorSource (α : Type) where
  | elements (l : Literal α)
  | trajectory (name : String)

/-- What is asked of a scheme. -/
inductive SchemeCommand (α : Type) where
  | create (choice : SchemeChoice α)
  | setGrid (grid : Literal α)
  | setGridElement (index : Int) (value : Literal α)
  | showMesh
  | transcribe
  | showStatus
  | showQuadrature
  | showKinematic
  | createTimes (initial final : Literal α) (symbolic : Bool)
  | showBounds (key : Option (Literal α))
  | setBounds (key : Literal α) (rows cols : Selector α) (bounds : Literal α)
  | setBoundElement (side : Side) (key : Literal α) (row col : Int) (value : Literal α)
  | replaceBounds (side : Side) (key value : Literal α)
  | deleteVariables (key : Literal α)
  | guess (target : String)
  /-- Draws fall at the given fractions of the way between the ends, over and over. -/
  | random (fractions : Literal α) (target : String)
  | addConstraints (lower upper : BoundSource α) (equations : Body α)
  | setObjective (objective : Body α)
  | evaluateObjective (x : VectorSource α)
  | showConstraints (x : Option (VectorSource α))
  | evaluateDynamics (index channels : Literal α) (withError : Bool) (x : VectorSource α)
  | expand (x : VectorSource α)
  | solve (guess target : String) (script : Script α)

/-- What a new trajectory is made of. -/
structure TrajectoryChoice (α : Type) where
  trajectoryClass : TrajectoryClass
  stats : Option (Options α)
  values : List (Literal α × Literal α)
  times : Option (Literal α)
  names : Names

/-- The times to which a trajectory is carried. -/
inductive TimesSource (α : Type) where
  | elements (l : Literal α)
  | trajectory (name : String)

/-- What is read from a trajectory. -/
inductive Reading where
  | initialTime
  | finalTime
  | whole (kind : Kind)
  | row (kind : Kind) (names : NameList) (name : String)
  | parameter (name : String)
  | success

/-- What is asked of a trajectory. -/
inductive TrajectoryCommand (α : Type) where
  | create (choice : TrajectoryChoice α)
  | show
  | copy (target : String)
  | resample (times : TimesSource α) (target : String)
  | read (what : Reading)
  | setElement (key : Literal α) (index : List Int) (value : Literal α)
  | setTime (index : Int) (value : Literal α)
  /-- No value takes the variable away. -/
  | setVariable (key : Literal α) (value : Literal α)
  | setNames (which : NameList) (value : List String)
  | appendName (which : NameList) (value : String)
  | flatten

/-- What is asked of a workspace. -/
inductive Command (α : Type) where
  | newProblem (name : Option String)
  | settings (configuredSolver : Option String) (fields : Options α)
  | problem (command : ProblemCommand α)
  | scheme (name : String) (command : SchemeCommand α)
  | trajectory (name : String) (command : TrajectoryCommand α)

end Collocation
