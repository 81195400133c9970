import Collocation.Bounds
import Collocation.Function
import Collocation.Trajectory

/-! # Problems

  A continuous-time optimal control problem: the components of its variables with their bounds,
  its dynamics, its costs and its constraints. Declarations that are refused leave the problem
  as it was. -/

namespace Collocation

/-- A user's expression over named inputs. -/
abbrev Body (α : Type) := Term α

/-- One component of a kind: its name, its bounds along the way and at the two ends. -/
structure Component (α : Type) where
  name : String
  bounds : Bounds α := .unset
  initial : Bounds α := .unset
  final : Bounds α := .unset

/-- A vector constraint between two bounds, which are read when the constraint is used. -/
structure Constraint (α : Type) where
  name : String
  body : Body α
  lower : Literal α
  upper : Literal α

/-- A cost with its weight. -/
structure Cost (α : Type) where
  body : Body α
  weight : Literal α

/-- The kinds of components that a caller declares one by one. -/
inductive ComponentKind where
  | state
  | control
  | multiplier
  | parameter
  deriving Repr, DecidableEq

/-- Where a constraint is enforced. -/
inductive ConstraintFamily where
  | path
  | kinematic
  | endpoint
  deriving Repr, DecidableEq

/-- Costs are integrated along the way or taken at the two ends. -/
inductive CostKind where
  | integral
  | endpoint
  deriving Repr, DecidableEq

/-- An optimal control problem. -/
structure Problem (α : Type) where
  name : String
  initialTime : Bounds α := .unset
  finalTime : Bounds α := .unset
  states : List (Component α) := []
  controls : List (Component α) := []
  multipliers : List (Component α) := []
  parameters : List (Component α) := []
  derivativeCount : Scalar α := .whole 0
  derivativeBounds : Bounds α := .unset
  slackCount : Scalar α := .whole 0
  dynamics : Option (Body α) := none
  quadratureError : Option (Body α) := none
  quadratureErrorCount : Literal α := .whole 0
  integralCosts : List (Cost α) := []
  endpointCosts : List (Cost α) := []
  pathConstraints : List (Constraint α) := []
  kinematicConstraints : List (Constraint α) := []
  endpointConstraints : List (Constraint α) := []

namespace Problem

variable {α : Type}

/-! ## Components -/

def components (p : Problem α) : ComponentKind → List (Component α)
  | .state => p.states
  | .control => p.controls
  | .multiplier => p.multipliers
  | .parameter => p.parameters

def setComponents (p : Problem α) (kind : ComponentKind) (cs : List (Component α)) : Problem α :=
  match kind with
  | .state => { p with states := cs }
  | .control => { p with controls := cs }
  | .multiplier => { p with multipliers := cs }
  | .parameter => { p with parameters := cs }

/-- Declares a component after the earlier ones of its kind, whose names it must not repeat. -/
def addComponent (p : Problem α) (kind : ComponentKind) (c : Component α) :
    Except (Fault α) (Problem α) :=
  if (p.components kind).any fun other => other.name = c.name then .error (.duplicateName c.name)
  else .ok (p.setComponents kind (p.components kind ++ [c]))

/-- The names of the components. -/
def names (p : Problem α) : Names where
  states := p.states.map (·.name)
  controls := p.controls.map (·.name)
  multipliers := p.multipliers.map (·.name)
  parameters := p.parameters.map (·.name)

/-! ## Counts -/

/-- A number of variables as given by the caller, which must not be negative. -/
def readCount [Number α] (negative : Fault α) (l : Literal α) : Except (Fault α) (Scalar α) :=
  match Scalar.ofLiteral? l with
  | some s => if (Scalar.whole 0).exceeds s then .error negative else .ok s
  | none => .error (.unordered l.typeName)

def setDerivatives [Number α] (p : Problem α) (count : Literal α) (bounds : Bounds α) :
    Except (Fault α) (Problem α) := do
  let count ← readCount .negativeDerivatives count
  return { p with derivativeCount := count, derivativeBounds := bounds }

def setSlacks [Number α] (p : Problem α) (count : Literal α) : Except (Fault α) (Problem α) := do
  let count ← readCount .negativeSlacks count
  return { p with slackCount := count }

/-- The largest number of rows of a symbol. It stands for the memory of a machine and is no part of
    the method; only the conditions for success depend on it. -/
def rowLimit : Nat := 0x8000000

/-- A count as the number of rows of an input; a truth value counts as one or zero. A count that
    is no integer of 64 bits gives no input. -/
def rowsOf : Scalar α → Except (Fault α) Nat
  | .truth b => .ok (if b then 1 else 0)
  | .whole n =>
    if 0x8000000000000000 ≤ n then .error .unsupported
    else if rowLimit < n.toNat then .error .expression
    else .ok n.toNat
  | .real _ => .error .unsupported

/-- A count as the number of rows of a decision variable, where no truth value will do. -/
def variableRowsOf : Scalar α → Except (Fault α) Nat
  | .truth _ => .error .countNotWhole
  | count => rowsOf count

/-! ## Costs and constraints -/

def addCost (p : Problem α) (kind : CostKind) (cost : Cost α) : Problem α :=
  match kind with
  | .integral => { p with integralCosts := p.integralCosts ++ [cost] }
  | .endpoint => { p with endpointCosts := p.endpointCosts ++ [cost] }

def constraints (p : Problem α) : ConstraintFamily → List (Constraint α)
  | .path => p.pathConstraints
  | .kinematic => p.kinematicConstraints
  | .endpoint => p.endpointConstraints

def setConstraints (p : Problem α) (family : ConstraintFamily) (cs : List (Constraint α)) :
    Problem α :=
  match family with
  | .path => { p with pathConstraints := cs }
  | .kinematic => { p with kinematicConstraints := cs }
  | .endpoint => { p with endpointConstraints := cs }

def addConstraint (p : Problem α) (family : ConstraintFamily) (c : Constraint α) : Problem α :=
  p.setConstraints family (p.constraints family ++ [c])

/-- The place in a list that an index from either end means. -/
def listIndex (size : Nat) (i : Int) : Except (Fault α) Nat :=
  if !fitsIndex i then .error .unfitIndex
  else match resolveIndex (α := α) 0 size i with
  | .ok k => .ok k
  | .error _ => .error .listIndexOutOfRange

/-- The constraint at an index. -/
def constraintAt (p : Problem α) (family : ConstraintFamily) (i : Int) :
    Except (Fault α) (Constraint α) := do
  let k ← listIndex (p.constraints family).length i
  match (p.constraints family)[k]? with
  | some c => return c
  | none => throw .listIndexOutOfRange

/-- The problem with the constraint at an index changed. -/
def editConstraint (p : Problem α) (family : ConstraintFamily) (i : Int)
    (edit : Constraint α → Constraint α) : Except (Fault α) (Problem α) := do
  let k ← listIndex (p.constraints family).length i
  return p.setConstraints family ((p.constraints family).modify k edit)

end Problem
end Collocation
