import Collocation.Literal.Matrix
import Collocation.Problem
import Collocation.Stretch

/-! # Functions of a problem

  The checked functions that a problem's expressions become, and the bound vectors of its
  constraints. Point functions take the time and the values of all kinds at one grid point;
  endpoint functions take the two times, the states there, and the parameters. -/

namespace Collocation

/-! ## Inputs -/

/-- Inputs of a function at one grid point. -/
inductive PointInput where
  | time
  | states
  | controls
  | multipliers
  | derivatives
  | slacks
  | parameters
  deriving Repr, DecidableEq

namespace PointInput

def name : PointInput → String
  | time => "t"
  | states => "x"
  | controls => "u"
  | multipliers => "m"
  | derivatives => "d"
  | slacks => "s"
  | parameters => "p"

def all : List PointInput :=
  [.time, .states, .controls, .multipliers, .derivatives, .slacks, .parameters]

instance : Inputs PointInput := ⟨all, fun s => all.find? fun i => i.name = s⟩

end PointInput

/-- Inputs of a function of the two ends. -/
inductive EndpointInput where
  | initialTime
  | initialStates
  | finalTime
  | finalStates
  | parameters
  deriving Repr, DecidableEq

namespace EndpointInput

def name : EndpointInput → String
  | initialTime => "t0"
  | initialStates => "x0"
  | finalTime => "tf"
  | finalStates => "xf"
  | parameters => "p"

def all : List EndpointInput :=
  [.initialTime, .initialStates, .finalTime, .finalStates, .parameters]

instance : Inputs EndpointInput := ⟨all, fun s => all.find? fun i => i.name = s⟩

end EndpointInput

abbrev PointFunction (α : Type) := Function PointInput α

abbrev EndpointFunction (α : Type) := Function EndpointInput α

namespace Problem

variable {α : Type}

/-- The sizes of the inputs at one grid point. -/
def pointInputs (p : Problem α) : Except (Fault α) (PointInput → Extent) := do
  let derivatives ← rowsOf p.derivativeCount
  let slacks ← rowsOf p.slackCount
  return fun
    | .time => .unit
    | .states => ⟨p.states.length, 1⟩
    | .controls => ⟨p.controls.length, 1⟩
    | .multipliers => ⟨p.multipliers.length, 1⟩
    | .derivatives => ⟨derivatives, 1⟩
    | .slacks => ⟨slacks, 1⟩
    | .parameters => ⟨p.parameters.length, 1⟩

/-- The sizes of the inputs at the two ends. -/
def endpointInputs (p : Problem α) : EndpointInput → Extent
  | .initialTime | .finalTime => .unit
  | .initialStates | .finalStates => ⟨p.states.length, 1⟩
  | .parameters => ⟨p.parameters.length, 1⟩

variable [Number α]

/-! ## Dynamics and quadrature error -/

/-- The derivatives of the states, one for each. -/
def dynamicsFunction (p : Problem α) : Except (Fault α) (PointFunction α) :=
  match p.dynamics with
  | none => .error (.noDynamics p.name)
  | some body => do
    let inputs ← p.pointInputs
    let derivatives ← Function.columnOf inputs body
    if derivatives.extent.size ≠ p.states.length then
      throw (.dynamicsSize derivatives.extent.size p.states.length)
    Function.make "f_dynamics" inputs derivatives

/-- The residuals that vanish where the discrete integral is exact, if they are declared. -/
def quadratureErrorFunction (p : Problem α) : Except (Fault α) (Option (PointFunction α)) :=
  match p.quadratureError with
  | none => .ok none
  | some body => do
    let inputs ← p.pointInputs
    return some (← Function.ofBody "f_quadrature_error" inputs body)

/-! ## Costs -/

/-- The weight of a cost as a constant. -/
def readWeight (l : Literal α) : Except (Fault α) (Matrix α) :=
  match l.flatMatrix? with
  | some m => .ok m
  | none =>
    match l with
    | .text _ | .list _ => .error .sequenceAsWeight
    | l => .error (.notAWeight l.typeName)

/-- The weighted sum of the components of one cost. -/
def costTerm {ι : Type} [Inputs ι] [DecidableEq ι] (inputs : ι → Extent) (cost : Cost α) :
    Except (Fault α) (Sized ι α) := do
  let column ← Function.columnOf inputs cost.body
  let weight ← readWeight cost.weight
  return Sized.zip .mul (.ofMatrix weight) column.sumRows

/-- The sum of the costs, from the left, starting at zero. -/
def costSum {ι : Type} [Inputs ι] [DecidableEq ι] (inputs : ι → Extent)
    (costs : List (Cost α)) : Except (Fault α) (Sized ι α) :=
  costs.foldlM (fun acc cost => do
    Term.fitting (Sized.zip? .add acc (← costTerm inputs cost))) (.number Number.zero)

/-- The weighted sum of the integrands. -/
def integrandFunction (p : Problem α) : Except (Fault α) (PointFunction α) := do
  let inputs ← p.pointInputs
  Function.make "f_integrand" inputs (← costSum inputs p.integralCosts)

/-- The weighted sum of the costs at the two ends. -/
def endpointCostFunction (p : Problem α) : Except (Fault α) (EndpointFunction α) := do
  Function.make "f_endpoint_cost" p.endpointInputs (← costSum p.endpointInputs p.endpointCosts)

/-! ## Constraints -/

/-- The function of a constraint at one grid point. -/
def pointConstraintFunction (p : Problem α) (c : Constraint α) :
    Except (Fault α) (PointFunction α) := do
  let inputs ← p.pointInputs
  Function.ofBody ("g_" ++ c.name) inputs c.body

/-- The function of a constraint at the two ends. -/
def endpointConstraintFunction (p : Problem α) (c : Constraint α) :
    Except (Fault α) (EndpointFunction α) :=
  Function.ofBody ("g_" ++ c.name) p.endpointInputs c.body

/-- The number of equations that the path constraints add at one grid point. -/
def pathEquationCount (p : Problem α) : Except (Fault α) Nat :=
  p.pathConstraints.foldlM (fun n c => do
    return n + (← p.pointConstraintFunction c).extent.rows) 0

end Problem

namespace Constraint

variable {α : Type} [Number α]

/-- One bound of a constraint as a vector: a single number is repeated. -/
def boundVector (c : Constraint α) (size : Nat) (l : Literal α) : Except (Fault α) (Array α) := do
  let v ← l.toVector
  if v.size = 1 then
    if 0x8000000000000000 ≤ size then throw .dimensionTooLarge
    checkStored size
  match repeatTo? size v with
  | some v => return v
  | none => throw (.constraintBoundsSize c.name size)

/-- The lower and the upper bound vector of a constraint with `size` equations. -/
def boundVectors (c : Constraint α) (size : Nat) : Except (Fault α) (Array α × Array α) := do
  let lower ← c.boundVector size c.lower
  let upper ← c.boundVector size c.upper
  if (Array.zip lower upper).any fun (l, u) => Number.below u l then
    throw (.constraintBoundsCrossed c.name)
  return (lower, upper)

end Constraint
end Collocation
