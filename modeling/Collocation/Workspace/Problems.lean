import Collocation.Workspace.Arguments

/-! # Commands on problems

  Declarations go to the current problem. One that is refused leaves the problem as it was. -/

namespace Collocation

variable {α : Type} [Number α]

namespace Workspace

/-- The values of a function at as many arguments as it has inputs. -/
def callFunction {ι : Type} [Inputs ι] [BEq ι] (f : Function ι α) (args : List (Literal α)) :
    Except (Fault α) (Reply α) := do
  let matrices ← args.mapM Literal.toMatrix
  if matrices.length ≠ (Inputs.all : List ι).length then throw .expression
  let given := List.zip Inputs.all matrices
  let values ← f.evaluate fun i => (given.lookup i).getD (.column #[])
  return .value f.name f.extent (values.flatMap (·.data.toList)).toArray

/-- The value of one of a problem's functions; a quadrature error may be missing. -/
def evaluate (p : Problem α) (what : Evaluated) (args : List (Literal α)) :
    Except (Fault α) (Reply α) := do
  match what with
  | .dynamics => callFunction (← p.dynamicsFunction) args
  | .quadratureError =>
    match ← p.quadratureErrorFunction with
    | some f => callFunction f args
    | none => return .done
  | .integralCost => callFunction (← p.integrandFunction) args
  | .endpointCost => callFunction (← p.endpointCostFunction) args
  | .constraint .endpoint i =>
    callFunction (← p.endpointConstraintFunction (← p.constraintAt .endpoint i)) args
  | .constraint family i =>
    callFunction (← p.pointConstraintFunction (← p.constraintAt family i)) args

/-- The bound vectors of a constraint with `size` equations. A negative number of equations fits
    single bounds only, and these cannot be repeated that often. -/
def boundVectors (c : Constraint α) (size : Int) : Except (Fault α) (Reply α) := do
  if size < 0 then
    let lower ← c.lower.toVector
    throw (if lower.size = 1 then .negativeShape else .constraintBoundsSize c.name size)
  let (lower, upper) ← c.boundVectors size.toNat
  return .boundVectors lower upper

/-- Changes the current problem and shows its dimensions. -/
def declare (change : Problem α → Except (Fault α) (Problem α)) : Session α (Reply α) := do
  changeProblem change
  return .dimensions (← get).currentProblem

/-- Runs a command on the current problem. -/
def runProblem (command : ProblemCommand α) : Session α (Reply α) := do
  let p := (← get).currentProblem
  match command with
  | .setTimes initial final =>
    let initial ← attempt (readBounds initial)
    let final ← attempt (readBounds final)
    changeProblem fun p => .ok { p with initialTime := initial, finalTime := final }
    return .done
  | .addComponent kind name bounds initial final =>
    let bounds ← attempt (readBounds bounds)
    let (initial, final) ← attempt (readEndBounds kind initial final)
    declare fun p => p.addComponent kind ⟨name, bounds, initial, final⟩
  | .setDerivatives count bounds =>
    let bounds ← attempt (readBounds bounds)
    declare fun p => p.setDerivatives count bounds
  | .setSlacks count => declare fun p => p.setSlacks count
  | .setDynamics body =>
    changeProblem fun p => .ok { p with dynamics := some body }
    return .done
  | .setQuadratureError body count =>
    declare fun p => .ok { p with quadratureError := some body, quadratureErrorCount := count }
  | .addCost kind cost =>
    changeProblem fun p => .ok (p.addCost kind cost)
    return .done
  | .addConstraint family c => declare fun p => .ok (p.addConstraint family c)
  | .editConstraint family index edit =>
    changeProblem fun p => p.editConstraint family index edit.apply
    return .done
  | .showDimensions => return .dimensions p
  | .countPathEquations => return .count (← attempt p.pathEquationCount)
  | .evaluate what args => attempt (evaluate p what args)
  | .constraintBounds family index size =>
    let c ← attempt (p.constraintAt family index)
    attempt (boundVectors c size)
  | .createTrajectory trajectoryClass stats target =>
    enterTrajectory target
      (← attempt (makeTrajectory trajectoryClass [] (.vector #[]) p.names stats))

end Workspace
end Collocation
