import Collocation.Scheme.Times
import Collocation.Workspace.Arguments

/-! # Commands on schemes

  A scheme is made for the current problem and entered under its name once it is complete. A
  command that fails on a scheme leaves what it did before. -/

namespace Collocation

variable {α : Type} [Number α]

namespace Workspace

/-- The number of grid points of a custom scheme: as given, or the length of its grid. There are
    no variables for a negative number of points. -/
def pointCount (grid : Option (Tensor α)) (given : Option Int) (withVariables : Bool) :
    Except (Fault α) Nat :=
  match given with
  | none => .ok ((grid.map fun t => t.shape.getD 0 0).getD 0)
  | some n => if n < 0 ∧ withVariables then .error .expression else .ok n.toNat

/-- The scheme that is chosen for a problem. -/
def createScheme (settings : Settings α) (p : Problem α) : SchemeChoice α →
    Except (Fault α) (Scheme α)
  | .trapezoidal mesh => Scheme.trapezoidal settings p mesh
  | .hermiteSimpson mesh tieControls => Scheme.hermiteSimpson settings p mesh tieControls
  | .custom hooks grid gridPoints withVariables => do
    let grid ← readArray grid
    let points ← pointCount grid gridPoints withVariables
    Scheme.custom settings p hooks grid points withVariables

/-- The elements of a decision vector. -/
def readVector : VectorSource α → Session α (Array α)
  | .elements l => attempt l.toVector
  | .trajectory name => do attempt (← trajectory name).flatten

/-- The columns of decision vectors; a list of lists is a matrix. -/
def readColumns : VectorSource α → Session α (Matrix α)
  | .elements l => do
    match Matrix.ofTensor? (← attempt l.toTensor) with
    | some m => return m
    | none => throw .unsupported
  | .trajectory name => do return .column (← attempt (← trajectory name).flatten)

/-- The bounds of all kinds, or of one. -/
def showBounds (s : Scheme α) (key : Option (Literal α)) : Except (Fault α) (Reply α) := do
  match key with
  | some key =>
    let key ← Key.ofLiteral key
    let lower ← s.bound .lower key
    let upper ← s.bound .upper key
    return .bounds (Table.empty.insert (← key.toKind) (lower, upper))
  | none => return .bounds (← s.lower.mapExcept fun kind lower => do
    return (lower, ← s.upper.get kind))

/-- Writes one element of the grid in place. -/
def setGridElement (index : Int) (value : Literal α) : Building α Unit := do
  let s ← get
  match s.grid with
  | none => throw .noElements
  | some grid =>
    if s.gridLocked then throw .readOnly
    let written ← attempt (grid.write [index] value)
    set { s with grid := some written }

/-- The reply with the grid. -/
def showGrid : Building α (Reply α) := do return .vector (← attempt (← get).gridVector)

/-- The mesh of a built-in rule. -/
def meshOf (s : Scheme α) : Except (Fault α) (Array α) :=
  match s.rule with
  | .trapezoidal mesh | .hermiteSimpson mesh _ => .ok mesh
  | .custom _ => .error (.noMesh s.rule.schemeName)

/-- The absolute times, by the numeric or by the symbolic law. -/
def createTimes (s : Scheme α) (initial final : Literal α) (symbolic : Bool) :
    Except (Fault α) (Array α) := do
  if symbolic then s.timesAt initial final else s.createTimesOf initial final

/-- Draws at given fractions of the way, over and over. -/
def drawAt (fractions : Array α) (n : Nat) (low high : α) : α :=
  low + fractions.getD (n % fractions.size) default * (high - low)

/-- Runs a command on the scheme of a name. -/
def runScheme (name : String) (command : SchemeCommand α) : Session α (Reply α) := do
  match command with
  | .create choice =>
    let w ← get
    let s ← attempt (createScheme w.settings w.currentProblem choice)
    putScheme name s
    return .scheme s
  | .setGrid grid => onScheme name fun _ => do
    let grid ← attempt (readArray grid)
    modify fun s => { s with grid := grid, gridLocked := false }
    return .done
  | .setGridElement index value => onScheme name fun _ => do
    setGridElement index value
    showGrid
  | .showMesh =>
    let (_, s) ← scheme name
    return .vector (← attempt (meshOf s))
  | .transcribe => onScheme name fun p => do
    Scheme.transcribe p
    let s ← get
    return .transcription s (← attempt s.gridVector)
  | .showStatus => return .status (← scheme name).2
  | .showQuadrature =>
    let (_, s) ← scheme name
    return .vector (← attempt s.quadratureWeights)
  | .showKinematic =>
    let (_, s) ← scheme name
    return .vector (← attempt s.kinematicMask)
  | .createTimes initial final symbolic =>
    let (_, s) ← scheme name
    return .vector (← attempt (createTimes s initial final symbolic))
  | .showBounds key =>
    let (_, s) ← scheme name
    attempt (showBounds s key)
  | .setBounds key rows cols bounds => onScheme name fun _ => do
    let bounds ← attempt (readBounds bounds)
    Scheme.writeBounds (← attempt (Key.ofLiteral key)) rows cols bounds
    attempt (showBounds (← get) (some key))
  | .setBoundElement side key row col value => onScheme name fun _ => do
    Scheme.writeBound side (← attempt (Key.ofLiteral key)) [row, col] value
    attempt (showBounds (← get) (some key))
  | .replaceBounds side key value => onScheme name fun _ => do
    let value ← attempt (readArray value)
    Scheme.replaceBounds side (← attempt (Key.ofLiteral key)) value
    return .done
  | .deleteVariables key => onScheme name fun _ => do
    Scheme.eraseVariables (← attempt (Key.ofLiteral key))
    return .done
  | .guess target =>
    let (p, s) ← scheme name
    enterTrajectory target (← attempt (s.guessFromBounds p))
  | .random fractions target =>
    let fractions ← attempt fractions.toVector
    let (p, s) ← scheme name
    enterTrajectory target (← attempt (s.randomWithinBounds p (drawAt fractions)))
  | .addConstraints lower upper equations => onScheme name fun _ => do
    Scheme.appendBody lower upper equations
    return .count (← get).equationCount
  | .setObjective objective => onScheme name fun _ => do
    Scheme.replaceObjective objective
    return .done
  | .evaluateObjective x =>
    let (_, s) ← scheme name
    attempt (s.checkSymbols [s.objective])
    let x ← readColumns x
    return .vector (← attempt (s.evaluate s.objective x))
  | .showConstraints x =>
    let (_, s) ← scheme name
    match x with
    | none => return .constraints s.constraintLower s.constraintUpper none
    | some x =>
      attempt (s.checkSymbols s.equations)
      let x ← readColumns x
      let values ← attempt (s.evaluateConstraints x)
      return .constraints s.constraintLower s.constraintUpper (some values)
  | .evaluateDynamics index channels withError x =>
    let (derivatives, error) ← onScheme name fun p =>
      Scheme.differentialEquations p index channels withError
    let (_, s) ← scheme name
    attempt (s.checkSymbols [derivatives.expr, error.expr])
    let x ← readColumns x
    let derivatives ← attempt (s.evaluate derivatives.expr x)
    let error ← attempt (s.evaluate error.expr x)
    return .dynamics derivatives error
  | .expand x =>
    let (_, s) ← scheme name
    return .matrices (← attempt (s.expand (← readVector x)))
  | .solve guess target script =>
    let (p, s) ← scheme name
    let guess ← trajectory guess
    let solved ← attempt (s.solve p script.backend guess)
    putTrajectory target solved.solution
    let start := Matrix.column solved.program.start
    let objective ← attempt (s.evaluate solved.program.objective start)
    let constraints ← attempt (s.evaluateConstraints start)
    return .solved solved.program objective constraints
      (← attempt solved.solution.values.toTable) solved.solution

end Workspace
end Collocation
