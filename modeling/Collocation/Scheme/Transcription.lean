import Collocation.Scheme.Bounds
import Collocation.Scheme.Defects

/-! # Transcription

  The one step that turns a constructed scheme into a nonlinear program. It checks the grid and
  the decision variables, writes the time law, the objective and the constraints, and closes the
  scheme for changes. The steps are taken in order, and a step that fails leaves what the earlier
  ones did. -/

namespace Collocation

variable {α : Type}

namespace Scheme

/-! ## Preconditions -/

/-- The bounds of one side have the size of the decision variables. -/
def checkBoundsShape (s : Scheme α) (k : Kind) (extent : Extent) (which : Side) :
    Except (Fault α) Unit :=
  match (s.side which).find? k with
  | some bounds =>
    if bounds.shape = extent.toList then .ok ()
    else .error (.boundsShape which k extent.toList)
  | none => .error (.boundsShape which k extent.toList)

/-- There are decision variables of every kind, and bounds of their size. -/
def checkVariables (s : Scheme α) : Except (Fault α) Unit :=
  Kind.all.forM fun k =>
    match s.extents.find? k with
    | none => throw (.variablesMissing s.rule.schemeName k)
    | some extent => do
      s.checkBoundsShape k extent .lower
      s.checkBoundsShape k extent .upper

variable [Number α]

/-- The grid as a vector, if it has the declared size and increases strictly within `[0, 1]`. -/
def checkedGrid (s : Scheme α) : Except (Fault α) (Array α) :=
  match s.grid with
  | none => .error (.gridNotSet s.rule.schemeName)
  | some grid =>
    let points := grid.written
    if points.size ≠ s.gridPoints then .error (.gridSize points.size s.gridPoints)
    else if points.isEmpty then .error (.indexOutOfBounds 0 0 0)
    else if hasDescent points || Number.below (points.getD 0 default) Number.zero
        || Number.below Number.one (points.getD (points.size - 1) default) then
      .error .gridNotIncreasing
    else .ok points

/-! ## What the rule returns for each grid point -/

/-- A vector with one entry for each grid point. -/
def checkGridVector (s : Scheme α) (which : GridVector) (v : Array α) :
    Except (Fault α) (Array α) :=
  if v.size = s.gridPoints then .ok v
  else .error (.gridVectorSize s.rule.schemeName which v.size s.gridPoints)

/-- The weights whose sum with values at the grid points integrates over the unit interval. -/
def quadratureWeights (s : Scheme α) : Except (Fault α) (Array α) := do
  s.checkGridVector .quadrature (← s.rule.quadratureWeights s.gridPoints s.grid)

/-- The mask that is not zero where kinematic constraints hold. -/
def kinematicMask (s : Scheme α) : Except (Fault α) (Array α) := do
  s.checkGridVector .kinematic (← s.rule.kinematicMask s.gridPoints)

/-! ## Objective -/

/-- The weighted sum of the integrand over all grid points, times the duration, plus the costs
    at the two ends. An integral that is zero in any case is left out. -/
def costExpr (s : Scheme α) (p : Problem α) (weights : Array α) :
    Except (Fault α) (Expr Kind α) := do
  let integrand ← p.integrandFunction
  let values ← (List.range s.gridPoints).mapM fun (i : Nat) => s.callAt integrand i
  let total := Expr.product (.transpose (.const (.column weights)))
    (.stacked (values.map (·.expr)))
  let integral ← Sized.ofExpr (s.durationOf * total)
  let ends ← p.endpointCostFunction
  let cost ← ends.call (← s.endpointArguments)
  let sum ← Sized.ofExpr (integral.expr + cost.expr)
  if weights.all Number.isZero || values.all (·.expr.vanishes) then
    return (cost.spread sum.extent).expr
  return sum.expr

/-! ## The step -/

/-- Writes the time law. -/
def setTimes : Building α Unit := do
  let s ← get
  let initial ← attempt (s.wholeOf .initialTime)
  let final ← attempt (s.wholeOf .finalTime)
  let duration ← attempt (Sized.ofExpr (final.expr - initial.expr))
  set { s with duration := some duration }
  let grid ← attempt s.gridVector
  let times ← attempt (Sized.ofExpr (timesExpr grid initial.expr final.expr))
  modify fun s => { s with times := some times }

/-- Everything that comes before the constraints: fixes the grid, writes the time law and the
    objective, and keeps what the rule returns for each grid point. -/
def prepare (p : Problem α) : Building α Unit := do
  let s ← get
  if s.transcribed then throw (.alreadyTranscribed s.rule.schemeName)
  let points ← attempt s.checkedGrid
  set { s with grid := some (.vector points), gridLocked := true }
  attempt s.checkVariables
  setTimes
  let weights ← attempt (← get).quadratureWeights
  modify fun s => { s with weights := some weights }
  let mask ← attempt (← get).kinematicMask
  modify fun s => { s with mask := some mask }
  let objective ← attempt ((← get).costExpr p weights)
  modify fun s => { s with objective := objective }

/-- Builds the objective and the constraints of a constructed scheme, once. -/
def transcribe (p : Problem α) : Building α Unit := do
  prepare p
  applyRule p
  modify fun s => { s with transcribed := true }

/-! ## Values -/

/-- The values of the decision variables in decision vectors: a column, or several columns side
    by side. They are read like the arguments of a function of one column. -/
def environments (s : Scheme α) (x : Matrix α) : Except (Fault α) (List (Kind → Matrix α)) :=
  match x.fit? ⟨Layout.length s.extents, 1⟩ with
  | none => .error .expression
  | some columns => .ok (columns.map fun column =>
    let table := Layout.cut s.extents column.data
    fun k => (table.find? k).getD (.column #[]))

/-- Refuses expressions that depend on decision variables which the scheme has no longer. -/
def checkSymbols (s : Scheme α) (es : List (Expr Kind α)) : Except (Fault α) Unit :=
  if es.all fun e => e.symbols.all s.extents.contains then .ok () else .error .expression

/-- The value of an expression at decision vectors, one after the other. -/
def evaluate (s : Scheme α) (e : Expr Kind α) (x : Matrix α) : Except (Fault α) (Array α) := do
  s.checkSymbols [e]
  let envs ← s.environments x
  return (envs.flatMap fun env => (e.eval env).data.toList).toArray

/-- The equations of all blocks that have any. -/
def equations (s : Scheme α) : List (Expr Kind α) :=
  (s.blocks.filter fun b => b.size ≠ 0).map (·.equations)

/-- The values of all constraint equations at decision vectors, in order. -/
def evaluateConstraints (s : Scheme α) (x : Matrix α) : Except (Fault α) (Array α) := do
  s.checkSymbols s.equations
  let envs ← s.environments x
  return (envs.flatMap fun env => (s.constraintValues env).toList).toArray

/-- The decision variables in a decision vector, kind by kind. -/
def expand (s : Scheme α) (x : Array α) : Except (Fault α) (Table (Matrix α)) :=
  Layout.expand s.extents x

end Scheme
end Collocation
