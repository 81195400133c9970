import Collocation.Scheme

/-! # Constraint blocks

  How equations get into a scheme. Every block goes to the end of the list, with one lower and
  one upper bound for each equation; after the transcription nothing is added any more. Bounds
  that are handed over as an array of the scheme stay this array. The functions of a problem are
  called with the decision variables at one grid point, or with those at the two ends. -/

namespace Collocation

variable {α : Type}

namespace Scheme

/-- All decision variables of the kind with a name, if the scheme has any. -/
def symbolNamed? (s : Scheme α) (name : String) : Option (Sized Kind α) := do
  let k ← Kind.ofName? name
  return .symbol k (← s.extents.find? k)

/-- A user's expression over the names of the kinds. -/
def buildBody [Number α] (s : Scheme α) (body : Body α) : Except (Fault α) (Sized Kind α) :=
  body.build s.symbolNamed?

/-! ## Appending -/

/-- Refuses changes after the transcription. -/
def checkMutable : Building α Unit := do
  if (← get).transcribed then throw .frozen

variable [Number α]

/-- Appends `lower ≤ equations ≤ upper`, the equations column by column. -/
def append (lower upper : BoundVector α) (equations : Sized Kind α) : Building α Unit := do
  checkMutable
  if h : lower.elements.size = equations.extent.size ∧
      upper.elements.size = equations.extent.size then
    modify fun s =>
      { s with
        blocks := s.blocks ++
          [⟨lower, upper, equations.vec.expr, equations.extent.size, h.1, h.2⟩] }
  else
    throw (.constraintLengths lower.elements.size upper.elements.size equations.extent.size)

/-- Appends `equations = 0`, with as many zeros as said. -/
def appendZero (count : Nat) (equations : Expr Kind α) : Building α Unit := do
  let zeros : Array α := Array.replicate count Number.zero
  append zeros zeros (← attempt (Sized.ofExpr equations))

/-- Bounds as they are handed over: an array of the scheme has to be there. -/
def handOver (s : Scheme α) : BoundSource α → Except (Fault α) (Literal α)
  | .written l => .ok l
  | .array a => do return .array (← (s.side a.side).get a.kind)

omit [Number α] in
theorem handOver_congr {s t : Scheme α} (h : t.side = s.side) : t.handOver = s.handOver := by
  funext source
  cases source <;> simp only [handOver, h]

/-- Appends a user's equations between bounds as written or between arrays of the scheme. -/
def appendBody (lower upper : BoundSource α) (body : Body α) : Building α Unit := do
  let s ← get
  let low ← attempt (s.handOver lower)
  let high ← attempt (s.handOver upper)
  let equations ← attempt (s.buildBody body)
  checkMutable
  append ⟨← attempt low.toVector, lower.array?⟩ ⟨← attempt high.toVector, upper.array?⟩ equations

/-- Gives the scheme a user's expression as objective. -/
def replaceObjective (body : Body α) : Building α Unit := do
  let s ← get
  let objective ← attempt (s.buildBody body)
  checkMutable
  set { s with objective := objective.expr }

/-! ## Arguments -/

/-- A grid index, or the reason why what was written is none. -/
abbrev GridIndex (α : Type) := Except (Fault α) Int

/-- A grid index as written. One that needs more than 64 bits is no index of an expression. -/
def readGridIndex (l : Literal α) : GridIndex α :=
  match l.toIndex with
  | .error .indexTooLarge => .error .unsupported
  | result => result

/-- A column of a kind. -/
def columnOf (s : Scheme α) (k : Kind) (j : Int) : Except (Fault α) (Sized Kind α) := do
  let extent ← s.extentOf k
  match position? extent.cols j with
  | some j => return ⟨.column extent.rows j (.symbol k extent), ⟨extent.rows, 1⟩⟩
  | none => throw .expression

/-- All of a kind. -/
def wholeOf (s : Scheme α) (k : Kind) : Except (Fault α) (Sized Kind α) := do
  return .symbol k (← s.extentOf k)

/-- The absolute time at a grid index. -/
def timeAt (s : Scheme α) (i : Int) : Except (Fault α) (Sized Kind α) :=
  match s.times with
  | none => .error .subscriptOfNothing
  | some times =>
    match position? times.extent.size i with
    | some i => .ok ⟨.slice .unit i times.expr, .unit⟩
    | none => .error .expression

/-- The arguments of a function at one grid point. -/
def pointArguments (s : Scheme α) (i : Int) : Except (Fault α) (PointInput → Sized Kind α) := do
  let time ← s.timeAt i
  let states ← s.columnOf .states i
  let controls ← s.columnOf .controls i
  let multipliers ← s.columnOf .multipliers i
  let derivatives ← s.columnOf .derivatives i
  let slacks ← s.columnOf .slacks i
  let parameters ← s.wholeOf .parameters
  return fun
    | .time => time
    | .states => states
    | .controls => controls
    | .multipliers => multipliers
    | .derivatives => derivatives
    | .slacks => slacks
    | .parameters => parameters

/-- The arguments of a function of the two ends. -/
def endpointArguments (s : Scheme α) : Except (Fault α) (EndpointInput → Sized Kind α) := do
  let _ ← s.extentOf .states
  let initialTime ← s.wholeOf .initialTime
  let initialStates ← s.columnOf .states 0
  let finalTime ← s.wholeOf .finalTime
  let finalStates ← s.columnOf .states (-1)
  let parameters ← s.wholeOf .parameters
  return fun
    | .initialTime => initialTime
    | .initialStates => initialStates
    | .finalTime => finalTime
    | .finalStates => finalStates
    | .parameters => parameters

/-- The value of a function at one grid point. -/
def callAt (s : Scheme α) (f : PointFunction α) (i : Int) : Except (Fault α) (Sized Kind α) := do
  f.call (← s.pointArguments i)

/-! ## Dynamics -/

/-- The problem's dynamics, built once for the scheme. -/
def dynamicsOf (p : Problem α) : Building α (PointFunction α) := do
  match (← get).dynamics with
  | some f => return f
  | none =>
    let f ← attempt p.dynamicsFunction
    modify fun s => { s with dynamics := some f }
    return f

/-- The problem's quadrature error, built once for the scheme. -/
def quadratureErrorOf (p : Problem α) : Building α (PointFunction α) := do
  match (← get).quadratureError with
  | some f => return f
  | none =>
    match ← attempt p.quadratureErrorFunction with
    | none => throw .quadratureErrorUndeclared
    | some f =>
      modify fun s => { s with quadratureError := some f }
      return f

/-- The derivatives of the states at a grid point. -/
def derivativesAt (p : Problem α) (i : Int) : Building α (Sized Kind α) := do
  let f ← dynamicsOf p
  attempt ((← get).callAt f i)

/-- The quadrature error at a grid point, of as many channels as said or as the problem
    declares. -/
def quadratureErrorAt (p : Problem α) (i : Int) (channels : Literal α) :
    Building α (Sized Kind α) := do
  let arguments ← attempt ((← get).pointArguments i)
  let f ← quadratureErrorOf p
  let expected := match channels with
    | .null => p.quadratureErrorCount
    | l => l
  let error ← attempt (f.call arguments)
  if expected.isNat error.extent.size then return error
  else throw (.quadratureErrorSize expected error.extent.size)

/-- The derivatives and, if asked for, the quadrature error at a grid point as written. -/
def differentialEquations (p : Problem α) (index channels : Literal α) (withError : Bool) :
    Building α (Sized Kind α × Sized Kind α) := do
  let _ ← dynamicsOf p
  let i ← attempt (readGridIndex index)
  let derivatives ← derivativesAt p i
  if withError then return (derivatives, ← quadratureErrorAt p i channels)
  else return (derivatives, ⟨.const (.column #[]), ⟨0, 1⟩⟩)

/-! ## Families of constraints -/

/-- Grid indices, or the reason why what was written is no list of them. -/
abbrev GridIndices (α : Type) := Except (Fault α) (List (GridIndex α))

/-- Grid indices as written. -/
def readGridIndices (l : Literal α) : GridIndices α :=
  match l.parts? with
  | some parts => .ok (parts.map readGridIndex)
  | none => .error (.notIterable l.typeName)

/-- Appends one constraint at every one of the grid indices, which are looked at when the
    constraint is known to be in order. -/
def appendConstraint (p : Problem α) (c : Constraint α) (indices : GridIndices α) :
    Building α Unit := do
  let f ← attempt (p.pointConstraintFunction c)
  let (lower, upper) ← attempt (c.boundVectors f.extent.rows)
  (← attempt indices).forM fun index => do
    let i ← attempt index
    append lower upper (← attempt ((← get).callAt f i))

/-- Appends every constraint of a family at every one of the grid indices. -/
def appendFamily (p : Problem α) (family : ConstraintFamily) (indices : GridIndices α) :
    Building α Unit :=
  (p.constraints family).forM fun c => appendConstraint p c indices

/-- The grid indices that pass a test, in order. -/
def gridIndices (count : Nat) (test : Nat → Bool) : GridIndices α :=
  .ok (((List.range count).filter test).map fun (i : Nat) => .ok (i : Int))

/-- Appends the path constraints at the given grid indices, or at all if nothing is given. -/
def appendPath (p : Problem α) (indices : Literal α) : Building α Unit := do
  let s ← get
  appendFamily p .path
    (match indices with
    | .null => gridIndices s.gridPoints fun _ => true
    | indices => readGridIndices indices)

/-- Appends the kinematic constraints where the scheme's mask is not zero. -/
def appendKinematic (p : Problem α) : Building α Unit := do
  let mask := (← get).mask.getD #[]
  appendFamily p .kinematic
    (gridIndices mask.size fun i => !Number.isZero (mask.getD i default))

/-- Appends the endpoint constraints. -/
def appendEndpoint (p : Problem α) : Building α Unit :=
  p.endpointConstraints.forM fun c => do
    let f ← attempt (p.endpointConstraintFunction c)
    let (lower, upper) ← attempt (c.boundVectors f.extent.rows)
    let arguments ← attempt (← get).endpointArguments
    append lower upper (← attempt (f.call arguments))

end Scheme
end Collocation
