import Collocation.Rule
import Collocation.Selector

/-! # Schemes

  A scheme carries a problem to a nonlinear program: a grid, the decision variables with their
  bound tables, and, once it has been transcribed, the objective and the blocks of constraints.
  A scheme is built step by step, and a step that fails leaves what earlier steps did; so the
  operations are actions on a scheme that may end in a fault. -/

namespace Collocation

/-- The bounds of equations on one side. The vector may be one of the scheme's own arrays in written
    order: then its elements are looked up there, as whatever is written into the array is written
    into the vector. -/
structure BoundVector (α : Type) where
  /-- The elements as they were recorded. -/
  elements : Array α
  /-- The array of the scheme that the vector is, if it is one. -/
  array : Option BoundArray

instance {α : Type} : Coe (Array α) (BoundVector α) := ⟨fun elements => ⟨elements, none⟩⟩

/-- Equations between two bound vectors, one bound for each equation. -/
structure Block (α : Type) where
  lower : BoundVector α
  upper : BoundVector α
  equations : Expr Kind α
  size : Nat
  size_lower : lower.elements.size = size
  size_upper : upper.elements.size = size

/-- A problem on its way to a nonlinear program. -/
structure Scheme (α : Type) where
  rule : Rule α
  settings : Settings α
  gridPoints : Nat
  grid : Option (Tensor α)
  /-- The grid's elements cannot be written any more. -/
  gridLocked : Bool := false
  /-- The sizes of the decision variables. -/
  extents : Table Extent := {}
  lower : Table (Tensor α) := {}
  upper : Table (Tensor α) := {}
  /-- Bounds that were entered under keys of no kind. -/
  strayLower : Keyed α (Tensor α) := []
  strayUpper : Keyed α (Tensor α) := []
  /-- The absolute times at the grid points. -/
  times : Option (Sized Kind α) := none
  duration : Option (Sized Kind α) := none
  objective : Expr Kind α
  blocks : List (Block α) := []
  weights : Option (Array α) := none
  mask : Option (Array α) := none
  dynamics : Option (PointFunction α) := none
  quadratureError : Option (PointFunction α) := none
  transcribed : Bool := false

/-- Actions on a scheme. -/
abbrev Building (α β : Type) := EStateM (Fault α) (Scheme α) β

/-- A result that does not depend on the state. -/
def attempt {ε σ β : Type} (result : Except ε β) : EStateM ε σ β :=
  match result with
  | .ok v => return v
  | .error fault => throw fault

/-- The value of a kind, or the fault of its absence. -/
def Table.get {α β : Type} (t : Table β) (k : Kind) : Except (Fault α) β :=
  match t.find? k with
  | some v => .ok v
  | none => .error (.missingKind k)

namespace Scheme

variable {α : Type}

/-- A scheme before its variables are made. -/
def start [Number α] (rule : Rule α) (settings : Settings α) (gridPoints : Nat)
    (grid : Option (Tensor α)) : Scheme α where
  rule := rule
  settings := settings
  gridPoints := gridPoints
  grid := grid
  objective := .number Number.zero

/-- The sizes that the problem asks for. -/
def extentsFor (p : Problem α) (gridPoints : Nat) : Except (Fault α) (Table Extent) := do
  let gridPoints ← Problem.rowsOf (.whole gridPoints)
  let derivatives ← Problem.variableRowsOf p.derivativeCount
  let slacks ← Problem.variableRowsOf p.slackCount
  return .full fun
    | .initialTime | .finalTime => .unit
    | .states => ⟨p.states.length, gridPoints⟩
    | .controls => ⟨p.controls.length, gridPoints⟩
    | .multipliers => ⟨p.multipliers.length, gridPoints⟩
    | .derivatives => ⟨derivatives, gridPoints⟩
    | .slacks => ⟨slacks, gridPoints⟩
    | .parameters => ⟨p.parameters.length, 1⟩

/-- The number of constraint equations so far. -/
def equationCount (s : Scheme α) : Nat := s.blocks.foldr (fun b n => b.size + n) 0

/-- The size of a kind of decision variables. -/
def extentOf (s : Scheme α) (k : Kind) : Except (Fault α) Extent := s.extents.get k

/-- The table of one side. -/
def side (s : Scheme α) : Side → Table (Tensor α)
  | .lower => s.lower
  | .upper => s.upper

/-- An array of bounds, if the scheme has it. -/
def array? (s : Scheme α) (a : BoundArray) : Option (Tensor α) := (s.side a.side).find? a.kind

variable [Number α]

/-! ## Blocks -/

/-- The elements of a bound vector as they are now: those of the array that it is, or else those
    that were recorded. -/
def current (s : Scheme α) (v : BoundVector α) : Array α :=
  match v.array with
  | none => v.elements
  | some a =>
    match s.array? a with
    | some t => if t.written.size = v.elements.size then t.written else v.elements
    | none => v.elements

theorem current_of_own (s : Scheme α) {v : BoundVector α} (h : v.array = none) :
    s.current v = v.elements := by
  simp only [current, h]

/-- A vector that is an array of the scheme depends on this array only. -/
theorem current_eq {s t : Scheme α} {v : BoundVector α}
    (h : ∀ a, v.array = some a → t.array? a = s.array? a) : t.current v = s.current v := by
  unfold current
  split
  · rfl
  · next a ha => rw [h a ha]

theorem current_congr {s t : Scheme α} (h : t.side = s.side) : t.current = s.current := by
  funext v
  refine current_eq fun a _ => ?_
  simp only [array?, h]

@[simp] theorem size_current (s : Scheme α) (v : BoundVector α) :
    (s.current v).size = v.elements.size := by
  unfold current
  split
  · rfl
  · split
    · split
      · assumption
      · rfl
    · rfl

/-- The lower bounds of all blocks, in order. -/
def constraintLower (s : Scheme α) : Array α :=
  s.blocks.foldl (fun acc b => acc ++ s.current b.lower) #[]

/-- The upper bounds of all blocks, in order. -/
def constraintUpper (s : Scheme α) : Array α :=
  s.blocks.foldl (fun acc b => acc ++ s.current b.upper) #[]

/-- The values of all equations, in order. -/
def constraintValues (s : Scheme α) (env : Kind → Matrix α) : Array α :=
  s.blocks.foldl (fun acc b => acc ++ (b.equations.eval env).data) #[]

/-! ## Times -/

/-- The absolute times `initial + grid * (final - initial)`. -/
def timesBetween (grid : Array α) (initial final : α) : Array α :=
  grid.map fun g => initial + g * (final - initial)

/-- The grid as a vector. -/
def gridVector (s : Scheme α) : Except (Fault α) (Array α) :=
  match s.grid with
  | some grid => .ok grid.written
  | none => .error .gridMissing

/-- The absolute times for two numbers. -/
def createTimes (s : Scheme α) (initial final : α) : Except (Fault α) (Array α) := do
  return timesBetween (← s.gridVector) initial final

/-- The first number of a literal. -/
def firstNumber (l : Literal α) : Except (Fault α) α := do
  let v ← l.toVector
  if v.isEmpty then throw (.indexOutOfBounds 0 0 0)
  return v.getD 0 default

/-- The absolute times for two literals, of which the first numbers count. -/
def createTimesOf (s : Scheme α) (initial final : Literal α) : Except (Fault α) (Array α) := do
  let grid ← s.gridVector
  let initial ← firstNumber initial
  let final ← firstNumber final
  return timesBetween grid initial final

/-- The absolute times as an expression `(final - initial) * grid + initial`. A grid of one point
    at an end has the time of that end. -/
def timesExpr {σ : Type} (grid : Array α) (initial final : Expr σ α) : Expr σ α :=
  let only := fun (g : α) => grid.size = 1 && Number.equal (grid.getD 0 default) g
  if only Number.zero then initial
  else if only Number.one then final
  else (final - initial) * .const (.column grid) + initial

end Scheme
end Collocation
