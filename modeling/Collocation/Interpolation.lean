import Collocation.Mesh

/-! # Interpolation

  Piecewise linear interpolation through knots, and its use to carry the rows of a matrix from
  one vector of times to another. Between two knots the value lies on the line through them,
  outside of all knots it is the nearest end value, and at a knot it is the knot's value.

  Times that do not increase strictly give no abscissae. Then the rows are interpolated over
  their position in the row, and the new times only say how the new positions are spaced. -/

namespace Collocation

variable {α : Type} [Number α]

/-! ## One row -/

/-- The number of knots, from the front, that lie at or below `x`. -/
def knotsUpTo (knots : Array α) (x : α) : Nat :=
  (knots.toList.takeWhile fun knot => Number.atMost knot x).length

/-- The line through knots `j` and `j + 1` at `x`. It is taken from the left knot; where that is
    undefined, from the right one, and where that is undefined too, a level line is level. -/
def lineAt (knots values : Array α) (j : Nat) (x : α) : α :=
  let left := knots.getD j default
  let right := knots.getD (j + 1) default
  let start := values.getD j default
  let stop := values.getD (j + 1) default
  let slope := (stop - start) / (right - left)
  let fromLeft := slope * (x - left) + start
  if !Number.isUndefined fromLeft then fromLeft
  else
    let fromRight := slope * (x - right) + stop
    if Number.isUndefined fromRight && Number.equal start stop then start else fromRight

/-- The value at `x` of the piecewise linear function through the knots. -/
def interpolate (knots values : Array α) (x : α) : α :=
  if Number.isUndefined x then x
  else
    let count := knotsUpTo knots x
    if count = 0 then values.getD 0 default
    else if count = knots.size then values.getD (count - 1) default
    else if Number.equal (knots.getD (count - 1) default) x then values.getD (count - 1) default
    else lineAt knots values (count - 1) x

/-! ## All rows -/

/-- Abscissae of the old columns and of the new ones. -/
structure Abscissae (α : Type) where
  old : Array α
  new : Array α

/-- The times themselves where the old ones increase strictly; otherwise positions from zero to
    one, spaced like the new times if these advance. -/
def abscissae (oldTimes newTimes : Array α) : Except (Fault α) (Abscissae α) :=
  if (differences oldTimes).all fun d => Number.below Number.zero d then .ok ⟨oldTimes, newTimes⟩
  else if newTimes.isEmpty then .error (.indexOutOfBounds (-1) 0 0)
  else
    let first := newTimes.getD 0 default
    let span := newTimes.getD (newTimes.size - 1) default - first
    .ok ⟨evenPoints oldTimes.size,
      if Number.below Number.zero span then newTimes.map fun t => (t - first) / span
      else evenPoints newTimes.size⟩

/-- Row `i` of a matrix that is kept column by column. -/
def rowOf (rows cols i : Nat) (t : Tensor α) : Array α :=
  Array.ofFn fun j : Fin cols => t.get (i + rows * j.val)

/-- A single column repeated `n` times. -/
def repeatColumn (n : Nat) (t : Tensor α) : Tensor α :=
  let rows := t.shape.getD 0 1
  .ofFn (rows :: n :: t.shape.drop 2) fun p => t.get (p % rows + rows * (p / (rows * n)))

/-- The matrix with every row carried from the old times to the new ones. -/
def resampleRows (oldTimes newTimes : Array α) (t : Tensor α) : Except (Fault α) (Tensor α) := do
  let rows := t.shape.getD 0 1
  let cols := t.shape.getD 1 1
  if cols ≠ oldTimes.size then throw (.columnCount oldTimes.size cols)
  let extent := [rows, newTimes.size]
  if rows = 0 then return .fill extent Number.zero
  if oldTimes.size = 1 then return repeatColumn newTimes.size t
  let points ← abscissae oldTimes newTimes
  if t.shape.length > 2 then throw .tooDeep
  if oldTimes.isEmpty then throw .noSamples
  let values := Array.ofFn fun i : Fin rows => rowOf rows cols i.val t
  return .ofFn extent fun p =>
    interpolate points.old (values.getD (p % rows) #[]) (points.new.getD (p / rows) default)

end Collocation
