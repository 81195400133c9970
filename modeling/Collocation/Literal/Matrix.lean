import Collocation.Literal.Numeric
import Collocation.Matrix

/-! # Matrices from literals

  How literals are read where matrices of expressions are needed. Only numbers count, no texts,
  and an array of one element counts as a number. Where a matrix is asked for, lists may nest two
  deep: either all items are rows, or each is a single number, in a list of its own or not. Where
  a number is expected and a matrix will do, a list is flat. Arrays have at most two
  dimensions. -/

namespace Collocation.Literal

variable {α : Type} [Number α]

/-- A number that needs no conversion. -/
def bareNumber? : Literal α → Option α
  | .truth b => some (Number.ofInt (Scalar.truthInt b))
  | .whole n => (realOfInt n).toOption
  | .real x => some x
  | _ => none

/-- A single number, or an array of one. -/
def single? : Literal α → Option α
  | .array t => if t.shape.length ≤ 2 ∧ t.size = 1 then some (t.get 0) else none
  | l => l.bareNumber?

/-- A single number, alone or in a list. -/
def listedSingle? : Literal α → Option α
  | .list [l] => l.single?
  | l => l.single?

/-- A list of numbers as a column; the empty list has no rows and no columns. -/
def columnOf (xs : List α) : Matrix α :=
  if xs.isEmpty then .ofColumnMajor ⟨0, 0⟩ fun _ => Number.zero else .column xs.toArray

/-- A number, a flat list of numbers, or an array of at most two dimensions. -/
def flatMatrix? : Literal α → Option (Matrix α)
  | .list items => (items.mapM single?).map columnOf
  | .array t => Matrix.ofTensor? t
  | l => l.bareNumber?.map .unit

/-- A row of a matrix: a list of numbers, or an array of one dimension. -/
def row? : Literal α → Option (List α)
  | .list items => items.mapM single?
  | .array t => if t.shape.length = 1 then some t.written.toList else none
  | _ => none

/-- The matrix with the given rows, which must have one length. -/
def ofRows (rows : List (List α)) : Except (Fault α) (Matrix α) :=
  let cols := (rows.headD []).length
  if rows.all fun row => row.length = cols then
    .ok (.ofFn ⟨rows.length, cols⟩ fun i j => (rows.getD i []).getD j default)
  else .error .expression

/-- A number, a list of numbers or of rows, or an array of at most two dimensions. -/
def toMatrix (l : Literal α) : Except (Fault α) (Matrix α) :=
  match l.flatMatrix? with
  | some m => .ok m
  | none =>
    match l with
    | .list items =>
      match items.mapM listedSingle?, items.mapM row? with
      | some xs, _ => .ok (columnOf xs)
      | none, some rows => ofRows rows
      | none, none => .error .unsupported
    | _ => .error .unsupported

end Collocation.Literal
