import Collocation.Indexing
import Collocation.Literal.Numeric

/-! # Selectors

  Which rows or columns of a matrix are meant: one index, a slice, or a list of indices. An
  index counts from the end when it is negative. A slice keeps within the axis whatever its
  ends, which are whole numbers or left out; an index that lies outside is refused. -/

namespace Collocation

variable {α : Type}

/-- A choice of positions along an axis. -/
inductive Selector (α : Type) where
  | index (i : Int)
  | slice (start stop step : Literal α)
  /-- A list of indices, or whatever else a caller gives instead of one. -/
  | listed (l : Literal α)

/-- The positions that a selector means, and whether they form a vector. -/
structure Selection where
  positions : List Nat
  isVector : Bool

namespace Selector

/-- Every position. -/
def all : Selector α := .slice .null .null .null

/-- An end of a slice, counted from the end when negative, moved into `[low, high]`. -/
def clampEnd (size low high : Int) (i : Int) : Int :=
  let i := if i < 0 then i + size else i
  if i < low then low else if high < i then high else i

/-- The first position of a slice, the position before which it ends, and its step. -/
def sliceEnds (size : Nat) (start stop : Option Int) (step : Int) : Int × Int :=
  if 0 < step then
    ((start.map (clampEnd size 0 size)).getD 0, (stop.map (clampEnd size 0 size)).getD size)
  else
    ((start.map (clampEnd size (-1) (size - 1))).getD (size - 1),
     (stop.map (clampEnd size (-1) (size - 1))).getD (-1))

/-- The number of positions from `start` before `stop` in steps of `step`. -/
def sliceCount (start stop step : Int) : Nat :=
  if 0 < step then ((stop - start + step - 1) / step).toNat
  else ((start - stop - step - 1) / -step).toNat

/-- The positions of a slice along an axis. -/
def slicePositions (size : Nat) (start stop : Option Int) (step : Int) : List Nat :=
  let (first, last) := sliceEnds size start stop step
  (List.range (sliceCount first last step)).map fun (k : Nat) => (first + k * step).toNat

/-- A part of a slice as written. -/
def slicePart : Literal α → Except (Fault α) (Option Int)
  | .null => .ok none
  | .truth b => .ok (some (Scalar.truthInt b))
  | .whole n => .ok (some n)
  | _ => .error .sliceEndNotWhole

variable [Number α]

/-- The positions that a selector means along an axis of the given size. -/
def select (size : Nat) : Selector α → Except (Fault α) Selection
  | .index i => do return ⟨[← resolveIndex 0 size (← wrapIndex i)], true⟩
  | .slice start stop step => do
    let step := (← slicePart step).getD 1
    if step = 0 then throw .zeroSliceStep
    return ⟨slicePositions size (← slicePart start) (← slicePart stop) step, true⟩
  | .listed (.truth b) =>
    if size = 1 then .ok ⟨if b then [0] else [], true⟩ else .error (.maskMismatch 0 size 1)
  | .listed l => do
    let indices ← l.toTensorWith Literal.maxDimensions Literal.toIndex
    let positions ← indices.written.toList.mapM (resolveIndex 0 size)
    return ⟨positions, indices.shape.length = 1⟩

end Selector
end Collocation
