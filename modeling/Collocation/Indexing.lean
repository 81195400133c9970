import Collocation.Literal.Numeric

/-! # Indexing

  Positions as callers give them: counted from the front, or from the end when negative. An
  index with fewer positions than dimensions stands for everything below it. What is written
  there may be smaller: along an axis of size one, and along the axes that it lacks in front, it
  is repeated. -/

namespace Collocation

variable {α : Type}

/-- An index of 64 bits without a sign counts as the signed one with the same bits. -/
def wrapIndex (i : Int) : Except (Fault α) Int :=
  if i < -0x8000000000000000 ∨ 0x10000000000000000 ≤ i then .error .notAnIndex
  else if 0x8000000000000000 ≤ i then .ok (i - 0x10000000000000000)
  else .ok i

/-- The position that an index of an axis means. -/
def resolveIndex (axis size : Nat) (i : Int) : Except (Fault α) Nat :=
  if 0 ≤ i ∧ i < size then .ok i.toNat
  else if i < 0 ∧ -(size : Int) ≤ i then .ok (i + size).toNat
  else .error (.indexOutOfBounds i axis size)

/-- The positions that an index means, one axis after the other. -/
def resolveIndices (axis : Nat) : List Nat → List Int → Except (Fault α) (List Nat)
  | n :: shape, i :: index => do
    let position ← resolveIndex axis n i
    return position :: (← resolveIndices (axis + 1) shape index)
  | _, _ => .ok []

/-- The positions along all axes of the element kept at place `p`. -/
def positionsAt : List Nat → Nat → List Nat
  | [], _ => []
  | n :: shape, p => p % n :: positionsAt shape (p / n)

namespace Tensor

/-- The positions that an index into the tensor means. -/
def resolve (t : Tensor α) (index : List Int) : Except (Fault α) (List Nat) := do
  let index ← index.mapM wrapIndex
  if index.length > t.shape.length then throw (.tooManyIndices t.shape.length index.length)
  resolveIndices 0 t.shape index

/-- Everything below the given positions. -/
def below [Inhabited α] (t : Tensor α) (positions : List Nat) : Tensor α :=
  .ofFn (t.shape.drop positions.length) fun p =>
    t.get (place t.shape (positions ++ positionsAt (t.shape.drop positions.length) p))

/-- A shape without the leading axes of size one that are too many. -/
def stripShape (dimensions : Nat) : List Nat → List Nat
  | 1 :: shape => if dimensions < shape.length + 1 then stripShape dimensions shape else 1 :: shape
  | shape => shape

/-- A shape fits into another one: axis by axis from the last, it has the same size or size one. -/
def fitsInto (shape target : List Nat) : Bool :=
  shape.length ≤ target.length
    && (List.zip shape (target.drop (target.length - shape.length))).all fun (n, m) =>
      n = m || n = 1

/-- The place in an array of a shape of what is written at positions along more axes. -/
def placeWithin (shape positions : List Nat) : Nat :=
  place shape (List.zipWith (fun n i => if n = 1 then 0 else i) shape
    (positions.drop (positions.length - shape.length)))

/-- The tensor with everything below the given positions replaced by an array that fits there. -/
def assign [Inhabited α] (t : Tensor α) (positions shape : List Nat) (v : Tensor α) : Tensor α :=
  .ofFn t.shape fun p =>
    let here := positionsAt t.shape p
    if here.take positions.length = positions then
      v.get (placeWithin shape (here.drop positions.length))
    else t.get p

/-- Writes a literal below an index: a single number into a single place, otherwise an array. -/
def write [Number α] (t : Tensor α) (index : List Int) (l : Literal α) :
    Except (Fault α) (Tensor α) := do
  let positions ← t.resolve index
  let target := t.shape.drop positions.length
  let value ← if target.isEmpty then Tensor.scalar <$> l.toPlace
    else l.toTensorWithin target.length
  let shape := stripShape target.length value.shape
  if fitsInto shape target then return t.assign positions shape value
  else throw (.inputNotBroadcastable shape target)

end Tensor
end Collocation
