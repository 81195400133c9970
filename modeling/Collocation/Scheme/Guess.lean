import Collocation.Scheme
import Collocation.Stretch

/-! # Guesses from bounds

  Two iterates that a scheme's bound tables suggest: one in the middle of the bounds, and one
  drawn at random between them. An infinite or undefined bound does not count as a bound. The
  random draw replaces it with the help of the configured range, so that draws are always made
  between finite ends. -/

namespace Collocation

variable {α : Type}

/-! ## Bounds side by side -/

/-- A mask may choose from a tensor of its own shape only; along an axis where it has no element
    it chooses nothing from any. -/
def checkMask (shape mask : List Nat) : Except (Fault α) Unit :=
  if shape.length < mask.length then .error (.tooManyIndices shape.length mask.length)
  else
    match (List.zip shape mask).findIdx? fun (n, m) => 0 < m ∧ n ≠ m with
    | some axis => .error (.maskMismatch axis (shape.getD axis 0) (mask.getD axis 0))
    | none => .ok ()

/-- The common shape of two bounds. It is the shape of both, or there is no element in it. -/
def commonShape (lower upper : Tensor α) : Except (Fault α) (List Nat) :=
  match stretch? lower.shape upper.shape with
  | none => .error (.shapesNotBroadcastable [lower.shape, upper.shape])
  | some mask => do
    checkMask lower.shape mask
    checkMask upper.shape mask
    return mask

variable [Number α]

/-! ## Masks -/

/-- The tensor with new values at the places that a mask chooses. -/
def Tensor.writeWhere (t : Tensor α) (mask : Tensor Bool) (value : Nat → α) : Tensor α :=
  .ofFn t.shape fun place => if mask.get place then value place else t.get place

/-- The places of bounds, sorted by which of the two are finite. -/
structure FiniteMasks where
  both : Tensor Bool
  onlyLower : Tensor Bool
  onlyUpper : Tensor Bool
  neither : Tensor Bool

/-- The masks of two bounds in their common shape. -/
def finiteMasks (shape : List Nat) (lower upper : Tensor α) : FiniteMasks :=
  let lowerFinite := lower.map Number.isFinite
  let upperFinite := upper.map Number.isFinite
  let mask := fun (choose : Bool → Bool → Bool) =>
    Tensor.ofFn shape fun place => choose (lowerFinite.get place) (upperFinite.get place)
  { both := mask fun low high => low && high
    onlyLower := mask fun low high => low && !high
    onlyUpper := mask fun low high => high && !low
    neither := mask fun low high => !low && !high }

/-- The middle of the bounds where both are finite, the finite one where one is, and zero where none
    is. -/
def middleValues (shape : List Nat) (lower upper : Tensor α) : Tensor α :=
  let masks := finiteMasks shape lower upper
  let value := Tensor.fill lower.shape Number.zero
  let value := value.writeWhere masks.both fun place =>
    Number.half * (lower.get place + upper.get place)
  let value := value.writeWhere masks.onlyLower lower.get
  value.writeWhere masks.onlyUpper upper.get

/-- The ends between which values with the given bounds are drawn: the range takes the place of
    bounds where none is finite, and its width leads from a single finite one to the other end. -/
def drawSides (range : α × α) (shape : List Nat) (lower upper : Tensor α) : Tensor α × Tensor α :=
  let masks := finiteMasks shape lower upper
  let width := range.2 - range.1
  let lower := lower.writeWhere masks.neither fun _ => range.1
  let upper := upper.writeWhere masks.neither fun _ => range.2
  let upper := upper.writeWhere masks.onlyLower fun place => lower.get place + width
  let lower := lower.writeWhere masks.onlyUpper fun place => upper.get place - width
  (lower, upper)

namespace Scheme

/-- The lower and the upper bounds of a kind, and their common shape. -/
def sides (s : Scheme α) (k : Kind) : Except (Fault α) (Tensor α × Tensor α × List Nat) := do
  let lower ← s.lower.get k
  let upper ← s.upper.get k
  return (lower, upper, ← commonShape lower upper)

/-- The first element of a kind's value. -/
def firstElement (t : Tensor α) : Except (Fault α) α :=
  if t.size = 0 then .error (.indexOutOfBounds 0 0 0) else .ok (t.get 0)

/-- The scheme's grid between the end times that are among the values. -/
def timesOf (s : Scheme α) (values : Table (Tensor α)) : Except (Fault α) (Array α) := do
  let initial ← values.get .initialTime
  let final ← values.get .finalTime
  let grid ← s.gridVector
  return timesBetween grid (← firstElement initial) (← firstElement final)

/-- The iterate with the given values, on the scheme's grid between its own end times. -/
def iterateOf (s : Scheme α) (p : Problem α) (values : Table (Tensor α)) :
    Except (Fault α) (Trajectory α) := do
  return .iterate (Keyed.ofTable values) (.vector (← s.timesOf values)) p.names

/-- The iterate in the middle of the bounds. -/
def guessFromBounds (s : Scheme α) (p : Problem α) : Except (Fault α) (Trajectory α) := do
  let values ← s.extents.mapExcept fun k _ => do
    let (lower, upper, shape) ← s.sides k
    return middleValues shape lower upper
  s.iterateOf p values

/-- Draws the values of the given kinds. Draw number `n` between two ends is `uniform n`; the
    elements of a kind are drawn in written order, the first of them with number `drawn`. -/
def drawValues (s : Scheme α) (uniform : Nat → α → α → α) :
    Nat → List Kind → Except (Fault α) (List (Kind × Tensor α))
  | _, [] => .ok []
  | drawn, k :: kinds => do
    let (lower, upper, shape) ← s.sides k
    let (low, high) := drawSides s.settings.unboundedRange shape lower upper
    let value := Tensor.ofFn shape fun place =>
      uniform (drawn + rank shape place) (low.get place) (high.get place)
    return (k, value) :: (← s.drawValues uniform (drawn + value.size) kinds)

/-- An iterate drawn between the bounds. -/
def randomWithinBounds (s : Scheme α) (p : Problem α) (uniform : Nat → α → α → α) :
    Except (Fault α) (Trajectory α) := do
  let values ← s.drawValues uniform 0 (s.extents.toList.map (·.1))
  s.iterateOf p (.ofList values)

end Scheme
end Collocation
