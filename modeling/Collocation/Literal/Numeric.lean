import Collocation.Fault

/-! # Numbers and arrays from literals

  How literals are read where numbers are needed. Truth values count as one and zero, nothing
  as the undefined number, and texts are read as numerals. Lists are arrays when they nest
  regularly: the shape is what all items of a list agree on, and a list that still stands where
  the shape asks for a number makes the literal ragged. An array inside of a list counts as the
  lists that it is made of. No array has more than `maxDimensions` dimensions, and where an array
  is written into another one, its lists nest no deeper than the place has dimensions. -/

namespace Collocation

variable {α : Type}

/-! ## Single numbers -/

/-- An integer as a number, unless it is out of range. -/
def realOfInt [Number α] (n : Int) : Except (Fault α) α :=
  let x : α := Number.ofInt n
  if Number.isFinite x then .ok x else .error .integerTooLarge

/-- The number of elements from which on an array is not stored. It stands for the memory of a
    machine, as the limit on the rows of a symbol does. -/
def storageLimit : Nat := 0x200000000

/-- Refuses an array that is too large to be addressed or stored. -/
def checkStored (elements : Nat) : Except (Fault α) Unit :=
  if 0x1000000000000000 ≤ elements then .error .arrayTooBig
  else if storageLimit ≤ elements then .error (.arrayNotStored elements)
  else .ok ()

/-- An integer has at most 64 bits. -/
def fitsIndex (n : Int) : Bool := -0x8000000000000000 ≤ n && n < 0x8000000000000000

namespace Literal

/-- A real number where only real numbers are allowed. -/
def toNumber [Number α] : Literal α → Except (Fault α) α
  | .truth b => .ok (Number.ofInt (Scalar.truthInt b))
  | .whole n => realOfInt n
  | .real x => .ok x
  | .array _ => .error .arrayAsNumber
  | l => .error (.realNumberExpected l.typeName)

/-- A number as an element of an array. -/
def toElement [Number α] : Literal α → Except (Fault α) α
  | .null => .ok Number.undefined
  | .truth b => .ok (Number.ofInt (Scalar.truthInt b))
  | .whole n => realOfInt n
  | .real x => .ok x
  | .text s =>
    match Text.readReal? s with
    | some numeral => .ok numeral.value
    | none => .error (.unreadableReal s)
  | l => .error (.convertibleRealExpected l.typeName)

/-- An integer that serves as an index, which has 64 bits. -/
def indexOfInt (n : Int) : Except (Fault α) Int :=
  if fitsIndex n then .ok n else .error .indexTooLarge

/-- An index as an element of a list of indices: reals lose their fraction. -/
def toIndex [Number α] : Literal α → Except (Fault α) Int
  | .truth b => .ok (Scalar.truthInt b)
  | .whole n => indexOfInt n
  | .real x =>
    match Number.truncate? x with
    | some n => indexOfInt n
    | none => if Number.isUndefined x then .error .undefinedAsWhole else .error .infiniteAsWhole
  | .text s =>
    match Text.readWhole s with
    | .ok n => indexOfInt n
    | .error .malformed => .error (.unreadableWhole s)
    | .error (.tooLong digits) => .error (.tooManyDigits digits)
  | l => .error (.convertibleWholeExpected l.typeName)

/-! ## Nested lists -/

/-- The sizes on which two shapes agree from the front. -/
def commonShape : List Nat → List Nat → List Nat
  | m :: s, n :: t => if m = n then m :: commonShape s t else []
  | _, _ => []

mutual

/-- The shape on which all parts of a literal agree. -/
def nestedShape : Literal α → List Nat
  | .list [] => [0]
  | .list (item :: items) => (items.length + 1) :: agreedShape item.nestedShape items
  | .array t => t.shape
  | _ => []

/-- The part of a shape on which further items agree. -/
def agreedShape (shape : List Nat) : List (Literal α) → List Nat
  | [] => shape
  | item :: items => agreedShape (commonShape shape item.nestedShape) items

end

/-- The largest number of dimensions of an array. -/
def maxDimensions : Nat := 64

/-- The literals `depth` lists deep, in written order. -/
def leaves [Inhabited α] : Nat → Literal α → List (Literal α)
  | depth + 1, .list items => items.flatMap (leaves depth)
  | depth, .array t => if t.shape.length = depth then t.written.toList.map .real else [.array t]
  | _, l => [l]

/-- The literal is made of items. -/
def isSequence : Literal α → Bool
  | .list _ => true
  | .array t => !t.shape.isEmpty
  | _ => false

/-- Reads an array of at most `limit` dimensions whose elements are read by `read`. -/
def toTensorWith [Inhabited α] {β : Type} [Inhabited β] (limit : Nat)
    (read : Literal α → Except (Fault α) β) (l : Literal α) : Except (Fault α) (Tensor β) :=
  let shape := l.nestedShape.take limit
  let items := l.leaves shape.length
  if items.any isSequence then
    .error (if shape.length = limit then .tooManyDimensions limit else .ragged shape)
  else do
    let elements ← items.mapM read
    return .ofWritten shape elements.toArray

/-- A number written into a single place of an array. -/
def toPlace [Number α] (l : Literal α) : Except (Fault α) α :=
  if l.isSequence then .error .sequenceAsElement else l.unwrapped.toElement

/-- Reads an array of numbers whose lists nest at most `limit` deep; a ready array is taken as it
    is. -/
def toTensorWithin [Number α] (limit : Nat) : Literal α → Except (Fault α) (Tensor α)
  | .array t => .ok t
  | l => l.toTensorWith limit toElement

/-- Reads an array of numbers. -/
def toTensor [Number α] : Literal α → Except (Fault α) (Tensor α) := toTensorWithin maxDimensions

/-- Reads an array of numbers and lists its elements in written order. -/
def toVector [Number α] (l : Literal α) : Except (Fault α) (Array α) :=
  (·.written) <$> l.toTensor

end Literal
end Collocation
