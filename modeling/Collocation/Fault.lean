import Collocation.Kind
import Collocation.Literal
import Collocation.Text.ByteCount

/-! # Faults

  Every reason for which an operation is refused, with what its message says. A fault is a
  cause; `message` is its wording and `category` the sort of mistake it is. Faults of symbolic
  expressions and of settings carry no wording of their own. -/

namespace Collocation

/-- The sorts of mistakes. -/
inductive Fault.Category where
  /-- An argument has a value that does not fit. -/
  | value
  /-- An argument has a type that does not fit. -/
  | type
  /-- An integer is too large. -/
  | overflow
  /-- An array is too large to be stored. -/
  | memory
  /-- A position lies outside of what is indexed. -/
  | index
  /-- A key or a name is unknown. -/
  | key
  /-- A precondition of the engine is broken. -/
  | contract
  /-- The backend could not be run. -/
  | solve
  /-- Some lower bound exceeds its upper bound. -/
  | infeasible
  /-- A field of a solution cannot be assigned. -/
  | frozen
  /-- An object lacks the operation. -/
  | attribute
  /-- Sizes in an expression do not fit. -/
  | expression
  /-- Something that is no expression stands where one is needed. -/
  | unsupported
  /-- Settings were refused, field by field. -/
  | settings
  deriving Repr, DecidableEq

/-- What is wrong with one field of the settings. -/
inductive FieldFault where
  | textExpected
  | textTooShort
  | recordExpected
  | pairExpected
  | missing
  | tooLong
  | numberExpected
  | unreadableNumber
  | badRange
  deriving Repr, DecidableEq

/-- The lower or the upper one of a pair of bounds. -/
inductive Side where
  | lower
  | upper
  deriving Repr, DecidableEq

def Side.name : Side → String
  | .lower => "lower"
  | .upper => "upper"

/-- A vector that a rule returns with one entry for each grid point. -/
inductive GridVector where
  | quadrature
  | kinematic
  deriving Repr, DecidableEq

def GridVector.name : GridVector → String
  | .quadrature => "quadrature coefficients"
  | .kinematic => "kinematic constraint indices"

/-- The part of the decision problem whose bounds are checked. -/
inductive BoundedPart where
  | variable
  | constraint
  deriving Repr, DecidableEq

def BoundedPart.name : BoundedPart → String
  | .variable => "variable"
  | .constraint => "constraint"

/-- A reason for refusing an operation. -/
inductive Fault (α : Type) where
  -- reading numbers
  | realNumberExpected (typeName : String)
  | convertibleRealExpected (typeName : String)
  | convertibleWholeExpected (typeName : String)
  | integerTooLarge
  | indexTooLarge
  | unreadableReal (s : String)
  | unreadableWhole (s : String)
  | tooManyDigits (digits : Nat)
  | undefinedAsWhole
  | infiniteAsWhole
  | arrayAsNumber
  | sequenceAsElement
  | ragged (shape : List Nat)
  | tooManyDimensions (limit : Nat)
  | unordered (typeName : String)
  | textExpected (typeName : String)
  -- keys and names
  | unhashable (typeName : String)
  | invalidKey (key : Literal α)
  | missingKey (key : Literal α)
  | missingKind (kind : Kind)
  | unknownName (name : String)
  | nameNotListed (name : String)
  | nameNotInSolution
  -- bounds, meshes, grids
  | tooManyBounds (count : Nat)
  | repeatedBound (side : Side)
  | unknownBound (name : String)
  | upperWithoutLower
  | undefinedBound
  | crossedBounds (lower upper : Scalar α)
  | tooFewMeshPoints (shown : String)
  | meshNotIncreasing
  | meshTooLong
  | arrayTooBig
  | dimensionTooLarge
  | gridMissing
  | gridNotSet (scheme : String)
  | gridSize (found declared : Nat)
  | gridNotIncreasing
  | variablesMissing (scheme : String) (kind : Kind)
  | boundsShape (side : Side) (kind : Kind) (shape : List Nat)
  | gridVectorSize (scheme : String) (vector : GridVector) (found expected : Nat)
  -- logging
  | unknownLevel (name : String)
  -- settings
  | settings (fields : List (List String × FieldFault))
  -- indexing
  | indexOutOfBounds (index : Int) (axis size : Nat)
  | listIndexOutOfRange
  | tooManyIndices (dimensions indices : Nat)
  | tooFewDimensions
  | maskMismatch (axis size maskSize : Nat)
  | crossIndexDimension
  | zeroSliceStep
  | sliceEndNotWhole
  | notAnIndex
  | subscriptOfNothing
  -- problems
  | duplicateName (name : String)
  | negativeDerivatives
  | negativeSlacks
  | countNotWhole
  | notIterable (typeName : String)
  | noDynamics (problem : String)
  | dynamicsSize (found expected : Nat)
  | constraintBoundsSize (name : String) (size : Int)
  | constraintBoundsCrossed (name : String)
  -- expressions
  | expression
  | unsupported
  | sequenceAsWeight
  | notAWeight (typeName : String)
  -- vectors and trajectories
  | vectorLength (found expected : Nat)
  | shapesNotBroadcastable (shapes : List (List Nat))
  | outputNotBroadcastable (shape broadcast : List Nat)
  | inputNotBroadcastable (shape target : List Nat)
  | negativeShape
  | arrayNotStored (elements : Nat)
  | noAxisToDiffer
  | columnCount (expected found : Nat)
  | noSamples
  | tooDeep
  | readOnly
  | solutionAssignment
  | solutionDeletion
  | solutionEntryDeletion
  | unfitIndex
  | solutionField (field : String)
  | solutionAppend
  | solutionCopy
  | iterateSuccess
  | iterateStats
  | noMesh (scheme : String)
  | noElements
  | guessMissing (kind : Kind)
  | guessShape (kind : Kind) (found expected : List Nat)
  -- transcription and solving
  | frozen
  | alreadyTranscribed (scheme : String)
  | constraintLengths (lower upper equations : Nat)
  | quadratureErrorUndeclared
  | quadratureErrorSize (expected : Literal α) (found : Nat)
  | notTranscribed
  | infeasible (part : BoundedPart) (index : Nat) (lower upper : α)
  | backend (solver text : String)
  | backendValue (text : String)

namespace Fault

variable {α : Type}

/-- The sort of mistake behind a fault. -/
def category : Fault α → Category
  | realNumberExpected _ | convertibleRealExpected _ | convertibleWholeExpected _ | unordered _
  | unhashable _ | tooManyBounds _ | repeatedBound _ | unknownBound _ | subscriptOfNothing
  | arrayAsNumber | sliceEndNotWhole | countNotWhole | notIterable _ | sequenceAsWeight
  | notAWeight _ | iterateStats | solutionAssignment | solutionDeletion | solutionEntryDeletion
  | noElements => .type
  | integerTooLarge | indexTooLarge | infiniteAsWhole => .overflow
  | arrayNotStored _ => .memory
  | indexOutOfBounds .. | listIndexOutOfRange | tooManyIndices .. | tooFewDimensions
  | notAnIndex | unfitIndex | maskMismatch .. => .index
  | missingKey _ | missingKind _ | unknownName _ => .key
  | gridMissing | gridNotSet _ | gridSize .. | gridNotIncreasing | variablesMissing ..
  | boundsShape .. | gridVectorSize .. | vectorLength .. | frozen | alreadyTranscribed _
  | constraintLengths .. | quadratureErrorUndeclared | quadratureErrorSize ..
  | notTranscribed => .contract
  | infeasible .. => .infeasible
  | backend .. => .solve
  | solutionField _ => .frozen
  | solutionAppend | solutionCopy | iterateSuccess | noMesh _ | textExpected _ => .attribute
  | expression => .expression
  | unsupported => .unsupported
  | settings _ => .settings
  | unreadableReal _ | unreadableWhole _ | undefinedAsWhole | ragged _ | invalidKey _
  | tooManyDigits _ | sequenceAsElement | tooManyDimensions _ | meshTooLong | arrayTooBig
  | dimensionTooLarge
  | nameNotListed _ | nameNotInSolution | upperWithoutLower | undefinedBound | crossedBounds ..
  | tooFewMeshPoints _ | meshNotIncreasing | unknownLevel _ | crossIndexDimension | zeroSliceStep
  | duplicateName _ | negativeDerivatives | negativeSlacks | noDynamics _ | dynamicsSize ..
  | constraintBoundsSize .. | constraintBoundsCrossed _ | shapesNotBroadcastable _
  | outputNotBroadcastable .. | inputNotBroadcastable .. | negativeShape
  | noAxisToDiffer
  | columnCount .. | noSamples | tooDeep | readOnly | guessMissing _ | guessShape ..
  | backendValue _ => .value

/-- The largest number of characters of a quoted text that is no whole numeral. -/
def quotedLimit : Nat := 200

variable [Number α]

/-- The wording of a fault. -/
def message : Fault α → String
  | realNumberExpected t => s!"must be real number, not {t}"
  | convertibleRealExpected t =>
    s!"float() argument must be a string or a real number, not '" ++ t ++ "'"
  | convertibleWholeExpected t =>
    "int() argument must be a string, a bytes-like object or a real number, not '" ++ t ++ "'"
  | integerTooLarge => "int too large to convert to float"
  | indexTooLarge => "Python int too large to convert to C long"
  | unreadableReal s => "could not convert string to float: " ++ Text.quoted s
  | unreadableWhole s =>
    "invalid literal for int() with base 10: "
      ++ String.ofList ((Text.quoted s).toList.take quotedLimit)
  | tooManyDigits digits =>
    s!"Exceeds the limit ({Text.wholeLimit} digits) for integer string conversion: "
      ++ s!"value has {digits} digits; use sys.set_int_max_str_digits() to increase the limit"
  | undefinedAsWhole => "cannot convert float NaN to integer"
  | infiniteAsWhole => "cannot convert float infinity to integer"
  | arrayAsNumber => "only 0-dimensional arrays can be converted to Python scalars"
  | sequenceAsElement => "setting an array element with a sequence."
  | tooManyDimensions limit =>
    "setting an array element with a sequence. "
      ++ s!"The requested array would exceed the maximum number of dimension of {limit}."
  | ragged shape =>
    "setting an array element with a sequence. "
      ++ s!"The requested array has an inhomogeneous shape after {shape.length} dimensions. "
      ++ "The detected shape was " ++ Text.shape shape ++ " + inhomogeneous part."
  | unordered t => "'<' not supported between instances of '" ++ t ++ "' and 'int'"
  | textExpected t => "'" ++ t ++ "' object has no attribute 'upper'"
  | unhashable t => "unhashable type: '" ++ t ++ "'"
  | invalidKey key => key.written ++ " is not a valid Var"
  | missingKey key => key.written
  | missingKind kind => "<Var." ++ kind.capitals ++ ": " ++ toString kind.index ++ ">"
  | unknownName name => Text.quoted name
  | nameNotListed name => Text.quoted name ++ " is not in list"
  | nameNotInSolution => "tuple.index(x): x not in tuple"
  | tooManyBounds count =>
    "Bounds.__init__() takes from 1 to 3 positional arguments but " ++ toString (count + 1)
      ++ " were given"
  | repeatedBound side =>
    "Bounds.__init__() got multiple values for argument '" ++ side.name ++ "'"
  | unknownBound name =>
    "Bounds.__init__() got an unexpected keyword argument '" ++ name ++ "'"
  | upperWithoutLower => "Bounds with an upper value need a lower value too"
  | undefinedBound => "Bounds cannot be NaN"
  | crossedBounds lower upper =>
    "Lower bound " ++ lower.text ++ " exceeds upper bound " ++ upper.text
  | tooFewMeshPoints shown => "Need at least 2 mesh points, got " ++ shown
  | meshNotIncreasing => "Mesh must be strictly increasing from 0 to 1"
  | meshTooLong => "Maximum allowed size exceeded"
  | dimensionTooLarge => "Maximum allowed dimension exceeded"
  | arrayTooBig =>
    "array is too big; `arr.size * arr.dtype.itemsize` is larger than the maximum possible size."
  | gridMissing => "The grid must be set before creating times"
  | gridNotSet scheme => scheme ++ " did not set its grid"
  | gridSize found declared =>
    s!"Grid has {found} points but the scheme declared {declared}"
  | gridNotIncreasing => "Grid must be strictly increasing within [0, 1]"
  | variablesMissing scheme kind => scheme ++ " did not create " ++ kind.name ++ " variables"
  | boundsShape side kind shape =>
    side.name ++ " bounds of " ++ kind.name ++ " do not match variable shape " ++ Text.shape shape
  | gridVectorSize scheme vector found expected =>
    scheme ++ " returned " ++ toString found ++ " " ++ vector.name
      ++ "; expected one per grid point (" ++ toString expected ++ ")"
  | unknownLevel name => "Unknown level: " ++ Text.quoted name
  | settings _ => ""
  | indexOutOfBounds index axis size =>
    s!"index {index} is out of bounds for axis {axis} with size {size}"
  | listIndexOutOfRange => "list index out of range"
  | tooManyIndices dimensions indices =>
    s!"too many indices for array: array is {dimensions}-dimensional, but {indices} were indexed"
  | tooFewDimensions => "tuple index out of range"
  | maskMismatch axis size maskSize =>
    s!"boolean index did not match indexed array along axis {axis}; "
      ++ s!"size of axis is {size} but size of corresponding boolean axis is {maskSize}"
  | crossIndexDimension => "Cross index must be 1 dimensional"
  | zeroSliceStep => "slice step cannot be zero"
  | sliceEndNotWhole => "slice indices must be integers or None or have an __index__ method"
  | notAnIndex =>
    "only integers, slices (`:`), ellipsis (`...`), numpy.newaxis (`None`) and integer or "
      ++ "boolean arrays are valid indices"
  | subscriptOfNothing => "'NoneType' object is not subscriptable"
  | duplicateName name => "Variable '" ++ name ++ "' already exists"
  | negativeDerivatives => "Number of derivatives must be non-negative"
  | negativeSlacks => "Number of slacks must be non-negative"
  | countNotWhole => "an integer is required"
  | notIterable t => "'" ++ t ++ "' object is not iterable"
  | noDynamics problem => "Problem '" ++ problem ++ "' has no dynamics"
  | dynamicsSize found expected =>
    s!"Dynamics return {found} derivatives but the problem has {expected} states"
  | constraintBoundsSize name size =>
    "Bounds of constraint '" ++ name ++ "' do not match its size " ++ toString size
  | constraintBoundsCrossed name =>
    "Constraint '" ++ name ++ "' has a lower bound above its upper bound"
  | expression => ""
  | unsupported => ""
  | sequenceAsWeight => "can't multiply sequence by non-int of type 'MX'"
  | notAWeight t => "unsupported operand type(s) for *: '" ++ t ++ "' and 'MX'"
  | vectorLength found expected =>
    s!"Cannot expand a vector of length {found}; the variables need {expected} elements"
  | shapesNotBroadcastable shapes =>
    "operands could not be broadcast together with shapes "
      ++ " ".intercalate (shapes.map Text.compactShape) ++ " "
  | outputNotBroadcastable shape broadcast =>
    "non-broadcastable output operand with shape " ++ Text.compactShape shape
      ++ " doesn't match the broadcast shape " ++ Text.compactShape broadcast
  | inputNotBroadcastable shape target =>
    "could not broadcast input array from shape " ++ Text.compactShape shape ++ " into shape "
      ++ Text.compactShape target
  | negativeShape => "all elements of broadcast shape must be non-negative"
  | arrayNotStored elements =>
    "Unable to allocate " ++ Text.byteCount (8 * elements) ++ " for an array with shape "
      ++ Text.shape [elements] ++ " and data type float64"
  | noAxisToDiffer => "diff requires input that is at least one dimensional"
  | columnCount expected found =>
    s!"Expected {expected} columns to match the time vector, got {found}"
  | noSamples => "array of sample points is empty"
  | tooDeep => "object too deep for desired array"
  | readOnly => "assignment destination is read-only"
  | solutionAssignment => "'mappingproxy' object does not support item assignment"
  | solutionDeletion => "'mappingproxy' object does not support item deletion"
  | solutionEntryDeletion => "'mappingproxy' object doesn't support item deletion"
  | unfitIndex => "cannot fit 'int' into an index-sized integer"
  | solutionField field => "cannot assign to field '" ++ field ++ "'"
  | solutionAppend => "'tuple' object has no attribute 'append'"
  | solutionCopy => "'Solution' object has no attribute 'copy'"
  | iterateSuccess => "'Iterate' object has no attribute 'success'"
  | iterateStats => "Iterate.__init__() got an unexpected keyword argument 'stats'"
  | noMesh scheme => "'" ++ scheme ++ "' object has no attribute 'mesh'"
  | noElements => "'NoneType' object does not support item assignment"
  | guessMissing kind => "Initial guess is missing " ++ kind.name
  | guessShape kind found expected =>
    "Initial guess for " ++ kind.name ++ " has shape " ++ Text.shape found ++ ", expected "
      ++ Text.shape expected
  | frozen => "Constraints and objective cannot change after transcription"
  | alreadyTranscribed scheme => scheme ++ " has already been transcribed"
  | constraintLengths lower upper equations =>
    s!"Constraint lower bounds ({lower}), upper bounds ({upper}) and equations ({equations})"
      ++ " must have the same length"
  | quadratureErrorUndeclared => "Quadrature error requested but the problem declares none"
  | quadratureErrorSize expected found =>
    "Expected " ++ expected.shown ++ " quadrature error channels, got " ++ toString found
  | notTranscribed => "solve() called before transcribe()"
  | infeasible part index lower upper =>
    "Ill-posed problem: " ++ part.name ++ " lower bound " ++ Number.text lower
      ++ " exceeds upper bound " ++ Number.text upper ++ " at element " ++ toString index
  | backend solver text => "NLP backend '" ++ solver ++ "' failed: " ++ text
  | backendValue text => text

end Fault
end Collocation
