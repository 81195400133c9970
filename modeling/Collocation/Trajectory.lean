import Collocation.Indexing
import Collocation.Interpolation
import Collocation.Key
import Collocation.Layout
import Collocation.Settings

/-! # Trajectories

  Numbers for the decision variables of a problem, the absolute times they belong to, and the
  names of the components. An iterate is a caller's own and may be changed; a solution is what a
  backend found, with the statistics it reported, and is fixed. -/

namespace Collocation

/-- Lists of names that a trajectory carries. -/
inductive NameList where
  | states
  | controls
  | multipliers
  | parameters
  deriving Repr, DecidableEq

def NameList.name : NameList → String
  | .states => "state_names"
  | .controls => "control_names"
  | .multipliers => "multiplier_names"
  | .parameters => "parameter_names"

/-- Names of the components of the named kinds. -/
structure Names where
  states : List String := []
  controls : List String := []
  multipliers : List String := []
  parameters : List String := []
  deriving Repr, DecidableEq

namespace Names

def get (names : Names) : NameList → List String
  | .states => names.states
  | .controls => names.controls
  | .multipliers => names.multipliers
  | .parameters => names.parameters

def set (names : Names) (which : NameList) (value : List String) : Names :=
  match which with
  | .states => { names with states := value }
  | .controls => { names with controls := value }
  | .multipliers => { names with multipliers := value }
  | .parameters => { names with parameters := value }

end Names

/-- An iterate, or a solution with the backend's statistics. -/
inductive Origin (α : Type) where
  | iterate
  | solution (stats : Options α)

/-- Numbers for decision variables along times. -/
structure Trajectory (α : Type) where
  origin : Origin α
  values : Keyed α (Tensor α)
  times : Tensor α
  names : Names

namespace Trajectory

variable {α : Type} [Number α]

def isSolution (t : Trajectory α) : Bool :=
  match t.origin with
  | .iterate => false
  | .solution _ => true

/-- An iterate. Its keys are not looked at before they are needed. -/
def iterate (values : Keyed α (Tensor α)) (times : Tensor α) (names : Names) : Trajectory α :=
  ⟨.iterate, values, times, names⟩

/-- A solution. Its keys must be kinds, and its times are a vector. -/
def solution (values : Keyed α (Tensor α)) (times : Tensor α) (names : Names)
    (stats : Options α) : Except (Fault α) (Trajectory α) := do
  let _ ← values.toTable
  return ⟨.solution stats, values, .vector times.written, names⟩

/-! ## Reading -/

/-- The backend's own flag of success; false where it reported none. -/
def success (stats : Options α) : Bool :=
  match stats.lookup "success" with
  | some l => l.isTrue
  | none => false

/-- The backend's own account of how it ended. -/
def status (stats : Options α) : String :=
  match stats.lookup "return_status" with
  | some l => l.shown
  | none => ""

/-- The first element of a kind. -/
def first (t : Trajectory α) (kind : Kind) : Except (Fault α) α := do
  let value ← t.values.get kind
  if value.size = 0 then throw (.indexOutOfBounds 0 0 0)
  return value.get 0

/-- The place of a name in one of the lists. -/
def nameIndex (t : Trajectory α) (which : NameList) (name : String) : Except (Fault α) Nat :=
  match (t.names.get which).idxOf? name with
  | some i => .ok i
  | none => .error (if t.isSolution then .nameNotInSolution else .nameNotListed name)

/-- The row of a kind that a name stands for. -/
def namedRow (t : Trajectory α) (kind : Kind) (which : NameList) (name : String) :
    Except (Fault α) (Tensor α) := do
  let value ← t.values.get kind
  let i ← t.nameIndex which name
  return value.below (← value.resolve [i])

/-- The number that a parameter's name stands for. -/
def namedParameter (t : Trajectory α) (name : String) : Except (Fault α) α := do
  let value ← t.values.get .parameters
  let i ← t.nameIndex .parameters name
  let element := value.below (← value.resolve [(i : Int), 0])
  if element.shape.isEmpty then return element.get 0 else throw .arrayAsNumber

/-- The decision vector of the variables. -/
def flatten (t : Trajectory α) : Except (Fault α) (Array α) := do
  return Layout.flatten (← t.values.toTable)

/-! ## Changing -/

/-- Writes one element of a kind. -/
def setElement (t : Trajectory α) (key : Key α) (index : List Int) (value : Literal α) :
    Except (Fault α) (Trajectory α) := do
  match Keyed.find? t.values key with
  | none => throw key.missing
  | some old =>
    if t.isSolution then throw .readOnly
    return { t with values := t.values.insert key (← old.write index value) }

/-- Writes one time. -/
def setTime (t : Trajectory α) (index : Int) (value : Literal α) :
    Except (Fault α) (Trajectory α) := do
  if t.isSolution then throw .readOnly
  return { t with times := ← t.times.write [index] value }

/-- Why a solution keeps the value under a key as written. A whole number of more than 64 bits is
    refused before anything else; the deletion of an entry is worded by what the key is. -/
def solutionFault (key : Literal α) (value : Option (Tensor α)) : Fault α :=
  match value, Key.whole? key with
  | some _, none => .solutionAssignment
  | none, none => .solutionDeletion
  | value, some n =>
    if !fitsIndex n then .unfitIndex
    else if value.isSome then .solutionAssignment
    else .solutionEntryDeletion

/-- Gives the kind under a key as written a new array, or takes it away. -/
def setVariable (t : Trajectory α) (key : Literal α) (value : Option (Tensor α)) :
    Except (Fault α) (Trajectory α) := do
  if t.isSolution then throw (solutionFault key value)
  let key ← Key.ofLiteral key
  match value with
  | some value => return { t with values := t.values.insert key value }
  | none =>
    if (Keyed.find? t.values key).isNone then throw key.missing
    return { t with values := t.values.erase key }

def setNames (t : Trajectory α) (which : NameList) (value : List String) :
    Except (Fault α) (Trajectory α) :=
  if t.isSolution then .error (.solutionField which.name)
  else .ok { t with names := t.names.set which value }

def appendName (t : Trajectory α) (which : NameList) (value : String) :
    Except (Fault α) (Trajectory α) :=
  if t.isSolution then .error .solutionAppend
  else .ok { t with names := t.names.set which (t.names.get which ++ [value]) }

/-- An equal iterate of its own. -/
def copy (t : Trajectory α) : Except (Fault α) (Trajectory α) :=
  if t.isSolution then .error .solutionCopy else .ok t

/-! ## Carrying to other times -/

/-- A value carried to other times, if it belongs to the grid. -/
def resampleValue (oldTimes newTimes : Array α) (key : Key α) (value : Tensor α) :
    Except (Fault α) (Tensor α) :=
  match key.kind? with
  | some k =>
    if k.onGrid then resampleRows oldTimes newTimes value.atLeast2D else .ok value.atLeast2D
  | none => .ok value.atLeast2D

/-- The iterate with the kinds on the grid carried to the given times; the end times and the
    parameters stay as they are. -/
def resample (t : Trajectory α) (times : Array α) : Except (Fault α) (Trajectory α) := do
  let oldTimes := t.times.written
  let values ← t.values.mapM fun (key, value) => do
    return (key, ← resampleValue oldTimes times key value)
  return .iterate values (.vector times) t.names

end Trajectory
end Collocation
