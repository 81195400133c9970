import Collocation.Scheme

/-! # Times of given ends

  The absolute times at the grid points as a function of the two end times. The function is built
  from symbols, so where the grid is zero or one throughout, only one of the ends is left. -/

namespace Collocation

/-- Inputs of the times. -/
inductive TimeInput where
  | initial
  | final
  deriving Repr, DecidableEq

instance : Inputs TimeInput where
  all := [.initial, .final]
  ofName? _ := none

namespace Scheme

variable {α : Type} [Number α]

/-- The absolute times `(final - initial) * grid + initial`. -/
def timesFunction (grid : Array α) : Function TimeInput α :=
  let initial : Sized TimeInput α := .symbol .initial .unit
  let final : Sized TimeInput α := .symbol .final .unit
  let times := Sized.zip .add
    (Sized.zip .mul (Sized.zip .sub final initial) (.ofMatrix (.column grid))) initial
  ⟨"times", fun _ => .unit, times.expr, times.extent⟩

/-- The absolute times for ends that are read as matrices. -/
def timesAt (s : Scheme α) (initial final : Literal α) : Except (Fault α) (Array α) := do
  let f := timesFunction (← s.gridVector)
  match initial.flatMatrix?, final.flatMatrix? with
  | some initial, some final =>
    let values ← f.evaluate fun
      | .initial => initial
      | .final => final
    return (values.flatMap (·.data.toList)).toArray
  | _, _ => throw .unsupported

end Scheme
end Collocation
