import Collocation.Literal.Numeric

/-! # Meshes and grids

  A mesh divides the unit interval. It is given by its number of points, evenly spread, or by
  the points themselves, which must increase strictly from zero to one. A difference that is
  not positive is what makes a sequence of points not increasing, so an undefined point goes
  unnoticed. -/

namespace Collocation

variable {α : Type} [Number α]

/-- The differences of neighbouring elements. -/
def differences (xs : Array α) : Array α :=
  Array.ofFn fun i : Fin (xs.size - 1) =>
    xs.getD (i.val + 1) default - xs.getD i.val default

/-- Some element fails to lie above the one before it. -/
def hasDescent (xs : Array α) : Bool :=
  (differences xs).any fun d => Number.atMost d Number.zero

/-- `n` evenly spread points from zero to one. -/
def evenPoints (n : Nat) : Array α :=
  let step : α := Number.one / Number.ofInt (n - 1)
  Array.ofFn fun i : Fin n =>
    if i.val = 0 then Number.zero
    else if i.val + 1 = n then Number.one
    else Number.ofInt i.val * step

/-- Points given by the caller. -/
def Mesh.ofPoints (points : Array α) : Except (Fault α) (Array α) :=
  if points.size < 2 then .error (.tooFewMeshPoints (toString points.size))
  else if !Number.equal (points.getD 0 default) Number.zero
      || !Number.equal (points.getD (points.size - 1) default) Number.one || hasDescent points then
    .error .meshNotIncreasing
  else .ok points

/-- A number of evenly spread points, unless there are more of them than can be counted or
    stored. -/
def Mesh.even (n : Nat) : Except (Fault α) (Array α) := do
  if n < 2 then throw (.tooFewMeshPoints (toString n))
  if 0x8000000000000000 < n then throw .meshTooLong
  checkStored n
  return evenPoints n

/-- The mesh that a literal describes. -/
def Mesh.ofLiteral : Literal α → Except (Fault α) (Array α)
  | .truth b => .error (.tooFewMeshPoints (Literal.truthText b))
  | .whole n => if n < 2 then .error (.tooFewMeshPoints (toString n)) else Mesh.even n.toNat
  | l => do Mesh.ofPoints (← l.toVector)

/-- The mesh points with the midpoint of every interval between them. -/
def withMidpoints (mesh : Array α) : Array α :=
  Array.ofFn fun i : Fin (2 * mesh.size - 1) =>
    if i.val % 2 = 0 then mesh.getD (i.val / 2) default
    else Number.half * (mesh.getD (i.val / 2) default + mesh.getD (i.val / 2 + 1) default)

end Collocation
