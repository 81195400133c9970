import Collocation.Mesh
import Collocation.Stretch

/-! # Quadrature weights

  The weights of the two built-in rules on the unit interval, one for each grid point. The
  trapezoidal rule takes half of each neighbouring interval; Simpson's rule takes a sixth of an
  interval for its two ends and four sixths for its midpoint. -/

namespace Collocation

variable {α : Type} [Number α]

/-- Half of each of the intervals beside grid point `i`, of `n` grid points. -/
def trapezoidalWeight (steps : Array α) (n i : Nat) : α :=
  let right : α := if i + 1 < n then Number.half * steps.getD i default else Number.zero
  let left : α := if 0 < i then Number.half * steps.getD (i - 1) default else Number.zero
  right + left

/-- The weights of the trapezoidal rule on `n` points whose intervals have the given lengths,
    an array of some shape. A single length serves all intervals. -/
def trapezoidalWeights (n : Nat) (shape : List Nat) (steps : Array α) :
    Except (Fault α) (Array α) :=
  let intervals := n - 1
  match stretch? [intervals] shape with
  | none => .error (.shapesNotBroadcastable [[intervals], shape, [intervals]])
  | some common =>
    if common = [intervals] then
      let steps := (repeatTo? intervals steps).getD steps
      .ok (Array.ofFn fun i : Fin n => trapezoidalWeight steps n i)
    else .error (.outputNotBroadcastable [intervals] common)

/-- The share of grid point `i` in the intervals of a mesh with their midpoints. -/
def simpsonWeight (steps : Array α) (i : Nat) : α :=
  let six : α := Number.ofInt 6
  if i % 2 = 1 then Number.ofInt 4 * steps.getD (i / 2) default / six
  else
    let right : α := if i / 2 < steps.size then steps.getD (i / 2) default / six else Number.zero
    let left : α := if 0 < i then steps.getD (i / 2 - 1) default / six else Number.zero
    right + left

/-- The weights of Simpson's rule on the points of a mesh and the midpoints between them. -/
def simpsonWeights (mesh : Array α) : Array α :=
  Array.ofFn fun i : Fin (2 * mesh.size - 1) => simpsonWeight (differences mesh) i

/-- One at every grid point. -/
def everywhere (n : Nat) : Array α := Array.replicate n Number.one

/-- One at the mesh points and zero at the midpoints. -/
def atMeshPoints (n : Nat) : Array α :=
  Array.ofFn fun i : Fin n => if i.val % 2 = 0 then Number.one else Number.zero

end Collocation
