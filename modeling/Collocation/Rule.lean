import Collocation.Problem.Functions
import Collocation.Quadrature

/-! # Collocation rules

  A rule says which grid a scheme has, how integrals over it are weighted, where kinematic
  constraints hold, and which constraints are written. Two rules are built in; a custom rule is
  given by what its hooks return and by a list of directives for its constraints. -/

namespace Collocation

/-- An array of bounds that a scheme keeps: those of a kind on one side. -/
structure BoundArray where
  side : Side
  kind : Kind
  deriving Repr, DecidableEq

/-- Bounds that are given with equations: as written, or one of the scheme's own arrays. An array is
    not copied. -/
inductive BoundSource (α : Type) where
  | written (l : Literal α)
  | array (a : BoundArray)

instance {α : Type} : Coe (Literal α) (BoundSource α) := ⟨.written⟩

/-- The array that the bounds are. -/
def BoundSource.array? {α : Type} : BoundSource α → Option BoundArray
  | written _ => none
  | array a => some a

/-- One step in writing the constraints of a custom rule. -/
inductive Directive (α : Type) where
  /-- The path constraints, at the given grid indices, or at all if nothing is given. -/
  | path (indices : Literal α)
  | kinematic
  | endpoint
  /-- The dynamics at a grid index equal zero, and so does the quadrature error if asked for. -/
  | dynamics (index : Literal α) (channels : Literal α) (withError : Bool)
  | constrain (lower upper : BoundSource α) (equations : Body α)

/-- What a caller's own rule returns. -/
structure Hooks (α : Type) where
  quadrature : Literal α
  kinematic : Literal α
  directives : List (Directive α)

/-- How a scheme discretizes. -/
inductive Rule (α : Type) where
  | trapezoidal (mesh : Array α)
  /-- Hermite interpolation and Simpson integration on a mesh with midpoints; the controls at
      midpoints may be tied to the mean of their neighbours. -/
  | hermiteSimpson (mesh : Array α) (tieControls : Bool)
  | custom (hooks : Hooks α)

namespace Rule

variable {α : Type}

/-- The name by which messages call a scheme of this rule. -/
def schemeName : Rule α → String
  | trapezoidal _ => "TrapezoidalScheme"
  | hermiteSimpson _ _ => "HermiteSimpsonScheme"
  | custom _ => "CustomScheme"

variable [Number α]

/-- The weights of the grid points, before their number is checked. -/
def quadratureWeights (rule : Rule α) (gridPoints : Nat) (grid : Option (Tensor α)) :
    Except (Fault α) (Array α) :=
  match rule with
  | trapezoidal _ =>
    match grid with
    | none => .error .noAxisToDiffer
    | some grid =>
      match grid.shape.reverse with
      | [] => .error .noAxisToDiffer
      | last :: rest =>
        trapezoidalWeights gridPoints ((last - 1) :: rest).reverse (differences grid.written)
  | hermiteSimpson mesh _ => .ok (simpsonWeights mesh)
  | custom hooks => hooks.quadrature.toVector

/-- The mask of the grid points with kinematic constraints, before its size is checked. -/
def kinematicMask (rule : Rule α) (gridPoints : Nat) : Except (Fault α) (Array α) :=
  match rule with
  | trapezoidal _ => .ok (everywhere gridPoints)
  | hermiteSimpson _ _ => .ok (atMeshPoints gridPoints)
  | custom hooks => hooks.kinematic.toVector

end Rule
end Collocation
