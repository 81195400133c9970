import Collocation.Key
import Collocation.Literal.Matrix

/-! # Layout of the decision vector

  Values by kind become one vector: the kinds in their order, every matrix column by column.
  `flatten` stacks and `expand` cuts the vector again. Matrices may come from numeric arrays or
  from symbolic values; both are stacked in the same order. -/

namespace Collocation

variable {α : Type}

namespace Layout

/-! ## Stacking -/

/-- The elements of all tensors, the kinds in their order. -/
def flatten (t : Table (Tensor α)) : Array α :=
  (Kind.all.flatMap fun k =>
    match t.find? k with
    | some v => v.data.toList
    | none => []).toArray

/-- A value on its way into a vector. -/
inductive Item (α : Type) where
  /-- A numeric value, as written. -/
  | numeric (l : Literal α)
  /-- The value of a symbolic matrix. -/
  | symbolic (m : Matrix α)

/-- A stacked vector, and whether it is symbolic: it is when one of its parts was. -/
structure Stacked (α : Type) where
  symbolic : Bool
  data : Array α

def Item.isSymbolic : Item α → Bool
  | .symbolic _ => true
  | .numeric _ => false

variable [Number α]

/-- The elements of an item. Next to symbolic parts a numeric one is a matrix too. -/
def Item.elements (besideSymbolic : Bool) : Item α → Except (Fault α) (Array α)
  | .symbolic m => .ok m.data
  | .numeric l => if besideSymbolic then (·.data) <$> l.toMatrix else (·.data) <$> l.toTensor

/-- Stacks items by kind. -/
def stack (items : Keyed α (Item α)) : Except (Fault α) (Stacked α) := do
  let table ← items.toTable
  let symbolic := table.toList.any fun entry => entry.2.isSymbolic
  let parts ← table.toList.mapM fun entry => entry.2.elements symbolic
  return ⟨symbolic, (parts.flatMap Array.toList).toArray⟩

/-! ## Cutting -/

/-- The elements of a vector that is to be cut, whatever its shape, in written order. -/
def Item.toVector : Item α → Except (Fault α) (Array α)
  | .symbolic m => .ok m.toTensor.written
  | .numeric l => l.toVector

/-- The number of elements that the extents ask for. -/
def total {κ : Type} (extents : List (κ × Extent)) : Nat :=
  extents.foldr (fun entry n => entry.2.size + n) 0

/-- The number of elements of a kind. -/
def count (extents : Table Extent) (k : Kind) : Nat :=
  match extents.find? k with
  | some e => e.size
  | none => 0

/-- The number of elements of several kinds. -/
def countAll (extents : Table Extent) (kinds : List Kind) : Nat :=
  kinds.foldr (fun k n => count extents k + n) 0

/-- The length of the vector. -/
def length (extents : Table Extent) : Nat := countAll extents Kind.all

/-- The place in the vector at which a kind begins: all kinds before it come first. -/
def offset (extents : Table Extent) (k : Kind) : Nat :=
  countAll extents (Kind.all.takeWhile (· ≠ k))

/-- The matrices of the given extents in a vector. -/
def cut (extents : Table Extent) (v : Array α) : Table (Matrix α) :=
  extents.map fun k e =>
    let start := offset extents k
    .ofColumnMajor e fun p => v.getD (start + p) default

/-- Cuts a vector into matrices of the given extents, the kinds in their order. -/
def expand (extents : Table Extent) (v : Array α) : Except (Fault α) (Table (Matrix α)) :=
  if v.size = length extents then .ok (cut extents v)
  else .error (.vectorLength v.size (length extents))

/-- Cuts a vector by extents under keys: its length is checked before the keys are. -/
def expandKeyed (extents : Keyed α Extent) (v : Array α) : Except (Fault α) (Table (Matrix α)) :=
  if v.size = total extents then do expand (← extents.toTable) v
  else .error (.vectorLength v.size (total extents))

end Layout
end Collocation
