import Collocation.Number
import Collocation.Tensor

/-! # Matrices

  The values of expressions. A matrix keeps its elements column by column, so reading it as one
  column changes nothing but its shape. Every operation is given by its entries; an entry
  outside of a matrix is zero. -/

namespace Collocation

/-- Numbers of rows and columns. -/
structure Extent where
  rows : Nat
  cols : Nat
  deriving Repr, DecidableEq

namespace Extent

def size (e : Extent) : Nat := e.rows * e.cols

/-- One row and one column. -/
def unit : Extent := ⟨1, 1⟩

/-- No row or no column. -/
def isEmpty (e : Extent) : Bool := e.rows = 0 || e.cols = 0

def transpose (e : Extent) : Extent := ⟨e.cols, e.rows⟩

/-- The sizes as a list. -/
def toList (e : Extent) : List Nat := [e.rows, e.cols]

end Extent

/-- A matrix with its elements column by column. -/
structure Matrix (α : Type) where
  extent : Extent
  data : Array α
  size_data : data.size = extent.size := by simp

namespace Matrix

variable {α : Type}

@[ext] theorem ext {a b : Matrix α} (extent : a.extent = b.extent) (data : a.data = b.data) :
    a = b := by
  cases a; cases b; cases extent; cases data; rfl

def rows (a : Matrix α) : Nat := a.extent.rows

def cols (a : Matrix α) : Nat := a.extent.cols

def size (a : Matrix α) : Nat := a.data.size

/-- The matrix with the given elements, column by column. -/
def ofColumnMajor (extent : Extent) (f : Nat → α) : Matrix α :=
  ⟨extent, Array.ofFn fun k : Fin extent.size => f k, by simp⟩

/-- The matrix with the given entries. -/
def ofFn (extent : Extent) (f : Nat → Nat → α) : Matrix α :=
  ofColumnMajor extent fun k => f (k % extent.rows) (k / extent.rows)

@[simp] theorem extent_ofColumnMajor (e : Extent) (f : Nat → α) :
    (ofColumnMajor e f).extent = e := rfl

@[simp] theorem extent_ofFn (e : Extent) (f : Nat → Nat → α) : (ofFn e f).extent = e := rfl

/-- The matrix of one element. -/
def unit (x : α) : Matrix α := ⟨.unit, #[x], by simp [Extent.size, Extent.unit]⟩

/-- A column. -/
def column (xs : Array α) : Matrix α := ⟨⟨xs.size, 1⟩, xs, by simp [Extent.size]⟩

/-- The matrix with one value everywhere. -/
def fill (extent : Extent) (x : α) : Matrix α := ofColumnMajor extent fun _ => x

/-- The elements as one column. -/
def vec (a : Matrix α) : Matrix α := column a.data

/-- Element `k`, column by column. -/
def get [Inhabited α] (a : Matrix α) (k : Nat) : α := a.data.getD k default

@[simp] theorem get_ofColumnMajor [Inhabited α] (e : Extent) (f : Nat → α) {k : Nat}
    (h : k < e.size) : (ofColumnMajor e f).get k = f k := by
  simp [get, ofColumnMajor, h]

/-- The entry in row `i` and column `j`. -/
def entry [Inhabited α] (a : Matrix α) (i j : Nat) : α :=
  if i < a.rows then a.get (j * a.rows + i) else default

def map {β : Type} (f : α → β) (a : Matrix α) : Matrix β :=
  ⟨a.extent, a.data.map f, by simp [a.size_data]⟩

/-! ## Tensors and matrices -/

/-- The same elements as a tensor of two dimensions. -/
def toTensor (a : Matrix α) : Tensor α :=
  ⟨a.extent.toList, a.data, by simp [a.size_data, Extent.size, Extent.toList]⟩

/-- A tensor of at most two dimensions as a matrix: a vector is a column. -/
def ofTensor? (t : Tensor α) : Option (Matrix α) :=
  match h : t.shape with
  | [] => some ⟨.unit, t.data, by simp [t.size_data, h, Extent.size, Extent.unit]⟩
  | [n] => some ⟨⟨n, 1⟩, t.data, by simp [t.size_data, h, Extent.size]⟩
  | [n, m] => some ⟨⟨n, m⟩, t.data, by simp [t.size_data, h, Extent.size]⟩
  | _ => none

end Matrix
end Collocation
