/-! # Tensors

  Arrays of any number of dimensions, as trajectories, grids and bound tables store them.
  The elements are kept with the first index running fastest, so a matrix is kept column by
  column and stacking tensors is concatenating what they keep. Written forms list elements with
  the last index running fastest; `rank` and `position` lead from one order to the other. -/

namespace Collocation

/-- The number of elements of a shape. -/
def volume (shape : List Nat) : Nat := shape.foldr (· * ·) 1

@[simp] theorem volume_nil : volume [] = 1 := rfl

@[simp] theorem volume_cons (n : Nat) (shape : List Nat) :
    volume (n :: shape) = n * volume shape := rfl

/-- The place in the written order of the element kept at place `p`. -/
def rank : List Nat → Nat → Nat
  | [], _ => 0
  | n :: shape, p => p % n * volume shape + rank shape (p / n)

/-- The place at which the element with written place `k` is kept. -/
def position : List Nat → Nat → Nat
  | [], _ => 0
  | n :: shape, k => k / volume shape + n * position shape (k % volume shape)

/-- An array with as many elements as its shape asks for, the first index running fastest. -/
structure Tensor (α : Type) where
  shape : List Nat
  data : Array α
  size_data : data.size = volume shape := by simp

namespace Tensor

variable {α : Type}

@[ext] theorem ext {s t : Tensor α} (shape : s.shape = t.shape) (data : s.data = t.data) :
    s = t := by
  cases s; cases t; cases shape; cases data; rfl

/-- The tensor with `f p` kept at place `p`. -/
def ofFn (shape : List Nat) (f : Nat → α) : Tensor α :=
  ⟨shape, Array.ofFn fun p : Fin (volume shape) => f p, by simp⟩

@[simp] theorem shape_ofFn (shape : List Nat) (f : Nat → α) : (ofFn shape f).shape = shape := rfl

@[simp] theorem getElem_data_ofFn (shape : List Nat) (f : Nat → α) (p : Nat)
    (h : p < (ofFn shape f).data.size) : (ofFn shape f).data[p] = f p := by
  simp [ofFn]

/-- The tensor with one value everywhere. -/
def fill (shape : List Nat) (x : α) : Tensor α := ofFn shape fun _ => x

/-- A single number, of no dimension. -/
def scalar (x : α) : Tensor α := ⟨[], #[x], rfl⟩

/-- A vector. -/
def vector (xs : Array α) : Tensor α := ⟨[xs.size], xs, by simp⟩

def size (t : Tensor α) : Nat := t.data.size

/-- The element kept at place `p`. -/
def get [Inhabited α] (t : Tensor α) (p : Nat) : α := t.data.getD p default

@[simp] theorem get_ofFn [Inhabited α] (shape : List Nat) (f : Nat → α) {p : Nat}
    (h : p < volume shape) : (ofFn shape f).get p = f p := by
  simp [get, ofFn, h]

/-- Tensors of one shape are equal if they keep the same elements. -/
theorem ext_get [Inhabited α] {s t : Tensor α} (shape : s.shape = t.shape)
    (elements : ∀ p < volume s.shape, s.get p = t.get p) : s = t := by
  refine ext shape (Array.ext (by rw [s.size_data, t.size_data, shape]) fun p hs ht => ?_)
  simpa [get, hs, ht] using elements p (s.size_data ▸ hs)

/-- The tensor whose written order is the given one; elements beyond the list are the default. -/
def ofWritten [Inhabited α] (shape : List Nat) (xs : Array α) : Tensor α :=
  ofFn shape fun p => xs.getD (rank shape p) default

/-- The elements in written order. -/
def written [Inhabited α] (t : Tensor α) : Array α :=
  Array.ofFn fun k : Fin t.data.size => t.get (position t.shape k)

def map {β : Type} (f : α → β) (t : Tensor α) : Tensor β :=
  ⟨t.shape, t.data.map f, by simp [t.size_data]⟩

/-- The tensor with the element at place `p` replaced. -/
def set (t : Tensor α) (p : Nat) (x : α) : Tensor α :=
  ⟨t.shape, t.data.setIfInBounds p x, by simp [t.size_data]⟩

/-- The shape with at least two dimensions: what has fewer is a single row. -/
def matrixShape : List Nat → List Nat
  | [] => [1, 1]
  | [n] => [1, n]
  | shape => shape

/-- The same elements in at least two dimensions. -/
def atLeast2D (t : Tensor α) : Tensor α :=
  ⟨matrixShape t.shape, t.data, by
    rw [t.size_data]
    rcases t.shape with _ | ⟨n, _ | ⟨m, rest⟩⟩ <;> simp [matrixShape]⟩

/-- The place of an element given by one index for each dimension. -/
def place : List Nat → List Nat → Nat
  | n :: shape, i :: index => i + n * place shape index
  | _, _ => 0

end Tensor
end Collocation
