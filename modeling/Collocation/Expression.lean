import Collocation.Fault
import Collocation.Matrix

/-! # Expressions

  Matrix-valued expressions over symbols of known size. An expression is data: `eval` gives its
  value for values of the symbols, `extent?` its size where all parts fit, `symbols` what it
  depends on, and `subst` puts expressions in place of symbols.

  Elementwise operations take equal sizes, or one element with anything. A matrix without rows
  and columns disappears from a concatenation. -/

namespace Collocation

/-- Elementwise operations on one matrix. -/
inductive UnaryOp where
  | neg
  | inverse
  | square
  | twice
  | elementary (f : Elementary)
  deriving Repr, DecidableEq

/-- Elementwise operations on two matrices. -/
inductive BinaryOp where
  | add
  | sub
  | mul
  | div
  | power
  | least
  | greatest
  deriving Repr, DecidableEq

/-- Expressions over symbols `σ`. -/
inductive Expr (σ α : Type) where
  | const (m : Matrix α)
  | symbol (s : σ) (extent : Extent)
  | map (f : UnaryOp) (e : Expr σ α)
  | zip (f : BinaryOp) (a b : Expr σ α)
  | transpose (e : Expr σ α)
  /-- The sum of all rows, as one row. -/
  | sumRows (e : Expr σ α)
  /-- The sum of the products of corresponding elements. -/
  | dot (a b : Expr σ α)
  | product (a b : Expr σ α)
  | above (a b : Expr σ α)
  | beside (a b : Expr σ α)
  /-- The elements from number `start` on, column by column, as a matrix. -/
  | slice (extent : Extent) (start : Nat) (e : Expr σ α)
  /-- All columns `n` times over. -/
  | tile (n : Nat) (e : Expr σ α)
  /-- One element repeated. -/
  | fill (extent : Extent) (e : Expr σ α)
  /-- The result of a call, which depends on the argument even where its value does not. -/
  | given (argument result : Expr σ α)

instance {σ α : Type} : Inhabited (Expr σ α) := ⟨.const (.column #[])⟩

/-! ## Values -/

def UnaryOp.apply {α : Type} [Number α] : UnaryOp → α → α
  | neg, x => -x
  | inverse, x => Number.one / x
  | square, x => x * x
  | twice, x => x + x
  | elementary f, x => Number.apply f x

def BinaryOp.apply {α : Type} [Number α] : BinaryOp → α → α → α
  | add, x, y => x + y
  | sub, x, y => x - y
  | mul, x, y => x * y
  | div, x, y => x / y
  | power, x, y => Number.power x y
  | least, x, y => Number.least x y
  | greatest, x, y => Number.greatest x y

namespace Matrix

variable {α : Type} [Number α]

/-- The size of an elementwise operation: that of the operand which is not a single element. -/
def commonExtent (a b : Extent) : Extent := if a = .unit then b else a

/-- An elementwise operation; a single element meets every element of the other side. -/
def zip (f : α → α → α) (a b : Matrix α) : Matrix α :=
  if a.extent = b.extent then ofColumnMajor a.extent fun k => f (a.get k) (b.get k)
  else if a.extent = .unit then b.map (f (a.get 0))
  else a.map fun x => f x (b.get 0)

def transpose (a : Matrix α) : Matrix α := ofFn a.extent.transpose fun i j => a.entry j i

/-- Column `j` as an array. -/
def columnArray (a : Matrix α) (j : Nat) : Array α :=
  Array.ofFn fun i : Fin a.rows => a.get (j * a.rows + i.val)

def sumRows (a : Matrix α) : Matrix α :=
  ofFn ⟨1, a.cols⟩ fun _ j => Number.sum (a.columnArray j).toList

def dot (a b : Matrix α) : Matrix α :=
  unit (Number.sum (List.zipWith (· * ·) a.data.toList b.data.toList))

def product (a b : Matrix α) : Matrix α :=
  if a.extent = .unit ∨ b.extent = .unit then zip (· * ·) a b
  else ofFn ⟨a.rows, b.cols⟩ fun i j =>
    Number.sum ((List.range a.cols).map fun k => a.entry i k * b.entry k j)

def isVoid (a : Matrix α) : Bool := a.extent = ⟨0, 0⟩

def above (a b : Matrix α) : Matrix α :=
  if a.isVoid then b else if b.isVoid then a
  else ofFn ⟨a.rows + b.rows, a.cols⟩ fun i j =>
    if i < a.rows then a.entry i j else b.entry (i - a.rows) j

def beside (a b : Matrix α) : Matrix α :=
  if a.isVoid then b else if b.isVoid then a
  else ofColumnMajor ⟨a.rows, a.cols + b.cols⟩ fun k =>
    if k < a.size then a.get k else b.get (k - a.size)

/-- The elements from number `start` on, as a matrix. -/
def slice (a : Matrix α) (extent : Extent) (start : Nat) : Matrix α :=
  ofColumnMajor extent fun k => a.get (start + k)

/-- All columns `n` times over. -/
def tile (a : Matrix α) (n : Nat) : Matrix α :=
  ofColumnMajor ⟨a.rows, a.cols * n⟩ fun k => a.get (k % a.size)

end Matrix

namespace Expr

variable {σ τ α : Type}

/-- The value of an expression. Where the sizes do not fit it has no meaning. -/
def eval [Number α] (env : σ → Matrix α) : Expr σ α → Matrix α
  | const m => m
  | symbol s _ => env s
  | map f e => (e.eval env).map f.apply
  | zip f a b => Matrix.zip f.apply (a.eval env) (b.eval env)
  | transpose e => (e.eval env).transpose
  | sumRows e => (e.eval env).sumRows
  | dot a b => (a.eval env).dot (b.eval env)
  | product a b => (a.eval env).product (b.eval env)
  | above a b => (a.eval env).above (b.eval env)
  | beside a b => (a.eval env).beside (b.eval env)
  | slice extent start e => (e.eval env).slice extent start
  | tile n e => (e.eval env).tile n
  | fill extent e => .fill extent ((e.eval env).get 0)
  | given _ result => result.eval env

/-! ## Sizes -/

/-- A size, if a condition holds. -/
def sizeIf (condition : Bool) (e : Extent) : Option Extent := if condition then some e else none

/-- The size of an elementwise operation, if the operands fit. -/
def zipExtent? (a b : Extent) : Option Extent :=
  sizeIf (a = b || a = .unit || b = .unit) (Matrix.commonExtent a b)

/-- The size of a product, if the operands fit. -/
def productExtent? (a b : Extent) : Option Extent :=
  if a = .unit ∨ b = .unit then zipExtent? a b else sizeIf (a.cols = b.rows) ⟨a.rows, b.cols⟩

/-- The size of two matrices one above the other, if they fit. -/
def aboveExtent? (a b : Extent) : Option Extent :=
  if a = ⟨0, 0⟩ then some b
  else if b = ⟨0, 0⟩ then some a
  else sizeIf (a.cols = b.cols) ⟨a.rows + b.rows, a.cols⟩

/-- The size of two matrices one beside the other, if they fit. -/
def besideExtent? (a b : Extent) : Option Extent :=
  if a = ⟨0, 0⟩ then some b
  else if b = ⟨0, 0⟩ then some a
  else sizeIf (a.rows = b.rows) ⟨a.rows, a.cols + b.cols⟩

/-- The size of an expression, if all its parts fit. -/
def extent? : Expr σ α → Option Extent
  | const m => some m.extent
  | symbol _ extent => some extent
  | map _ e => e.extent?
  | zip _ a b => do zipExtent? (← a.extent?) (← b.extent?)
  | transpose e => do return (← e.extent?).transpose
  | sumRows e => do return ⟨1, (← e.extent?).cols⟩
  | dot a b => do sizeIf ((← a.extent?) = (← b.extent?)) .unit
  | product a b => do productExtent? (← a.extent?) (← b.extent?)
  | above a b => do aboveExtent? (← a.extent?) (← b.extent?)
  | beside a b => do besideExtent? (← a.extent?) (← b.extent?)
  | slice extent start e => do sizeIf (start + extent.size ≤ (← e.extent?).size) extent
  | tile n e => do
    let s ← e.extent?
    return ⟨s.rows, s.cols * n⟩
  | fill extent e => do
    let _ ← e.extent?
    return extent
  | given argument result => do
    let _ ← argument.extent?
    result.extent?

/-! ## Symbols -/

/-- The symbols on which an expression depends; nothing depends on an empty one. -/
def symbols : Expr σ α → List σ
  | const _ => []
  | symbol s extent => if extent.isEmpty then [] else [s]
  | map _ e | transpose e | sumRows e | slice _ _ e | tile _ e | fill _ e => e.symbols
  | zip _ a b | dot a b | product a b | above a b | beside a b | given a b =>
    a.symbols ++ b.symbols

/-- Expressions in place of the symbols. -/
def subst (f : σ → Expr τ α) : Expr σ α → Expr τ α
  | const m => const m
  | symbol s _ => f s
  | map g e => map g (e.subst f)
  | zip g a b => zip g (a.subst f) (b.subst f)
  | transpose e => transpose (e.subst f)
  | sumRows e => sumRows (e.subst f)
  | dot a b => dot (a.subst f) (b.subst f)
  | product a b => product (a.subst f) (b.subst f)
  | above a b => above (a.subst f) (b.subst f)
  | beside a b => beside (a.subst f) (b.subst f)
  | slice extent start e => slice extent start (e.subst f)
  | tile n e => tile n (e.subst f)
  | fill extent e => fill extent (e.subst f)
  | given a b => given (a.subst f) (b.subst f)

/-! ## Building -/

/-- A single number. -/
def number (x : α) : Expr σ α := const (.unit x)

/-- Column `j` of an expression with the given number of rows. -/
def column (rows j : Nat) (e : Expr σ α) : Expr σ α := slice ⟨rows, 1⟩ (j * rows) e

/-- Expressions one above the other; none make an empty column. -/
def stacked : List (Expr σ α) → Expr σ α
  | [] => const (.column #[])
  | [e] => e
  | e :: rest => above e (stacked rest)

/-- A result that depends on all arguments of a call. -/
def givenAll (arguments : List (Expr σ α)) (result : Expr σ α) : Expr σ α :=
  arguments.foldr given result

@[simp] theorem eval_givenAll [Number α] (env : σ → Matrix α) (arguments : List (Expr σ α))
    (result : Expr σ α) : (givenAll arguments result).eval env = result.eval env := by
  unfold givenAll
  induction arguments with
  | nil => rfl
  | cons a arguments ih => simpa [eval] using ih

instance : Add (Expr σ α) := ⟨zip .add⟩
instance : Sub (Expr σ α) := ⟨zip .sub⟩
instance : Mul (Expr σ α) := ⟨zip .mul⟩
instance : Div (Expr σ α) := ⟨zip .div⟩

end Expr
end Collocation
