import Collocation.Expression

/-! # Simple expressions

  What is seen of an expression without values for its symbols: that it is a constant, that an
  operation undoes the one before it, that two expressions are the same.

  A uniform constant has one value everywhere. A hollow one is a zero to which nothing was added
  up. Two expressions are recognized as the same when they are one symbol, equal constants, or
  the same operation on the same symbols. -/

namespace Collocation

/-! ## Two operations in a row -/

/-- What an operation is after another one. -/
inductive UnaryOp.Sequel where
  /-- The first operation alone. -/
  | first
  /-- Nothing: the second undoes the first. -/
  | undone
  /-- The given operation alone. -/
  | single (f : UnaryOp)
  /-- Both, one after the other. -/
  | both

/-- The operation `f` after `g`. -/
def UnaryOp.after : (f g : UnaryOp) → UnaryOp.Sequel
  | .neg, .neg | .inverse, .inverse => .undone
  | .square, .neg => .single .square
  | .elementary .abs, .neg => .single (.elementary .abs)
  | .elementary .cos, .neg => .single (.elementary .cos)
  | .square, .elementary .sqrt => .undone
  | .elementary .abs, .elementary .sqrt => .first
  | .elementary .sqrt, .square => .single (.elementary .abs)
  | .elementary .abs, .square => .first
  | .elementary .log, .elementary .exp => .undone
  | .elementary .abs, .elementary .exp => .first
  | .elementary .abs, .elementary .abs => .first
  | .square, .elementary .abs => .single .square
  | .elementary .cos, .elementary .abs => .single (.elementary .cos)
  | _, _ => .both

/-- The operation does not depend on the order of its operands. -/
def BinaryOp.commutes : BinaryOp → Bool
  | .add | .mul => true
  | _ => false

/-! ## Constants -/

section Constants

variable {σ α : Type} [Number α]

/-- Equal in value, or both undefined. -/
def Number.alike (x y : α) : Bool :=
  Number.equal x y || Number.isUndefined x && Number.isUndefined y

/-- The value that a matrix has everywhere; an empty one counts as zero. -/
def Matrix.uniform? (m : Matrix α) : Option α :=
  let x := if m.data.isEmpty then Number.zero else m.get 0
  if m.data.all (Number.alike x) then some x else none

namespace Expr

/-- A uniform constant; zero has no sign. -/
def constant (extent : Extent) (x : α) : Expr σ α :=
  const (.fill extent (if Number.isZero x then Number.zero else x))

/-- A constant matrix. -/
def ofMatrix (m : Matrix α) : Expr σ α :=
  match m.uniform? with
  | some x => constant m.extent x
  | none => const m

/-- A zero to which nothing was added up. -/
def hollow (extent : Extent) : Expr σ α :=
  product (const (.fill ⟨extent.rows, 0⟩ Number.zero)) (const (.fill ⟨0, extent.cols⟩ Number.zero))

omit [Number α] in
def isHollow : Expr σ α → Bool
  | product (const m) (const n) => m.cols = 0 && n.rows = 0
  | _ => false

/-- The value of a constant. -/
def matrix? : Expr σ α → Option (Matrix α)
  | const m => some m
  | product (const m) (const n) => if m.cols = 0 ∧ n.rows = 0 then some (m.product n) else none
  | _ => none

/-- The value of a uniform constant. -/
def constant? (e : Expr σ α) : Option α := do (← e.matrix?).uniform?

def isConst (e : Expr σ α) : Bool := e.matrix?.isSome

/-- The constant with the given value in every element. -/
def isConstant (x : α) (e : Expr σ α) : Bool :=
  match e.constant? with
  | some y => Number.equal x y
  | none => false

/-- A constant zero. -/
def isZero (e : Expr σ α) : Bool := e.isConstant Number.zero

/-- The expression is zero whatever the symbols are: a constant zero, a call that has no other
    result, or sums, differences and multiples of such. -/
def vanishes : Expr σ α → Bool
  | given _ e => e.vanishes
  | zip .add a b | zip .sub a b => a.vanishes && b.vanishes
  | zip .mul a b => a.vanishes || b.vanishes
  | e => e.isZero

/-- An operation on one matrix. -/
def simpleMap (f : UnaryOp) : Expr σ α → Expr σ α
  | map g e =>
    match f.after g with
    | .first => map g e
    | .undone => e
    | .single h => simpleMap h e
    | .both => map f (map g e)
  | e =>
    match e.matrix? with
    | some m =>
      if e.isHollow && Number.isZero (f.apply (Number.zero : α)) then e
      else ofMatrix (m.map f.apply)
    | none => map f e

end Expr
end Constants

/-! ## Same expressions -/

namespace Expr

variable {σ α : Type} [DecidableEq σ]

/-- One and the same symbol. -/
def sameSymbol : Expr σ α → Expr σ α → Bool
  | symbol s _, symbol t _ => s = t
  | _, _ => false

/-- The parts of a concatenation, from top to bottom. -/
def rowParts : Expr σ α → List (Expr σ α)
  | above a b => a.rowParts ++ b.rowParts
  | e => [e]

/-- The parts of a concatenation, from left to right. -/
def colParts : Expr σ α → List (Expr σ α)
  | beside a b => a.colParts ++ b.colParts
  | e => [e]

/-- The same symbols, one by one. -/
def sameSymbols (xs ys : List (Expr σ α)) : Bool :=
  xs.length = ys.length && (xs.zip ys).all fun (x, y) => sameSymbol x y

/-- One symbol, equal constants, or the same operation on the same symbols. A concatenation has
    all its parts as operands; of matrices one above the other only columns keep their parts
    together. -/
def same [Number α] : Expr σ α → Expr σ α → Bool
  | symbol s _, symbol t _ => s = t
  | const m, const n => m.extent = n.extent && (m.data.zip n.data).all fun (x, y) => Number.equal x y
  | map f a, map g b => f = g && sameSymbol a b
  | zip f a b, zip g c d =>
    f = g && (sameSymbol a c && sameSymbol b d
      || f.commutes && sameSymbol a d && sameSymbol b c)
  | transpose a, transpose b => sameSymbol a b
  | above a b, above c d =>
    a.extent?.any (·.cols = 1) && sameSymbols (a.rowParts ++ b.rowParts) (c.rowParts ++ d.rowParts)
  | beside a b, beside c d =>
    sameSymbols (a.colParts ++ b.colParts) (c.colParts ++ d.colParts)
  | slice e k a, slice e' k' b => e = e' && k = k' && sameSymbol a b
  | fill e a, fill e' b => e = e' && sameSymbol a b
  | _, _ => false

omit [DecidableEq σ] in
/-- The number of operations on one matrix that come first. -/
def leading : Expr σ α → Nat
  | map _ e => e.leading + 1
  | _ => 0

end Expr
end Collocation
