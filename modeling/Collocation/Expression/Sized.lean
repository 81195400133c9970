import Collocation.Expression.Simple

/-! # Sized expressions

  Expressions with their sizes, and what changes the size of one of them: repeating, slicing,
  turning, and adding up rows. A constant is carried along, and a slice is looked for in the
  part that it comes from. -/

namespace Collocation

/-- An expression with its size. -/
structure Sized (σ α : Type) where
  expr : Expr σ α
  extent : Extent

namespace Sized

variable {σ α : Type} [Number α]

/-- A uniform constant. -/
def constant (extent : Extent) (x : α) : Sized σ α := ⟨.constant extent x, extent⟩

/-- A single number. -/
def number (x : α) : Sized σ α := constant .unit x

/-- A constant matrix. -/
def ofMatrix (m : Matrix α) : Sized σ α := ⟨.ofMatrix m, m.extent⟩

/-- A zero to which nothing was added up. -/
def hollow (extent : Extent) : Sized σ α := ⟨.hollow extent, extent⟩

omit [Number α] in
/-- A checked expression with its size. -/
def ofExpr (e : Expr σ α) : Except (Fault α) (Sized σ α) :=
  match e.extent? with
  | some extent => .ok ⟨e, extent⟩
  | none => .error .expression

omit [Number α] in
/-- A symbol. -/
def symbol (s : σ) (extent : Extent) : Sized σ α := ⟨.symbol s extent, extent⟩

/-- A constant zero. -/
def isZero (a : Sized σ α) : Bool := a.expr.isZero

/-- The value of an expression without symbols. -/
def computed (a : Sized σ α) : Sized σ α := ofMatrix (a.expr.eval fun _ => .column #[])

/-- An operation on one matrix. -/
def map (f : UnaryOp) (a : Sized σ α) : Sized σ α := ⟨a.expr.simpleMap f, a.extent⟩

omit [Number α] in
/-- A part of an expression, of the same size if nothing else is known. -/
def part (a : Sized σ α) (e : Expr σ α) : Sized σ α := ⟨e, e.extent?.getD a.extent⟩

/-! ## Reshaping -/

/-- The expression in the given size: a single element is repeated. -/
def spread (extent : Extent) (a : Sized σ α) : Sized σ α :=
  if a.extent = extent then a
  else
    match a.expr.constant? with
    | some x => constant extent x
    | none => ⟨.fill extent a.expr, extent⟩

omit [Number α] in
/-- All columns `n` times over. A constant is not recognized in its copies. -/
def tile (n : Nat) (a : Sized σ α) : Sized σ α :=
  if n = 1 then a else ⟨.tile n a.expr, ⟨a.extent.rows, a.extent.cols * n⟩⟩

/-- The expression is another one, whole and in another shape. -/
def reshaped? : Expr σ α → Option (Expr σ α)
  | .slice extent 0 e =>
    match e.extent? with
    | some s => if s.size = extent.size ∧ s ≠ extent then some e else none
    | none => none
  | _ => none

/-- The elements from number `start` on. They are looked for inside of slices, of what repeats a
    single element, and of the parts of a concatenation that keeps its parts together; a change
    of shape is left as it is. -/
def sliceExpr (extent : Extent) : Nat → Expr σ α → Expr σ α
  | start, .slice extent' start' e =>
    if start = 0 ∧ extent = extent' then .slice extent' start' e
    else if (reshaped? (.slice extent' start' e)).isSome then
      .slice extent start (.slice extent' start' e)
    else sliceExpr extent (start' + start) e
  | _, .fill _ e => if extent = .unit then sliceExpr extent 0 e else .fill extent e
  | start, .above a b =>
    match a.extent?, b.extent? with
    | some s, some t =>
      if start = 0 ∧ extent = ⟨s.rows + t.rows, s.cols⟩ then .above a b
      else if s.cols = 1 ∧ start + extent.size ≤ s.size then sliceExpr extent start a
      else if s.cols = 1 ∧ s.size ≤ start then sliceExpr extent (start - s.size) b
      else .slice extent start (.above a b)
    | _, _ => .slice extent start (.above a b)
  | start, .beside a b =>
    match a.extent?, b.extent? with
    | some s, some t =>
      if start = 0 ∧ extent = ⟨s.rows, s.cols + t.cols⟩ then .beside a b
      else if start + extent.size ≤ s.size then sliceExpr extent start a
      else if s.size ≤ start then sliceExpr extent (start - s.size) b
      else .slice extent start (.beside a b)
    | _, _ => .slice extent start (.beside a b)
  | start, .const m => .ofMatrix (m.slice extent start)
  | start, e => if start = 0 ∧ e.extent? = some extent then e else .slice extent start e

/-- The elements from number `start` on, as a matrix. -/
def slice (extent : Extent) (start : Nat) (a : Sized σ α) : Sized σ α :=
  if extent.isEmpty then constant extent Number.zero else ⟨sliceExpr extent start a.expr, extent⟩

/-- All elements in another shape; of two such changes only the second counts. -/
def reshape (extent : Extent) (a : Sized σ α) : Sized σ α :=
  if a.extent = extent then a
  else
    match a.expr.matrix? with
    | some m => ofMatrix (m.slice extent 0)
    | none =>
      let whole := (reshaped? a.expr).getD a.expr
      if whole.extent? = some extent then ⟨whole, extent⟩ else ⟨.slice extent 0 whole, extent⟩

/-- All elements as one column. -/
def vec (a : Sized σ α) : Sized σ α := reshape ⟨a.extent.size, 1⟩ a

/-- A vector keeps its elements in their order. -/
def transpose (a : Sized σ α) : Sized σ α :=
  if a.extent.rows = 1 ∨ a.extent.cols = 1 then reshape a.extent.transpose a
  else
    match a.expr with
    | .const m => ofMatrix m.transpose
    | .transpose e => ⟨e, a.extent.transpose⟩
    | e => ⟨.transpose e, a.extent.transpose⟩

/-- The sum of all rows. -/
def sumRows (a : Sized σ α) : Sized σ α :=
  let extent : Extent := ⟨1, a.extent.cols⟩
  if a.extent.rows = 1 then a
  else if a.extent.rows = 0 then hollow extent
  else
    match a.expr.matrix? with
    | some m => ofMatrix m.sumRows
    | none => ⟨.sumRows a.expr, extent⟩

end Sized
end Collocation
