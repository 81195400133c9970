import Collocation.Expression.Rules

/-! # Combining sized expressions

  Operations on several expressions, wherever their sizes fit: elementwise ones, products, and
  concatenations. What is made of constants alone is a constant.

  In a concatenation of numbers, which depend on no symbol from the start, a part without any
  element still takes its room, as zeros. -/

namespace Collocation
namespace Sized

variable {σ α : Type}

/-! ## Elementwise operations -/

/-- The smaller size repeats to the larger one. -/
def repeats (small large : Extent) : Bool :=
  small.rows = large.rows && 0 < small.cols && 0 < large.cols && large.cols % small.cols = 0

variable [Number α]

/-- An elementwise operation. Of two sizes with equally many rows, the columns of the smaller are
    repeated. -/
def zip? [DecidableEq σ] (f : BinaryOp) (a b : Sized σ α) : Option (Sized σ α) :=
  let (s, t) := (a.extent, b.extent)
  if s = t ∨ s = .unit ∨ t = .unit then some (zip f a b)
  else if s.rows = 0 ∧ t.rows = 0 ∧ (repeats s t ∨ repeats t s) then
    some (constant ⟨0, max s.cols t.cols⟩ Number.zero)
  else if repeats t s then some (zip f a (b.tile (s.cols / t.cols)))
  else if repeats s t then some (zip f (a.tile (t.cols / s.cols)) b)
  else none

/-! ## Products -/

/-- The sum of the products of corresponding elements. -/
def dot? [DecidableEq σ] (a b : Sized σ α) : Option (Sized σ α) :=
  if a.extent ≠ b.extent then none
  else if a.extent.isEmpty then some (number Number.zero)
  else if a.extent = .unit then some (zip .mul a b)
  else
    let product : Sized σ α := ⟨.dot a.expr b.expr, .unit⟩
    if a.expr.isConst && b.expr.isConst then some product.computed
    else if a.isZero || b.isZero then some (number Number.zero)
    else some product

/-- The product of matrices; one with a single element is elementwise. -/
def product? [DecidableEq σ] (a b : Sized σ α) : Option (Sized σ α) :=
  if a.extent = .unit ∨ b.extent = .unit then some (zip .mul a b)
  else if a.extent.cols ≠ b.extent.rows then none
  else
    let product : Sized σ α := ⟨.product a.expr b.expr, ⟨a.extent.rows, b.extent.cols⟩⟩
    if a.extent.cols = 0 then some (hollow product.extent)
    else if a.expr.isConst && b.expr.isConst then some product.computed
    else if a.isZero || b.isZero then some (constant product.extent Number.zero)
    else some product

/-! ## Concatenations -/

/-- A concatenation, or its value if both parts are constants. -/
def joined (a b : Sized σ α) (join : Sized σ α) : Sized σ α :=
  if a.expr.isConst && b.expr.isConst then join.computed else join

/-- One above the other. A part without rows adds nothing. -/
def above? (a b : Sized σ α) : Option (Sized σ α) := do
  let extent ← Expr.aboveExtent? a.extent b.extent
  if a.extent.rows = 0 ∧ b.extent = extent then return b
  if b.extent.rows = 0 then return a
  return joined a b ⟨.above a.expr b.expr, extent⟩

/-- One beside the other. A part without columns adds nothing. -/
def beside? (a b : Sized σ α) : Option (Sized σ α) := do
  let extent ← Expr.besideExtent? a.extent b.extent
  if a.extent.cols = 0 ∧ b.extent = extent then return b
  if b.extent.cols = 0 then return a
  return joined a b ⟨.beside a.expr b.expr, extent⟩

/-- All of them joined, from the last one on; of none there is what is given. -/
def joinAll? (join? : Sized σ α → Sized σ α → Option (Sized σ α)) (empty : Sized σ α) :
    List (Sized σ α) → Option (Sized σ α)
  | [] => some empty
  | [a] => some a
  | a :: rest => do join? a (← joinAll? join? empty rest)

/-- One above the other; none make an empty column. -/
def stack? : List (Sized σ α) → Option (Sized σ α) :=
  joinAll? above? (constant ⟨0, 1⟩ Number.zero)

/-- One beside the other; none make an empty row. -/
def line? : List (Sized σ α) → Option (Sized σ α) :=
  joinAll? beside? (constant ⟨1, 0⟩ Number.zero)

/-- Numbers joined by `join?` if they agree in `size`, where a part without any is given as many
    zeros as the others have. -/
def joinNumbers? (size : Extent → Nat) (resize : Nat → Extent → Extent)
    (join? : List (Sized σ α) → Option (Sized σ α)) (parts : List (Sized σ α)) :
    Option (Sized σ α) := do
  let common := ((parts.map fun a => size a.extent).find? (· ≠ 0)).getD 0
  let whole ← join? (parts.map fun a =>
    if size a.extent = 0 then constant (resize common a.extent) Number.zero else a)
  if parts.all (·.extent.isEmpty) && !whole.extent.isEmpty then return hollow whole.extent
  return whole

/-- Numbers one above the other. -/
def stackNumbers? : List (Sized σ α) → Option (Sized σ α) :=
  joinNumbers? (·.cols) (fun n e => ⟨e.rows, n⟩) stack?

/-- Numbers one beside the other. -/
def lineNumbers? : List (Sized σ α) → Option (Sized σ α) :=
  joinNumbers? (·.rows) (fun n e => ⟨n, e.cols⟩) line?

end Sized
end Collocation
