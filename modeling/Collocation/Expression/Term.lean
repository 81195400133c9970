import Collocation.Expression.Combine
import Collocation.Literal.Numeric

/-! # Terms

  Expressions as a user writes them: over names, with indices from either end, and without
  sizes. `build` finds the symbols behind the names and the size of every part. It goes from
  left to right and from the inside out, so that of several mistakes the first one is reported.
  A term without names is a number. -/

namespace Collocation

/-- A user's expression. -/
inductive Term (α : Type) where
  | number (x : α)
  | name (s : String)
  /-- Stands where an expression should and is none. -/
  | nothing
  | map (f : UnaryOp) (e : Term α)
  | zip (f : BinaryOp) (a b : Term α)
  | transpose (e : Term α)
  | sumRows (e : Term α)
  | dot (a b : Term α)
  | product (a b : Term α)
  /-- Terms one above the other; none make an empty column. -/
  | stacked (parts : List (Term α))
  /-- Terms one beside the other; none make an empty row. -/
  | joined (parts : List (Term α))
  /-- Element `k`, column by column. -/
  | element (e : Term α) (k : Int)
  | entry (e : Term α) (i j : Int)
  | column (e : Term α) (j : Int)

instance {α : Type} : Inhabited (Term α) := ⟨.nothing⟩

/-- The position that an index from either end means. -/
def position? (size : Nat) (i : Int) : Option Nat :=
  if 0 ≤ i ∧ i < size then some i.toNat
  else if i < 0 ∧ -(size : Int) ≤ i then some (i + size).toNat
  else none

namespace Sized

variable {σ α : Type} [Number α]

/-- Element `k`, column by column. -/
def element? (a : Sized σ α) (k : Int) : Option (Sized σ α) := do
  return a.slice .unit (← position? a.extent.size k)

/-- The entry in row `i` and column `j`. -/
def entryAt? (a : Sized σ α) (i j : Int) : Option (Sized σ α) := do
  let row ← position? a.extent.rows i
  let col ← position? a.extent.cols j
  return a.slice .unit (col * a.extent.rows + row)

/-- Column `j`. -/
def column? (a : Sized σ α) (j : Int) : Option (Sized σ α) := do
  return a.slice ⟨a.extent.rows, 1⟩ ((← position? a.extent.cols j) * a.extent.rows)

end Sized

namespace Term

variable {σ α : Type}

/-- A written number; one that is out of range is no expression. -/
def ofLiteral [Number α] (l : Literal α) : Term α :=
  match l.toNumber with
  | .ok x => number x
  | .error _ => nothing

mutual

/-- There is no name in the term. -/
def isNumeric : Term α → Bool
  | number _ => true
  | name _ | nothing => false
  | map _ e | transpose e | sumRows e | element e _ | entry e _ _ | column e _ => e.isNumeric
  | zip _ a b | dot a b | product a b => a.isNumeric && b.isNumeric
  | stacked parts | joined parts => allNumeric parts

/-- There is no name in any of the terms. -/
def allNumeric : List (Term α) → Bool
  | [] => true
  | e :: rest => e.isNumeric && allNumeric rest

end

/-- A part that was found, or the fault of sizes that do not fit. -/
def fitting (e : Option (Sized σ α)) : Except (Fault α) (Sized σ α) :=
  match e with
  | some e => .ok e
  | none => .error .expression

/-- An index of more than 64 bits is no index. -/
def checkIndex (i : Int) : Except (Fault α) Unit :=
  if fitsIndex i then .ok () else .error .unsupported

mutual

/-- The expression that a term means where `lookup` finds the symbols. -/
def build [Number α] [DecidableEq σ] (lookup : String → Option (Sized σ α)) :
    Term α → Except (Fault α) (Sized σ α)
  | number x => .ok (.number x)
  | name s =>
    match lookup s with
    | some e => .ok e
    | none => .error (.unknownName s)
  | nothing => .error .unsupported
  | map f e => do return (← e.build lookup).map f
  | zip f a b => do fitting (Sized.zip? f (← a.build lookup) (← b.build lookup))
  | transpose e => do return (← e.build lookup).transpose
  | sumRows e => do return (← e.build lookup).sumRows
  | dot a b => do fitting (Sized.dot? (← a.build lookup) (← b.build lookup))
  | product a b => do fitting (Sized.product? (← a.build lookup) (← b.build lookup))
  | stacked parts => do
    let stack? := if allNumeric parts then Sized.stackNumbers? else Sized.stack?
    fitting (stack? (← buildAll lookup parts))
  | joined parts => do
    let line? := if allNumeric parts then Sized.lineNumbers? else Sized.line?
    fitting (line? (← buildAll lookup parts))
  | element e k => do
    let e ← e.build lookup
    checkIndex k
    fitting (e.element? k)
  | entry e i j => do
    let e ← e.build lookup
    checkIndex i
    checkIndex j
    fitting (e.entryAt? i j)
  | column e j => do
    let e ← e.build lookup
    checkIndex j
    fitting (e.column? j)

/-- The expressions that terms mean, from left to right. -/
def buildAll [Number α] [DecidableEq σ] (lookup : String → Option (Sized σ α)) :
    List (Term α) → Except (Fault α) (List (Sized σ α))
  | [] => .ok []
  | e :: rest => do return (← e.build lookup) :: (← buildAll lookup rest)

end

end Term
end Collocation
