import Collocation.Expression.Sized

/-! # Rules for two operands

  Elementwise operations on two expressions, built so that what is known at once is not left to
  be computed: operations on constants are carried out, a zero factor leaves zero, operations
  that undo each other disappear, and an expression minus itself is zero. The rules look at the
  outermost operations only; single numbers have some more of them. They hold for finite numbers
  that are not zero where they are divided by; an undefined or infinite value in an operand that
  disappears does not reach the result.

  Where both operands have one size, an operand that is left alone keeps its own size: it was
  repeated in an operation that has disappeared. -/

namespace Collocation
namespace Sized

variable {σ α : Type} [Number α]

/-- What an operation comes to: a result, or another operation whose result may be negated. -/
inductive Step (σ α : Type) where
  | done (e : Sized σ α)
  | instead (negated : Bool) (f : BinaryOp) (a b : Sized σ α)

/-! ## Constants and the outermost operation on the left -/

/-- A product with a zero to which nothing was added up, or a quotient of it, is one itself. -/
def hollowFactor? (f : BinaryOp) (a b : Sized σ α) : Option (Step σ α) :=
  if f = .mul && (a.expr.isHollow || b.expr.isHollow) || f = .div && a.expr.isHollow then
    some (.done (hollow (Matrix.commonExtent a.extent b.extent)))
  else none

/-- A uniform constant on the left. -/
def constantLeft? (f : BinaryOp) (a b : Sized σ α) : Option (Step σ α) := do
  let x ← a.expr.constant?
  let is := fun (n : Int) => Number.equal x (Number.ofInt n)
  match f with
  | .add => if is 0 then return .done b
  | .sub => if is 0 then return .done (b.map .neg)
  | .mul =>
    if is 1 then return .done b
    if is (-1) then return .done (b.map .neg)
    if is 2 then return .done (b.map .twice)
  | .div =>
    if is 1 then return .done (b.map .inverse)
    if is (-1) then return .done ((b.map .inverse).map .neg)
  | .power | .least | .greatest => pure ()
  none

/-- Constants on both sides. -/
def constants? (f : BinaryOp) (a b : Sized σ α) : Option (Step σ α) := do
  return .done (ofMatrix (Matrix.zip f.apply (← a.expr.matrix?) (← b.expr.matrix?)))

/-- The sine or the cosine of a symbol. -/
def circular? : Expr σ α → Option (Bool × Expr σ α)
  | .map (.elementary .sin) e => some (true, e)
  | .map (.elementary .cos) e => some (false, e)
  | _ => none

/-- The squares of the sine and of the cosine of one expression. -/
def onCircle [DecidableEq σ] (a b : Expr σ α) : Bool :=
  match circular? a, circular? b with
  | some (s, x), some (t, y) => s != t && Expr.same x y
  | _, _ => false

/-- An operation on the left that meets this one. -/
def outermostLeft? [DecidableEq σ] (f : BinaryOp) (a b : Sized σ α) : Option (Step σ α) :=
  match f, a.expr with
  | .add, .map .neg x => some (.instead false .sub b (a.part x))
  | .mul, .map .neg x => some (.instead true .mul (a.part x) b)
  | .div, .map .neg x => some (.instead true .div (a.part x) b)
  | .mul, .map .inverse x => some (.instead false .div b (a.part x))
  | .sub, .map .twice x => if Expr.same b.expr x then some (.done (a.part x)) else none
  | .add, .map .square x =>
    match b.expr with
    | .map .square y => if onCircle x y then some (.done (constant a.extent Number.one)) else none
    | _ => none
  | .sub, .zip .add x y =>
    if Expr.same b.expr x then some (.done (a.part y))
    else if Expr.same b.expr y then some (.done (a.part x))
    else none
  | .sub, .zip .sub x y =>
    if Expr.same b.expr x then some (.done ((a.part y).map .neg)) else none
  | .add, .zip .sub x y => if Expr.same b.expr y then some (.done (a.part x)) else none
  | _, _ => none

/-- A zero that decides a product or a quotient. -/
def zeroFactor? (f : BinaryOp) (a b : Sized σ α) : Option (Step σ α) :=
  if f = .mul && (a.isZero || b.isZero) || f = .div && a.isZero then
    some (.done (constant a.extent Number.zero))
  else none

/-- The same expression on both sides. -/
def equalSides? [DecidableEq σ] (f : BinaryOp) (a b : Sized σ α) : Option (Step σ α) :=
  if Expr.same a.expr b.expr then
    match f with
    | .add => some (.done (a.map .twice))
    | .sub => some (.done (constant a.extent Number.zero))
    | .mul => some (.done (a.map .square))
    | .div => some (.done (constant a.extent Number.one))
    | _ => none
  else none

/-! ## The right side -/

/-- A zero that is divided by. -/
def zeroDivisor? (f : BinaryOp) (a b : Sized σ α) : Option (Step σ α) :=
  if f = .div && b.isZero then some (.done (constant a.extent Number.undefined)) else none

/-- A uniform constant on the right. -/
def constantRight? (f : BinaryOp) (a b : Sized σ α) : Option (Step σ α) := do
  let y ← b.expr.constant?
  let is := fun (n : Int) => Number.equal y (Number.ofInt n)
  if f.commutes && !a.expr.isConst then return .instead false f b a
  match f with
  | .power =>
    if is (-1) then return .done (a.map .inverse)
    if is 0 then return .done (constant a.extent Number.one)
    if is 1 then return .done a
    if is 2 then return .done (a.map .square)
  | .add | .sub => if is 0 then return .done a
  | .mul => if is 1 then return .done a
  | .div =>
    if is 1 then return .done a
    if Number.equal y Number.half then return .done (a.map .twice)
  | .least | .greatest => pure ()
  none

/-- An operation on the right that meets this one. -/
def outermostRight? (f : BinaryOp) (a b : Sized σ α) : Option (Step σ α) :=
  match f, b.expr with
  | .add, .map .neg y => some (.instead false .sub a (b.part y))
  | .sub, .map .neg y => some (.instead false .add a (b.part y))
  | .mul, .map .neg y => some (.instead true .mul a (b.part y))
  | .div, .map .neg y => some (.instead true .div a (b.part y))
  | .mul, .map .inverse y => some (.instead false .div a (b.part y))
  | .div, .map .inverse y => some (.instead false .mul a (b.part y))
  | _, _ => none

/-! ## Single numbers -/

/-- Half of an expression, as a product or as a quotient. -/
def half? : Expr σ α → Option (Bool × Expr σ α)
  | .zip .mul c x => if c.isConstant Number.half then some (true, x) else none
  | .zip .div x c => if c.isConstant (Number.ofInt 2) then some (false, x) else none
  | _ => none

/-- A sum of single numbers: of two equal halves, or with what is subtracted on the right. -/
def singleSum? [DecidableEq σ] (a b : Sized σ α) : Option (Step σ α) :=
  match half? a.expr, half? b.expr with
  | some (s, x), some (t, y) => if s = t ∧ Expr.same x y then some (.done (a.part x)) else none
  | _, _ =>
    match b.expr with
    | .zip .sub x y => if Expr.same a.expr y then some (.done (b.part x)) else none
    | _ => none

/-- A difference of single numbers: the left one is part of the right one, or is negated. -/
def singleDifference? [DecidableEq σ] (a b : Sized σ α) : Option (Step σ α) :=
  let rest := match b.expr with
    | .zip .add x y =>
      if Expr.same a.expr y then some (.done ((b.part x).map .neg))
      else if Expr.same a.expr x then some (.done ((b.part y).map .neg))
      else none
    | .map .twice y => if Expr.same a.expr y then some (.done (a.map .neg)) else none
    | _ => none
  rest <|> outermostRight? .sub a b <|>
    match a.expr with
    | .map .neg x => some (.instead true .add (a.part x) b)
    | _ => none

/-- What is multiplied by the inverse of `c` or divided by `c`. -/
def scaled? (c : α) : Expr σ α → Option (Expr σ α)
  | .zip .mul d x =>
    match d.constant? with
    | some d => if Number.equal (c * d) Number.one then some x else none
    | none => none
  | .zip .div x d =>
    match d.constant? with
    | some d => if Number.equal c d then some x else none
    | none => none
  | _ => none

/-- What is divided by the given expression. -/
def withoutDivisor? [DecidableEq σ] (divisor : Expr σ α) : Expr σ α → Option (Expr σ α)
  | .zip .div x y => if Expr.same divisor y then some x else none
  | _ => none

/-- A product of single numbers, one of which divides the other. -/
def singleProduct? [DecidableEq σ] (a b : Sized σ α) : Option (Step σ α) :=
  let rest := (a.expr.constant?.bind (scaled? · b.expr)) <|> withoutDivisor? b.expr a.expr
    <|> withoutDivisor? a.expr b.expr
  rest.map fun x => .done (a.part x)

/-- What is multiplied by the given expression. -/
def withoutFactor? [DecidableEq σ] (factor : Expr σ α) : Expr σ α → Option (Expr σ α)
  | .zip .mul x y =>
    if Expr.same factor x then some y else if Expr.same factor y then some x else none
  | _ => none

/-- A quotient of single numbers by a constant. -/
def singleShare? (a : Sized σ α) (c : α) : Option (Step σ α) :=
  let is := fun (n : Int) => Number.equal c (Number.ofInt n)
  if is 0 then some (.done (number Number.infinity))
  else if is (-1) then some (.done (a.map .neg))
  else
    match a.expr with
    | .map .twice x => if is 2 then some (.done (a.part x)) else none
    | .zip .div x d =>
      match d.constant? with
      | some d => if Number.equal (c * d) Number.one then some (.done (a.part x)) else none
      | none => none
    | _ => none

/-- A quotient of single numbers that have a part in common. -/
def singleRatio? [DecidableEq σ] (a b : Sized σ α) : Option (Step σ α) :=
  match a.expr, b.expr with
  | .map .twice x, .map .twice y => some (.instead false .div (a.part x) (b.part y))
  | e, .zip .mul x y => if Expr.same e y then some (.done ((b.part x).map .inverse)) else none
  | e, .map .neg y => if Expr.same e y then some (.done (number (-Number.one))) else none
  | .zip .div x y, e => if Expr.same e x then some (.done ((a.part y).map .inverse)) else none
  | _, _ => none

/-- A quotient of single numbers. -/
def singleQuotient? [DecidableEq σ] (a b : Sized σ α) : Option (Step σ α) :=
  (b.expr.constant?.bind (singleShare? a)) <|>
    ((withoutFactor? b.expr a.expr).map fun x => .done (a.part x)) <|> singleRatio? a b

/-- A constant `c` against `e`: the last of all numbers decides, the first of all gives way. -/
def extremeSide? (last : α) (c e : Sized σ α) : Option (Step σ α) :=
  if c.expr.isConstant last then some (.done c)
  else if c.expr.isConstant (-last) then some (.done e)
  else none

/-- The smaller or the larger of a single number and an infinite constant. -/
def singleExtreme? (f : BinaryOp) (a b : Sized σ α) : Option (Step σ α) :=
  let last : α := if f = .least then -Number.infinity else Number.infinity
  extremeSide? last a b <|> extremeSide? last b a

/-- The operation on two single numbers. -/
def single? [DecidableEq σ] (f : BinaryOp) (a b : Sized σ α) : Option (Step σ α) :=
  if a.extent ≠ .unit || b.extent ≠ .unit || a.expr.isHollow || b.expr.isHollow then none
  else
    match f with
    | .add => singleSum? a b
    | .sub => singleDifference? a b
    | .mul => singleProduct? a b
    | .div => singleQuotient? a b
    | .least | .greatest => singleExtreme? f a b
    | .power => none

/-! ## All rules -/

omit [Number α] in
/-- The operation as it stands. -/
def plain (f : BinaryOp) (a b : Sized σ α) : Sized σ α :=
  ⟨.zip f a.expr b.expr, Matrix.commonExtent a.extent b.extent⟩

/-- The first rule that applies, or the operation as it stands. -/
def step [DecidableEq σ] (f : BinaryOp) (a b : Sized σ α) : Step σ α :=
  let rules := [hollowFactor?, constantLeft?, constants?, outermostLeft?, zeroFactor?,
    equalSides?, single?, zeroDivisor?, constantRight?, outermostRight?]
  (rules.findSome? fun rule => rule f a b).getD (.done (plain f a b))

/-- Takes at most `fuel` steps. -/
def zipSteps [DecidableEq σ] : (fuel : Nat) → BinaryOp → Sized σ α → Sized σ α → Sized σ α
  | 0, f, a, b => plain f a b
  | fuel + 1, f, a, b =>
    match step f a b with
    | .done e => e
    | .instead negated f' a' b' =>
      let e := zipSteps fuel f' a' b'
      if negated then e.map .neg else e

/-- The operation as far as rules apply. Every other operation that a step takes up has fewer
    leading ones, or a constant on its left. -/
def simplified [DecidableEq σ] (f : BinaryOp) (a b : Sized σ α) : Sized σ α :=
  zipSteps (2 * (a.expr.leading + b.expr.leading) + 3) f a b

/-- A single number to a whole power, by products and squares. -/
def wholePower [DecidableEq σ] (a : Sized σ α) (n : Nat) : Sized σ α :=
  if n = 0 then number Number.one
  else if n % 2 = 1 then simplified .mul a (wholePower a (n - 1))
  else (wholePower a (n / 2)).map .square
termination_by n

/-- A single number to a constant power: a whole one up to 100 is built of products, one half is
    a square root. -/
def singlePower? [DecidableEq σ] (a b : Sized σ α) : Option (Sized σ α) := do
  if a.extent ≠ .unit || b.extent ≠ .unit || a.expr.isConst || b.expr.isHollow then none
  let y ← b.expr.constant?
  if Number.equal y Number.half then return a.map (.elementary .sqrt)
  let n ← Number.truncate? y
  if !Number.equal y (Number.ofInt n) || 100 < n.natAbs then none
  let power := wholePower a n.natAbs
  return if n < 0 then power.map .inverse else power

/-- An elementwise operation on matrices of one size, or of one element and any. -/
def zip [DecidableEq σ] (f : BinaryOp) (a b : Sized σ α) : Sized σ α :=
  let power := if f = .power then singlePower? a b else none
  let e := power.getD (simplified f a b)
  if a.extent = b.extent then e else spread (Matrix.commonExtent a.extent b.extent) e

end Sized
end Collocation
