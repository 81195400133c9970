import Collocation.Number
import Collocation.Decimal.Layout

/-! # Doubles as numbers

  The instance that runs: operations round once, integers and decimals are read with one
  rounding, and a number is written with the fewest digits that read back. -/

namespace Collocation

/-- The elementary functions on doubles. -/
def Float.applyElementary : Elementary → Float → Float
  | .sin => Float.sin
  | .cos => Float.cos
  | .tan => Float.tan
  | .atan => Float.atan
  | .exp => Float.exp
  | .log => Float.log
  | .sqrt => Float.sqrt
  | .abs => Float.abs
  | .tanh => Float.tanh

/-- The integer part of a finite double, from its bits. -/
def Float.integerPart? (x : Float) : Option Int :=
  if x.isNaN || x.isInf then none
  else
    let part : Int := (Binary.ofBits x.toBits).integerPart
    some (if x < 0 then -part else part)

/-- The double nearest to `digits * 10 ^ exponent`. Far outside the range the answer is known
    without the power of ten. -/
def Float.ofDecimal (digits : Nat) (exponent : Int) : Float :=
  let lead := exponent + (digits.log2 : Int) * 30103 / 100000
  if digits = 0 ∨ lead < -400 then 0.0
  else if lead > 400 then 1.0 / 0.0
  else Float.ofScientific digits (exponent < 0) exponent.natAbs

instance : Number Float where
  ofInt n :=
    let magnitude := Float.ofScientific n.natAbs false 0
    if n < 0 then -magnitude else magnitude
  ofDecimal := Float.ofDecimal
  infinity := 1.0 / 0.0
  undefined := 0.0 / 0.0
  below x y := x < y
  equal x y := x == y
  truncate? := Float.integerPart?
  apply := Float.applyElementary
  power := Float.pow
  text := Float.shortestText

end Collocation
