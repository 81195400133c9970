/-! # Binary magnitudes and decimals

  A finite double is a natural mantissa times a power of two; what is written is a natural
  number of digits times a power of ten. This module holds the two, the exact quotient that
  compares them, and the test whether a decimal lies among the reals that round to a given
  double. Everything is exact arithmetic on naturals: no operation on floats occurs here. -/

namespace Collocation

/-- The magnitude `mantissa * 2 ^ exponent` of a finite double. -/
structure Binary where
  mantissa : Nat
  exponent : Int
  /-- The neighbour below is half as far away as the neighbour above. -/
  closeBelow : Bool
  deriving Repr, DecidableEq

/-- The decimal `digits * 10 ^ exponent`. -/
structure Decimal where
  digits : Nat
  exponent : Int
  deriving Repr, DecidableEq

namespace Binary

/-- The magnitude behind the bits of a finite double; the sign is not part of it. -/
def ofBits (bits : UInt64) : Binary :=
  let biased := ((bits >>> 52) &&& 0x7FF).toNat
  let fraction := (bits &&& 0xFFFFFFFFFFFFF).toNat
  if biased = 0 then ⟨fraction, -1074, false⟩
  else ⟨0x10000000000000 + fraction, (biased : Int) - 1075, fraction = 0 && biased > 1⟩

/-- Numerator and denominator of `x / 10 ^ e`. -/
def ratio (x : Binary) (e : Int) : Nat × Nat :=
  (x.mantissa * Nat.pow 2 x.exponent.toNat * Nat.pow 10 (-e).toNat,
    Nat.pow 2 (-x.exponent).toNat * Nat.pow 10 e.toNat)

/-- The whole number of times that `10 ^ e` goes into `x`. -/
def quotient (x : Binary) (e : Int) : Nat :=
  (x.ratio e).1 / (x.ratio e).2

/-- The integer part. -/
def integerPart (x : Binary) : Nat := x.quotient 0

/-- `x / 10 ^ e` rounded to the nearest natural, a half going to the even neighbour. -/
def roundQuotient (x : Binary) (e : Int) : Nat :=
  let (num, den) := x.ratio e
  let q := num / den
  match compare (2 * (num % den)) den with
  | .lt => q
  | .gt => q + 1
  | .eq => q + q % 2

/-- The exponent of the leading decimal digit of a nonzero magnitude. The binary logarithm
    gives it up to one; the exact quotient decides. -/
def decade (x : Binary) : Int :=
  let guess := Int.fdiv (((x.mantissa.log2 : Int) + x.exponent) * 30103) 100000
  if x.quotient (guess + 1) > 0 then guess + 1
  else if x.quotient guess > 0 then guess
  else guess - 1

/-- Compares a decimal with `n * 2 ^ j`, exactly. -/
def compareWith (d : Decimal) (n : Nat) (j : Int) : Ordering :=
  compare (d.digits * Nat.pow 10 d.exponent.toNat * Nat.pow 2 (-j).toNat)
    (n * Nat.pow 2 j.toNat * Nat.pow 10 (-d.exponent).toNat)

/-- The decimal lies among the reals that round to `x`: between the midpoints to the two
    neighbours, the midpoints included exactly when the mantissa is even. -/
def readsBack (x : Binary) (d : Decimal) : Bool :=
  let low := 4 * x.mantissa - (if x.closeBelow then 1 else 2)
  let high := 4 * x.mantissa + 2
  let closed := x.mantissa % 2 = 0
  let above := match compareWith d low (x.exponent - 2) with
    | .gt => true
    | .eq => closed
    | .lt => false
  let below := match compareWith d high (x.exponent - 2) with
    | .lt => true
    | .eq => closed
    | .gt => false
  above && below

end Binary
end Collocation
