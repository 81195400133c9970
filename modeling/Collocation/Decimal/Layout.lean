import Collocation.Decimal.Shortest

/-! # Layout of decimals

  How chosen digits are laid out. A decimal whose leading digit stands for `10 ^ k` is written
  positionally when `-4 ≤ k < 16`, always with a point and at least one digit after it;
  otherwise it is written with one digit before the point and an exponent of a sign and at
  least two digits. -/

namespace Collocation

/-- A run of `n` zeros. -/
def zeroDigits (n : Nat) : String := String.ofList (List.replicate n '0')

namespace Decimal

/-- The exponent with its sign, in at least two digits. -/
def exponentText (k : Int) : String :=
  let digits := toString k.natAbs
  (if k < 0 then "-" else "+") ++ (if digits.length < 2 then "0" ++ digits else digits)

/-- The written form of a decimal. -/
def text (d : Decimal) : String :=
  if d.digits = 0 then "0.0" else
  let digits := toString d.digits
  let count := digits.length
  let lead := d.exponent + count - 1
  if -4 ≤ lead ∧ lead < 16 then
    if lead + 1 ≥ count then digits ++ zeroDigits (lead + 1 - count).toNat ++ ".0"
    else if lead ≥ 0 then
      (digits.take (lead + 1).toNat).copy ++ "." ++ (digits.drop (lead + 1).toNat).copy
    else "0." ++ zeroDigits (-lead - 1).toNat ++ digits
  else
    let head := (digits.take 1).copy
    let tail := (digits.drop 1).copy
    head ++ (if tail.isEmpty then "" else "." ++ tail) ++ "e" ++ exponentText lead

end Decimal

/-- Lays out a double whose nonzero magnitude is turned into digits by `digits`. -/
def Float.layout (digits : Binary → Decimal) (x : Float) : String :=
  if x.isNaN then "nan"
  else
    let sign := if x.toBits >>> 63 = 1 then "-" else ""
    if x.isInf then sign ++ "inf"
    else
      let magnitude := Binary.ofBits x.toBits
      sign ++ (if magnitude.mantissa = 0 then "0.0" else (digits magnitude).text)

/-- The shortest text that reads back as the same double. -/
def Float.shortestText (x : Float) : String := Float.layout Binary.shortest x

/-- The text of a double rounded to nine significant digits, or to eight decimals below one. -/
def Float.roundedText (x : Float) : String := Float.layout Binary.nineDigits x

end Collocation
