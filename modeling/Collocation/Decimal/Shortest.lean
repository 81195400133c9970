import Collocation.Decimal.Binary

/-! # Shortest decimals

  The decimal that is written for a double: the fewest digits that read back as the same
  double, and of those the nearest one, a tie going to the even digit. The search tries the
  grids of one, two, … seventeen digits; on a grid only the two neighbours of the value can be
  the answer. -/

namespace Collocation

/-- Trailing zeros of the digits move to the exponent, for at most `fuel` of them. -/
def Decimal.strip (d : Decimal) : Nat → Decimal
  | 0 => d
  | fuel + 1 =>
    if d.digits ≠ 0 ∧ d.digits % 10 = 0 then
      Decimal.strip ⟨d.digits / 10, d.exponent + 1⟩ fuel
    else d

namespace Binary

/-- The exact value as a decimal. -/
def exact (x : Binary) : Decimal :=
  if x.exponent ≥ 0 then ⟨x.mantissa * Nat.pow 2 x.exponent.toNat, 0⟩
  else ⟨x.mantissa * Nat.pow 5 (-x.exponent).toNat, x.exponent⟩

/-- The better of the two neighbours of `x` on the grid `10 ^ e`, if one of them reads back. -/
def onGrid? (x : Binary) (e : Int) : Option Decimal :=
  let floor := x.quotient e
  let lower : Decimal := ⟨floor, e⟩
  let upper : Decimal := ⟨floor + 1, e⟩
  match x.readsBack lower, x.readsBack upper with
  | false, false => none
  | true, false => some lower
  | false, true => some upper
  | true, true => some ⟨x.roundQuotient e, e⟩

/-- The shortest decimal that reads back as the nonzero magnitude `x`. -/
def shortest (x : Binary) : Decimal :=
  let e := x.decade
  match (List.range 17).findSome? fun (n : Nat) => x.onGrid? (e - n) with
  | some d => d.strip 20
  | none => x.exact.strip 800

/-- Nine significant digits from one upward, eight decimals below one. -/
def nineDigits (x : Binary) : Decimal :=
  let e := if x.integerPart > 0 then x.decade - 8 else -8
  Decimal.strip ⟨x.roundQuotient e, e⟩ 20

end Binary
end Collocation
