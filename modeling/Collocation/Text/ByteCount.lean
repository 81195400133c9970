/-! # Counts of bytes

  A number of bytes for a reader: in the largest binary unit that it reaches, with three
  significant digits, or with all digits of its whole part where that has more. -/

namespace Collocation.Text

/-- The binary units, each 1024 times the one before it. -/
def byteUnits : List String := ["bytes", "KiB", "MiB", "GiB", "TiB", "PiB", "EiB"]

/-- The quotient rounded to the nearest whole number, a half to the even one. -/
def roundedQuotient (n d : Nat) : Nat :=
  let q := n / d
  if 2 * (n % d) < d then q
  else if d < 2 * (n % d) then q + 1
  else q + q % 2

/-- The quotient with `places` digits after the point. -/
def fixedQuotient (n d places : Nat) : String :=
  let scale := Nat.pow 10 places
  let digits := toString (roundedQuotient (n * scale) d % scale)
  toString (roundedQuotient (n * scale) d / scale) ++ "."
    ++ String.ofList (List.replicate (places - digits.length) '0')
    ++ (if places = 0 then "" else digits)

/-- The quotient, which lies between 1 and 1000, with three significant digits. -/
def threeDigits (n d : Nat) : String :=
  if roundedQuotient (100 * n) d < 1000 then fixedQuotient n d 2
  else if roundedQuotient (10 * n) d < 1000 then fixedQuotient n d 1
  else fixedQuotient n d 0

/-- A number of bytes in a unit `1024 ^ unit` bytes large. -/
def inUnit (bytes unit : Nat) : String :=
  let size := Nat.pow 1024 unit
  let name := byteUnits.getD unit ""
  if unit = 0 then toString bytes ++ " " ++ name
  else if roundedQuotient bytes size < 1000 then threeDigits bytes size ++ " " ++ name
  else fixedQuotient bytes size 0 ++ " " ++ name

/-- A number of bytes. -/
def byteCount (bytes : Nat) : String :=
  let unit := max bytes.log2 1 / 10
  let unit := if roundedQuotient bytes (Nat.pow 1024 unit) = 1024 then unit + 1 else unit
  inUnit bytes (min unit (byteUnits.length - 1))

end Collocation.Text
