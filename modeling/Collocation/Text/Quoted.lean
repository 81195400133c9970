import Collocation.Text.Printable

/-! # Quoted text

  A text inside a message stands between single quotes, or between double quotes when it holds
  a single quote and no double one. Backslashes and the surrounding quote are escaped,
  line ends and tabs have their letters, and any other unprintable character is written by its
  code in two, four or eight hexadecimal digits. -/

namespace Collocation.Text

/-- A number in lower-case hexadecimal, padded to `width` digits. -/
def hexadecimal (width n : Nat) : List Char :=
  let digits := Nat.toDigits 16 n
  List.replicate (width - digits.length) '0' ++ digits

/-- One character of a text quoted by `quote`. -/
def quotedChar (quote c : Char) : List Char :=
  if c = quote ∨ c = '\\' then ['\\', c]
  else if c = '\n' then ['\\', 'n']
  else if c = '\r' then ['\\', 'r']
  else if c = '\t' then ['\\', 't']
  else if isPrintable c then [c]
  else if c.toNat < 0x100 then ['\\', 'x'] ++ hexadecimal 2 c.toNat
  else if c.toNat < 0x10000 then ['\\', 'u'] ++ hexadecimal 4 c.toNat
  else ['\\', 'U'] ++ hexadecimal 8 c.toNat

/-- The quote that surrounds a text. -/
def quoteFor (cs : List Char) : Char :=
  if cs.contains '\'' && !cs.contains '"' then '"' else '\''

/-- The text as it stands in a message. -/
def quoted (s : String) : String :=
  let cs := s.toList
  let quote := quoteFor cs
  String.ofList (quote :: cs.flatMap (quotedChar quote) ++ [quote])

/-- Items in brackets, separated by commas. -/
def listed (opening : String) (items : List String) (closing : String) : String :=
  opening ++ ", ".intercalate items ++ closing

/-- A shape: sizes in parentheses, a single one followed by a comma. -/
def shape (sizes : List Nat) : String :=
  match sizes with
  | [n] => listed "(" [toString n] ",)"
  | _ => listed "(" (sizes.map toString) ")"

/-- A shape without blanks. -/
def compactShape (sizes : List Nat) : String :=
  String.ofList ((shape sizes).toList.filter (· ≠ ' '))

end Collocation.Text
