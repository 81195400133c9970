import Collocation.Number
import Collocation.Text.CharacterClass

/-! # Numerals

  Numbers written as text. Blanks around a numeral are ignored, digits of any script count, and
  a single underscore may stand between two digits. A real numeral is a decimal with an
  optional point and exponent, or one of the words for the infinities and the undefined value;
  a whole numeral is digits alone, and not more of them than `wholeLimit`.

  A plain numeral is a real one with digits of one script only. It has no underscores of its own,
  but where it cannot be read as it stands, single underscores inside of it are passed over. -/

namespace Collocation.Text

/-- What a numeral says, before it is rounded to a number. -/
inductive Numeral where
  | decimal (negative : Bool) (digits : Nat) (exponent : Int)
  | infinite (negative : Bool)
  | undefined
  deriving Repr, DecidableEq

/-- Reads a sign, if there is one. -/
def readSign : List Char → Bool × List Char
  | '-' :: rest => (true, rest)
  | '+' :: rest => (false, rest)
  | rest => (false, rest)

/-- Continues a run of digits: its value, its length and what follows. An underscore belongs to
    the run when a digit comes next. -/
def continueDigits (value count : Nat) : List Char → Nat × Nat × List Char
  | '_' :: d :: rest =>
    match digitValue? d with
    | some v => continueDigits (value * 10 + v) (count + 1) rest
    | none => (value, count, '_' :: d :: rest)
  | d :: rest =>
    match digitValue? d with
    | some v => continueDigits (value * 10 + v) (count + 1) rest
    | none => (value, count, d :: rest)
  | [] => (value, count, [])

/-- Reads a run of digits that starts with a digit: the run so far has value `value`. -/
def readDigits (value : Nat) : List Char → Nat × Nat × List Char
  | '_' :: rest => (value, 0, '_' :: rest)
  | cs => continueDigits value 0 cs

/-- Reads the exponent that ends a decimal, or the end itself. -/
def readExponent? : List Char → Option Int
  | [] => some 0
  | c :: rest =>
    if c = 'e' ∨ c = 'E' then
      let (negative, rest) := readSign rest
      match readDigits 0 rest with
      | (_, 0, _) => none
      | (v, _, []) => some (if negative then -(v : Int) else v)
      | _ => none
    else none

/-- Reads an unsigned decimal. -/
def readDecimal? (negative : Bool) (cs : List Char) : Option Numeral :=
  let (whole, wholeCount, rest) := readDigits 0 cs
  let (digits, fractionCount, rest) := match rest with
    | '.' :: rest => readDigits whole rest
    | rest => (whole, 0, rest)
  if wholeCount + fractionCount = 0 then none
  else (readExponent? rest).map fun e => .decimal negative digits (e - fractionCount)

/-- Reads one of the words for the infinities and the undefined value. -/
def readWord? (negative : Bool) (cs : List Char) : Option Numeral :=
  let word := String.ofList (cs.map Char.toLower)
  if word = "inf" ∨ word = "infinity" then some (.infinite negative)
  else if word = "nan" then some .undefined
  else none

/-- Reads a real numeral. -/
def readReal? (s : String) : Option Numeral :=
  let (negative, rest) := readSign (trimBlanks s.toList)
  (readWord? negative rest).orElse fun _ => readDecimal? negative rest

/-! ## Whole numerals -/

/-- Why a text is no whole numeral. -/
inductive WholeFault where
  | malformed
  /-- More digits than are read. -/
  | tooLong (digits : Nat)
  deriving Repr, DecidableEq

/-- The largest number of digits of a whole numeral. -/
def wholeLimit : Nat := 4300

/-- Reads a whole numeral. Its digits are counted before what follows them is looked at, unless
    an underscore is out of place. -/
def readWhole (s : String) : Except WholeFault Int :=
  let (negative, rest) := readSign (trimBlanks s.toList)
  match readDigits 0 rest with
  | (_, 0, _) | (_, _, '_' :: _) => .error .malformed
  | (v, count, rest) =>
    if wholeLimit < count then .error (.tooLong count)
    else if rest.isEmpty then .ok (if negative then -(v : Int) else v)
    else .error .malformed

/-! ## Plain numerals -/

/-- The plain digits in front, and what follows them. -/
def splitDigits (cs : List Char) : List Char × List Char :=
  (cs.takeWhile Char.isDigit, cs.dropWhile Char.isDigit)

/-- The value of a run of plain digits. -/
def plainValue (digits : List Char) : Nat :=
  digits.foldl (fun n d => n * 10 + (d.toNat - '0'.toNat)) 0

/-- Reads the exponent that ends a plain decimal, or the end itself. -/
def readPlainExponent? : List Char → Option Int
  | [] => some 0
  | c :: rest =>
    let (negative, digits) := readSign rest
    if (c = 'e' ∨ c = 'E') ∧ !digits.isEmpty ∧ digits.all Char.isDigit then
      some (if negative then -(plainValue digits : Int) else plainValue digits)
    else none

/-- Reads a plain numeral as it stands. -/
def readPlainAsIs? (cs : List Char) : Option Numeral :=
  let (negative, rest) := readSign cs
  (readWord? negative rest).orElse fun _ =>
    let (whole, rest) := splitDigits rest
    let (fraction, rest) := match rest with
      | '.' :: rest => splitDigits rest
      | rest => ([], rest)
    if whole.isEmpty && fraction.isEmpty then none
    else (readPlainExponent? rest).map fun e =>
      .decimal negative (plainValue (whole ++ fraction)) (e - fraction.length)

/-- Two underscores in a row occur. -/
def hasDoubleUnderscore : List Char → Bool
  | '_' :: '_' :: _ => true
  | _ :: rest => hasDoubleUnderscore rest
  | [] => false

/-- Reads a plain numeral: without the blanks around it, or else with the blanks and without its
    underscores. -/
def readPlain? (s : String) : Option Numeral :=
  let cs := s.toList
  (readPlainAsIs? (trimBlanks cs)).orElse fun _ =>
    if cs.head? = some '_' ∨ cs.getLast? = some '_' ∨ hasDoubleUnderscore cs then none
    else readPlainAsIs? (cs.filter (· ≠ '_'))

/-- The number nearest to what a numeral says. -/
def Numeral.value {α : Type} [Number α] : Numeral → α
  | .decimal negative digits exponent =>
    let magnitude : α := Number.ofDecimal digits exponent
    if negative then -magnitude else magnitude
  | .infinite negative => if negative then -Number.infinity else Number.infinity
  | .undefined => Number.undefined

end Collocation.Text
