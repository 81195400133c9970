/-! # Numbers

  Every algorithm of the library is written over one class of numbers, so that the same
  definitions run on doubles and can be reasoned about in exact arithmetic. A number type
  has the four operations, an order and an equality that are false next to an undefined
  value, the two infinities, and the elementary functions that a user's expressions may
  apply. -/

namespace Collocation

/-- Elementary functions of one argument. -/
inductive Elementary where
  | sin
  | cos
  | tan
  | atan
  | exp
  | log
  | sqrt
  | abs
  | tanh
  deriving Repr, DecidableEq

/-- Numbers with infinities and an undefined value. -/
class Number (α : Type) extends Add α, Sub α, Mul α, Div α, Neg α where
  /-- The integer, or its nearest neighbour; beyond the range it is infinite. -/
  ofInt : Int → α
  /-- The number nearest to `digits * 10 ^ exponent`. -/
  ofDecimal : Nat → Int → α
  infinity : α
  undefined : α
  /-- Strictly below; false when a side is undefined. -/
  below : α → α → Bool
  /-- Equal in value; false when a side is undefined. -/
  equal : α → α → Bool
  /-- The integer part, toward zero, of a finite number. -/
  truncate? : α → Option Int
  apply : Elementary → α → α
  power : α → α → α
  /-- The written form. -/
  text : α → String

namespace Number

variable {α : Type} [Number α]

/-! ## Order and special values -/

/-- Below or equal. -/
def atMost (x y : α) : Bool := below x y || equal x y

def isUndefined (x : α) : Bool := !equal x x

def isFinite (x : α) : Bool := below (-infinity) x && below x infinity

/-- Zero in value, of either sign. -/
def isZero (x : α) : Bool := equal x (ofInt 0)

/-- The order of a number and an integer, decided without rounding the integer. -/
def compareInt? (x : α) (n : Int) : Option Ordering :=
  match truncate? x with
  | some t =>
    if t < n then some .lt
    else if n < t then some .gt
    else if below x (ofInt n) then some .lt
    else if below (ofInt n) x then some .gt
    else some .eq
  | none =>
    if isUndefined x then none
    else if below x (ofInt 0) then some .lt
    else some .gt

/-! ## Choosing between two numbers -/

/-- The smaller of two numbers; an undefined one gives way to the other. -/
def least (x y : α) : α :=
  if isUndefined x then y else if isUndefined y then x else if below y x then y else x

/-- The larger of two numbers; an undefined one gives way to the other. -/
def greatest (x y : α) : α :=
  if isUndefined x then y else if isUndefined y then x else if below x y then y else x

/-- The number moved into `[low, high]`; an undefined argument leaves an undefined result. -/
def clamp (low high x : α) : α :=
  let raised := if isUndefined x then x else if isUndefined low then low else
    if below x low then low else x
  if isUndefined raised then raised else if isUndefined high then high else
    if below high raised then high else raised

/-! ## Constants -/

def zero : α := ofInt 0

def one : α := ofInt 1

def half : α := ofInt 1 / ofInt 2

instance : Inhabited α := ⟨zero⟩

/-- The sum, from the left, starting at zero. -/
def sum (xs : List α) : α := xs.foldl (· + ·) zero

end Number
end Collocation
