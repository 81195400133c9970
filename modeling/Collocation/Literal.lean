import Collocation.Number
import Collocation.Tensor
import Collocation.Text.Numeral
import Collocation.Text.Quoted

/-! # Literals

  Values as a caller writes them: nothing, truth values, integers, reals, texts, lists, records
  and ready arrays. Options and statistics pass through the library as literals; every other
  argument is read into a type of its own. -/

namespace Collocation

/-- A value as written. -/
inductive Literal (α : Type) where
  | null
  | truth (b : Bool)
  | whole (n : Int)
  | real (x : α)
  | text (s : String)
  | list (items : List (Literal α))
  | record (fields : List (String × Literal α))
  | array (t : Tensor α)

instance {α : Type} : Inhabited (Literal α) := ⟨.null⟩

namespace Literal

variable {α : Type}

/-- The name of a literal's type in messages. -/
def typeName : Literal α → String
  | .null => "NoneType"
  | .truth _ => "bool"
  | .whole _ => "int"
  | .real _ => "float"
  | .text _ => "str"
  | .list _ => "list"
  | .record _ => "dict"
  | .array _ => "ndarray"

/-- A truth value as written. -/
def truthText (b : Bool) : String := if b then "True" else "False"

mutual

/-- The literal as it is written inside messages and other literals. -/
def written [Number α] : Literal α → String
  | .null => "None"
  | .truth b => truthText b
  | .whole n => toString n
  | .real x => Number.text x
  | .text s => Text.quoted s
  | .list items => Text.listed "[" (writtenItems items) "]"
  | .record fields => Text.listed "\x7b" (writtenFields fields) "\x7d"
  | .array t => "array" ++ Text.listed "([" (t.data.toList.map Number.text) "])"

def writtenItems [Number α] : List (Literal α) → List String
  | [] => []
  | item :: items => item.written :: writtenItems items

def writtenFields [Number α] : List (String × Literal α) → List String
  | [] => []
  | (name, value) :: fields => (Text.quoted name ++ ": " ++ value.written) :: writtenFields fields

end

/-- The literal as it is shown on its own: a text is shown bare. -/
def shown [Number α] : Literal α → String
  | .text s => s
  | l => l.written

/-- Whether the literal counts as true: everything does but nothing, zero and the empty. -/
def isTrue [Number α] : Literal α → Bool
  | .null => false
  | .truth b => b
  | .whole n => n ≠ 0
  | .real x => !Number.isZero x
  | .text s => !s.isEmpty
  | .list items => !items.isEmpty
  | .record fields => !fields.isEmpty
  | .array t => t.size ≠ 0

/-- The items of a list; those of an array along its first axis, as far as they are numbers. -/
def items? [Inhabited α] : Literal α → Option (List (Literal α))
  | .list items => some items
  | .array t =>
    match t.shape with
    | [] => none
    | [_] => some (t.written.toList.map .real)
    | n :: _ => some (List.replicate n (.array t))
  | _ => none

/-- What a literal is made of: the items of a list, the characters of a text, the names of a
    record. -/
def parts? : Literal α → Option (List (Literal α))
  | .list items => some items
  | .text s => some (s.toList.map fun c => .text (String.singleton c))
  | .record fields => some (fields.map fun field => .text field.1)
  | _ => none

/-- An array without dimensions as the number that it holds. -/
def unwrapped [Inhabited α] : Literal α → Literal α
  | .array t => if t.shape.isEmpty then .real (t.get 0) else .array t
  | l => l

end Literal

/-- A real number as written: a truth value, an integer or a number. -/
inductive Scalar (α : Type) where
  | truth (b : Bool)
  | whole (n : Int)
  | real (x : α)

namespace Scalar

variable {α : Type}

/-- A truth value counts as one or zero. -/
def truthInt (b : Bool) : Int := if b then 1 else 0

/-- The scalar that a literal is. -/
def ofLiteral? : Literal α → Option (Scalar α)
  | .truth b => some (.truth b)
  | .whole n => some (.whole n)
  | .real x => some (.real x)
  | _ => none

def toLiteral : Scalar α → Literal α
  | .truth b => .truth b
  | .whole n => .whole n
  | .real x => .real x

variable [Number α]

/-- The nearest number. -/
def value : Scalar α → α
  | .truth b => Number.ofInt (truthInt b)
  | .whole n => Number.ofInt n
  | .real x => x

def text (s : Scalar α) : String := s.toLiteral.written

/-- The order of two scalars, decided exactly; none next to an undefined value. -/
def compare? : Scalar α → Scalar α → Option Ordering
  | .real x, .real y =>
    if Number.below x y then some .lt else if Number.below y x then some .gt
    else if Number.equal x y then some .eq else none
  | .real x, .whole n => Number.compareInt? x n
  | .real x, .truth b => Number.compareInt? x (truthInt b)
  | .whole n, .real y => (Number.compareInt? y n).map Ordering.swap
  | .truth b, .real y => (Number.compareInt? y (truthInt b)).map Ordering.swap
  | .whole n, .whole m => some (compare n m)
  | .whole n, .truth b => some (compare n (truthInt b))
  | .truth b, .whole m => some (compare (truthInt b) m)
  | .truth a, .truth b => some (compare (truthInt a) (truthInt b))

/-- Strictly above. -/
def exceeds (s t : Scalar α) : Bool := s.compare? t == some .gt

/-- Equal in value. -/
def equals (s t : Scalar α) : Bool := s.compare? t == some .eq

end Scalar

/-- A literal equal to the given natural in value. -/
def Literal.isNat {α : Type} [Number α] (l : Literal α) (n : Nat) : Bool :=
  match Scalar.ofLiteral? l with
  | some s => s.equals (.whole n)
  | none => false

end Collocation
