import Collocation.Literal.Numeric

/-! # Bounds

  A lower and an upper bound on a variable, or no bounds at all. A single value pins the
  variable; an upper bound needs a lower one. The two are kept as they were written, compared
  exactly, and read as numbers when they are applied. -/

namespace Collocation

variable {α : Type}

/-- Bounds on one variable. -/
inductive Bounds (α : Type) where
  | unset
  | between (lower upper : Scalar α)

namespace Bounds

instance : Inhabited (Bounds α) := ⟨.unset⟩

def isSet : Bounds α → Bool
  | unset => false
  | between _ _ => true

variable [Number α]

/-- Bounds between two written numbers: neither is undefined and the lower one comes first. -/
def make (lower upper : Literal α) : Except (Fault α) (Bounds α) := do
  let lower := lower.unwrapped
  let upper := upper.unwrapped
  let low ← lower.toNumber
  if Number.isUndefined low then throw .undefinedBound
  let high ← upper.toNumber
  if Number.isUndefined high then throw .undefinedBound
  match Scalar.ofLiteral? lower, Scalar.ofLiteral? upper with
  | some lower, some upper =>
    if lower.exceeds upper then throw (.crossedBounds lower upper)
    return .between lower upper
  | _, _ => throw .undefinedBound

/-- Bounds from a lower and an upper literal, each possibly absent. -/
def ofOptional : Option (Literal α) → Option (Literal α) → Except (Fault α) (Bounds α)
  | none, none => .ok .unset
  | none, some _ => .error .upperWithoutLower
  | some lower, none => make lower lower
  | some lower, some upper => make lower upper

/-- A literal that may say nothing. -/
def given? : Literal α → Option (Literal α)
  | .null => none
  | l => some l

/-- A name must be that of a bound which is not given already. -/
def checkName (given : List Side) (name : String) : Except (Fault α) Unit :=
  match [Side.lower, .upper].find? fun side => side.name = name with
  | none => .error (.unknownBound name)
  | some side => if given.contains side then .error (.repeatedBound side) else .ok ()

/-- Bounds from the literals a caller gives in order, and those given by name. A wrong name is
    reported before a wrong number of bounds. -/
def ofArguments (args : List (Literal α)) (named : List (String × Literal α)) :
    Except (Fault α) (Bounds α) := do
  named.forM fun (name, _) => checkName ([Side.lower, .upper].take args.length) name
  if 2 < args.length then throw (.tooManyBounds args.length)
  let argument := fun (k : Nat) (side : Side) =>
    (args[k]?.orElse fun _ => named.lookup side.name).bind given?
  ofOptional (argument 0 .lower) (argument 1 .upper)

/-- The pair of numbers: infinite on both sides when unset. -/
def toPair : Bounds α → α × α
  | unset => (-Number.infinity, Number.infinity)
  | between lower upper => (lower.value, upper.value)

end Bounds
end Collocation
