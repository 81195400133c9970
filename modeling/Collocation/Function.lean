import Collocation.Expression.Term

/-! # Functions

  A user's term, named and with the sizes of its inputs declared. A function is built once, when
  its body is checked and its name is looked at; calling it puts arguments in place of the
  inputs. An argument of the declared size is taken as it is, a single element is repeated, an
  empty argument counts as zeros, and a row may stand for a column.

  Numeric arguments may hold several values side by side: then the function is evaluated once
  for each of them, and the other arguments serve all evaluations. -/

namespace Collocation

/-- A finite list of inputs with names. -/
class Inputs (ι : Type) where
  all : List ι
  ofName? : String → Option ι

/-- A checked, named expression over inputs. -/
structure Function (ι α : Type) where
  name : String
  inputs : ι → Extent
  body : Expr ι α
  extent : Extent

/-! ## Arguments -/

section Arguments

variable {σ α : Type} [Number α]

/-- A vector that becomes the declared one by turning it. -/
def turns (declared extent : Extent) : Bool :=
  (extent.rows = 1 || extent.cols = 1) && extent.transpose = declared

/-- An argument made to fit the declared size. -/
def Sized.fit? (declared : Extent) (arg : Sized σ α) : Option (Expr σ α) :=
  if arg.extent = declared then some arg.expr
  else if arg.extent.isEmpty then some (.constant declared Number.zero)
  else if arg.extent = .unit then some (arg.spread declared).expr
  else if turns declared arg.extent then some arg.transpose.expr
  else none

/-- A numeric argument made to fit the declared size: its value for every evaluation. -/
def Matrix.fit? (declared : Extent) (arg : Matrix α) : Option (List (Matrix α)) :=
  if arg.extent = declared then some [arg]
  else if arg.extent.isEmpty then some [.fill declared Number.zero]
  else if arg.extent = .unit then some [.fill declared (arg.get 0)]
  else if turns declared arg.extent then some [arg.transpose]
  else if Sized.repeats declared arg.extent then
    some ((List.range (arg.cols / declared.cols)).map fun k =>
      arg.slice declared (k * declared.size))
  else none

end Arguments

namespace Function

variable {ι σ α : Type}

/-! ## Building -/

/-- Characters that may stand in a function's name. -/
def nameChar (c : Char) : Bool := c.isAlphanum || c = '_'

/-- Letters, digits and single underscores. -/
def validName (name : String) : Bool :=
  name.toList.all nameChar && !Text.hasDoubleUnderscore name.toList

/-- A name as far as it is read: up to a character with code zero. -/
def readName (name : String) : String := String.ofList (name.toList.takeWhile (·.toNat ≠ 0))

/-- The function with the given body. -/
def make (name : String) (inputs : ι → Extent) (body : Sized ι α) :
    Except (Fault α) (Function ι α) :=
  if validName (readName name) then .ok ⟨readName name, inputs, body.expr, body.extent⟩
  else .error .expression

variable [Number α]

/-- A user's term over the inputs as a column. -/
def columnOf [Inputs ι] [DecidableEq ι] (inputs : ι → Extent) (body : Term α) :
    Except (Fault α) (Sized ι α) := do
  let e ← body.build fun s => (Inputs.ofName? s).map fun i => Sized.symbol i (inputs i)
  return e.vec

/-- The function whose body is a user's term, read as a column. -/
def ofBody [Inputs ι] [DecidableEq ι] (name : String) (inputs : ι → Extent) (body : Term α) :
    Except (Fault α) (Function ι α) := do
  make name inputs (← columnOf inputs body)

/-! ## Calling -/

/-- The function's body with arguments in place of the inputs. -/
def call [Inputs ι] (f : Function ι α) (args : ι → Sized σ α) : Except (Fault α) (Sized σ α) :=
  if (Inputs.all : List ι).all fun i => ((args i).fit? (f.inputs i)).isSome then
    let fitted := fun i => ((args i).fit? (f.inputs i)).getD (args i).expr
    .ok ⟨.givenAll (Inputs.all.map fitted) (f.body.subst fitted), f.extent⟩
  else .error .expression

/-- The number of evaluations for arguments of the given numbers of values: every number above
    one is a multiple of those before it, and the last of them counts. -/
def evaluationCount? (counts : List Nat) : Option Nat :=
  counts.foldlM (fun n k => if k = 1 then some n else if k % n = 0 then some k else none) 1

/-- The values of the function at numeric arguments, one for each evaluation. -/
def evaluate [Inputs ι] (f : Function ι α) (args : ι → Matrix α) :
    Except (Fault α) (List (Matrix α)) :=
  if (Inputs.all : List ι).all fun i => ((args i).fit? (f.inputs i)).isSome then
    let fitted := fun i => ((args i).fit? (f.inputs i)).getD []
    match evaluationCount? (Inputs.all.map fun i => (fitted i).length) with
    | some count =>
      .ok ((List.range count).map fun k => f.body.eval fun i =>
        (fitted i).getD (k % (fitted i).length) (.column #[]))
    | none => .error .expression
  else .error .expression

end Function
end Collocation
