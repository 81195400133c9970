import Collocation.Fault
import Collocation.Text.UpperCase

/-! # Verbosity

  The level from which on messages are recorded. A level is named in any case; an empty or
  absent name stands for the configured one, and that for `WARNING`. -/

namespace Collocation.Verbosity

/-- The named levels, the most severe first. -/
def levels : List (String × Nat) :=
  [("CRITICAL", 50), ("FATAL", 50), ("ERROR", 40), ("WARNING", 30), ("WARN", 30), ("INFO", 20),
   ("DEBUG", 10), ("NOTSET", 0)]

variable {α : Type} [Number α]

/-- The level that a literal names. -/
def ofLiteral (configured : Option String) (level : Literal α) : Except (Fault α) Nat := do
  let level := if level.isTrue then level else .text (configured.getD "WARNING")
  match level with
  | .text s =>
    let name := Text.upper s
    match levels.lookup name with
    | some n => return n
    | none => throw (.unknownLevel name)
  | l => throw (.textExpected l.typeName)

end Collocation.Verbosity
