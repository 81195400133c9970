import Collocation.Scheme.Program

/-! # Scripted backends

  A backend that does as it is told: it answers a vector that was fixed beforehand or follows
  from the program it is given, or it fails. -/

namespace Collocation

variable {α : Type}

/-- The vector that a scripted backend answers. -/
inductive ScriptedVector (α : Type) where
  | start
  /-- The start moved into the bounds. -/
  | clipped
  | given (x : Literal α)

/-- What a scripted backend does. -/
structure Script (α : Type) where
  vector : ScriptedVector α
  stats : Options α
  failure : Option (BackendFailure α)

namespace Script

variable [Number α]

/-- The start moved into the bounds, element by element. -/
def clip (program : Program α) : Except (Fault α) (Array α) :=
  let n := program.start.size
  match repeatTo? n program.lower, repeatTo? n program.upper with
  | none, _ => .error (.shapesNotBroadcastable [[n], [program.lower.size]])
  | some _, none => .error (.shapesNotBroadcastable [[n], [program.upper.size]])
  | some lower, some upper =>
    .ok (Array.ofFn fun i : Fin n =>
      Number.clamp (lower.getD i.val default) (upper.getD i.val default)
        (program.start.getD i.val default))

/-- The vector that a script answers to a program. -/
def answer (script : Script α) (program : Program α) : Except (Fault α) (Array α) :=
  match script.vector with
  | .start => .ok program.start
  | .clipped => clip program
  | .given x => x.toVector

/-- The backend that follows a script. -/
def backend (script : Script α) : Backend α := fun program =>
  match script.failure with
  | some failure => .error failure
  | none =>
    match script.answer program with
    | .ok x => .ok ⟨x, script.stats⟩
    | .error fault => .error (.other fault)

end Script
end Collocation
