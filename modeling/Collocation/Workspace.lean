import Collocation.Scheme.Script

/-! # Workspaces

  What a caller works on: problems, of which one is current, settings for the schemes to come,
  and schemes and trajectories under names. A scheme keeps to the problem it was made for, and
  sees what is declared there later. -/

namespace Collocation

variable {α : Type}

/-- A scheme and the number of the problem it was made for. -/
structure OwnedScheme (α : Type) where
  problem : Nat
  scheme : Scheme α

/-- Problems, schemes and trajectories. -/
structure Workspace (α : Type) where
  problems : Array (Problem α)
  /-- The number of the current problem. -/
  current : Nat
  settings : Settings α
  schemes : List (String × OwnedScheme α)
  trajectories : List (String × Trajectory α)

/-- Actions on a workspace. What an action did before it failed remains done. -/
abbrev Session (α β : Type) := EStateM (Fault α) (Workspace α) β

namespace Workspace

/-- A workspace with one problem that declares nothing. -/
def start [Number α] (configuredSolver : Option String) : Workspace α where
  problems := #[{ name := "problem" }]
  current := 0
  settings := .standard configuredSolver
  schemes := []
  trajectories := []

/-! ## Values under names -/

/-- Enters a value under a name, in place of an earlier one. -/
def enter {β : Type} (entries : List (String × β)) (name : String) (v : β) : List (String × β) :=
  (name, v) :: entries.filter fun entry => entry.1 ≠ name

/-- The value under a name. -/
def named {β : Type} (entries : List (String × β)) (name : String) : Except (Fault α) β :=
  match entries.lookup name with
  | some v => .ok v
  | none => .error (.unknownName name)

/-- The problem with a number. -/
def problem (w : Workspace α) (i : Nat) : Problem α := w.problems.getD i { name := "problem" }

/-- The current problem. -/
def currentProblem (w : Workspace α) : Problem α := w.problem w.current

/-! ## Actions -/

/-- Makes a new problem the current one. -/
def pushProblem (p : Problem α) : Session α Unit :=
  modify fun w => { w with problems := w.problems.push p, current := w.problems.size }

/-- Changes the current problem, unless the change is refused. -/
def changeProblem (change : Problem α → Except (Fault α) (Problem α)) : Session α Unit := do
  let w ← get
  let p ← attempt (change w.currentProblem)
  set { w with problems := w.problems.setIfInBounds w.current p }

/-- A trajectory by its name. -/
def trajectory (name : String) : Session α (Trajectory α) := do
  attempt (named (← get).trajectories name)

def putTrajectory (name : String) (t : Trajectory α) : Session α Unit :=
  modify fun w => { w with trajectories := enter w.trajectories name t }

/-- A scheme by its name, and its problem. -/
def scheme (name : String) : Session α (Problem α × Scheme α) := do
  let w ← get
  let owned ← attempt (named w.schemes name)
  return (w.problem owned.problem, owned.scheme)

/-- Enters a scheme for the current problem. -/
def putScheme (name : String) (s : Scheme α) : Session α Unit :=
  modify fun w => { w with schemes := enter w.schemes name ⟨w.current, s⟩ }

/-- Runs an action on the scheme of a name. What the action did before it failed remains done. -/
def onScheme {β : Type} (name : String) (action : Problem α → Building α β) : Session α β := do
  let w ← get
  let owned ← attempt (named w.schemes name)
  let keep := fun s => { w with schemes := enter w.schemes name { owned with scheme := s } }
  match action (w.problem owned.problem) owned.scheme with
  | .ok v s =>
    set (keep s)
    return v
  | .error fault s =>
    set (keep s)
    throw fault

end Workspace
end Collocation
