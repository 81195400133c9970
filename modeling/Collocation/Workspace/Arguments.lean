import Collocation.Workspace.Command
import Collocation.Workspace.Reply

/-! # Arguments and replies of several commands

  How bounds, matrices, arrays and trajectories are read from a command and shown again. -/

namespace Collocation

variable {α : Type} [Number α]

namespace Workspace

/-! ## Reading -/

/-- Bounds from a list of their arguments, which may be missing. -/
def readBounds (args : Literal α) : Except (Fault α) (Bounds α) :=
  match args, args.parts? with
  | .null, _ => .ok .unset
  | _, some args => Bounds.ofArguments args []
  | _, none => .error (.notIterable args.typeName)

/-- Bounds at the two ends; a parameter has none, whatever is written. -/
def readEndBounds (kind : ComponentKind) (initial final : Literal α) :
    Except (Fault α) (Bounds α × Bounds α) := do
  if kind = .parameter then return (.unset, .unset)
  return (← readBounds initial, ← readBounds final)

/-- An array as written, or none. -/
def readArray : Literal α → Except (Fault α) (Option (Tensor α))
  | .null => .ok none
  | l => some <$> l.toTensor

/-! ## Showing -/

/-- The reply that shows a trajectory, whose keys must be kinds. -/
def showTrajectory (t : Trajectory α) : Except (Fault α) (Reply α) := do
  return .trajectory (← t.values.toTable) t

/-- Enters a trajectory and shows it. -/
def enterTrajectory (name : String) (t : Trajectory α) : Session α (Reply α) := do
  putTrajectory name t
  attempt (showTrajectory t)

/-- A trajectory of the given class. An iterate has no statistics. -/
def makeTrajectory (trajectoryClass : TrajectoryClass) (values : Keyed α (Tensor α))
    (times : Tensor α) (names : Names) (stats : Option (Options α)) :
    Except (Fault α) (Trajectory α) :=
  match trajectoryClass, stats with
  | .iterate, none => .ok (.iterate values times names)
  | .iterate, some _ => .error .iterateStats
  | .solution, stats => Trajectory.solution values times names (stats.getD [])

end Workspace
end Collocation
