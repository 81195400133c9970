import Collocation.Workspace.Arguments

/-! # Commands on trajectories

  A trajectory is entered under its name before it is shown, so one whose keys are no kinds is
  kept although it cannot be shown. -/

namespace Collocation

variable {α : Type} [Number α]

namespace Workspace

/-- The values under keys from which a trajectory is made. -/
def readVariables (values : List (Literal α × Literal α)) :
    Except (Fault α) (Keyed α (Tensor α)) := do
  let entries ← values.mapM fun (key, value) => do
    let value ← value.toTensor
    return (← Key.ofLiteral key, value)
  return Keyed.ofList entries

/-- The trajectory that is chosen. -/
def createTrajectory (choice : TrajectoryChoice α) : Except (Fault α) (Trajectory α) := do
  let values ← readVariables choice.values
  let times ← match choice.times with
    | some times => times.toTensor
    | none => pure (.vector #[])
  makeTrajectory choice.trajectoryClass values times choice.names choice.stats

/-- The times to which a trajectory is carried. -/
def readTimes : TimesSource α → Session α (Array α)
  | .elements l => attempt l.toVector
  | .trajectory name => do return (← trajectory name).times.written

/-- What is read from a trajectory. -/
def read (t : Trajectory α) : Reading → Except (Fault α) (Reply α)
  | .initialTime => .number <$> t.first .initialTime
  | .finalTime => .number <$> t.first .finalTime
  | .whole kind => .tensor <$> t.values.get kind
  | .row kind names name => do
    let row ← t.namedRow kind names name
    return if row.shape.isEmpty then .number (row.get 0) else .tensor row
  | .parameter name => .number <$> t.namedParameter name
  | .success =>
    match t.origin with
    | .iterate => .error .iterateSuccess
    | .solution stats =>
      .ok (.number (if Trajectory.success stats then Number.one else Number.zero))

/-- Changes a trajectory and shows it. -/
def changeTrajectory (name : String)
    (change : Trajectory α → Except (Fault α) (Trajectory α)) : Session α (Reply α) := do
  enterTrajectory name (← attempt (change (← trajectory name)))

/-- Runs a command on the trajectory of a name. -/
def runTrajectory (name : String) (command : TrajectoryCommand α) : Session α (Reply α) := do
  match command with
  | .create choice => enterTrajectory name (← attempt (createTrajectory choice))
  | .show => attempt (showTrajectory (← trajectory name))
  | .copy target => enterTrajectory target (← attempt (← trajectory name).copy)
  | .resample times target =>
    let times ← readTimes times
    let t ← trajectory name
    enterTrajectory target (← attempt (t.resample times))
  | .read what => attempt (read (← trajectory name) what)
  | .setElement key index value =>
    changeTrajectory name fun t => do t.setElement (← Key.ofLiteral key) index value
  | .setTime index value => changeTrajectory name fun t => t.setTime index value
  | .setVariable key value =>
    changeTrajectory name fun t => do t.setVariable key (← readArray value)
  | .setNames which value => changeTrajectory name fun t => t.setNames which value
  | .appendName which value => changeTrajectory name fun t => t.appendName which value
  | .flatten => return .vector (← attempt (← trajectory name).flatten)

end Workspace
end Collocation
