import Collocation.Workspace.Problems
import Collocation.Workspace.Schemes
import Collocation.Workspace.Trajectories

/-! # Running commands

  One command after the other on a workspace. A command that is refused answers its fault and
  leaves the workspace as its completed steps left it. -/

namespace Collocation

variable {α : Type} [Number α]

namespace Workspace

/-- Runs a command. -/
def run : Command α → Session α (Reply α)
  | .newProblem name => do
    let name := name.getD "problem"
    pushProblem { name := name }
    return .text name
  | .settings configured fields => do
    let settings ← attempt (Settings.ofFields configured fields)
    modify fun w => { w with settings := settings }
    return .settings settings
  | .problem command => runProblem command
  | .scheme name command => runScheme name command
  | .trajectory name command => runTrajectory name command

/-- Runs commands one after the other and collects what they answer. -/
def runAll : List (Command α) → Workspace α → List (Except (Fault α) (Reply α))
  | [], _ => []
  | command :: commands, w =>
    match run command w with
    | .ok reply w => .ok reply :: runAll commands w
    | .error fault w => .error fault :: runAll commands w

end Workspace
end Collocation
