/-! # Kinds of decision variables

  The eight kinds of decision variables, in the order in which the decision vector stacks
  them. -/

namespace Collocation

/-- A kind of decision variable. Every kind is a matrix with components as rows. -/
inductive Kind where
  | initialTime
  | finalTime
  | states
  | controls
  | multipliers
  | derivatives
  | slacks
  | parameters
  deriving Repr, DecidableEq

namespace Kind

/-- All kinds in the order of the decision vector. -/
def all : List Kind :=
  [.initialTime, .finalTime, .states, .controls, .multipliers, .derivatives, .slacks, .parameters]

/-- The place of a kind in the decision vector. -/
def index : Kind → Nat
  | initialTime => 0
  | finalTime => 1
  | states => 2
  | controls => 3
  | multipliers => 4
  | derivatives => 5
  | slacks => 6
  | parameters => 7

def name : Kind → String
  | initialTime => "initial_time"
  | finalTime => "final_time"
  | states => "states"
  | controls => "controls"
  | multipliers => "multipliers"
  | derivatives => "derivatives"
  | slacks => "slacks"
  | parameters => "parameters"

/-- The name in capitals, as listings and messages show it. -/
def capitals : Kind → String
  | initialTime => "INITIAL_TIME"
  | finalTime => "FINAL_TIME"
  | states => "STATES"
  | controls => "CONTROLS"
  | multipliers => "MULTIPLIERS"
  | derivatives => "DERIVATIVES"
  | slacks => "SLACKS"
  | parameters => "PARAMETERS"

/-- The kind with a name. -/
def ofName? (s : String) : Option Kind := all.find? fun k => k.name = s

/-- The kinds with one column for every grid point. -/
def onGrid : Kind → Bool
  | states | controls | multipliers | derivatives | slacks => true
  | initialTime | finalTime | parameters => false

end Kind

end Collocation
