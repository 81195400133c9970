import Collocation.Literal.Numeric

/-! # Settings

  The choice of the backend, its options, and the range from which unbounded variables are
  drawn. Settings are read field by field, and all fields that are wrong are reported together.
  Unknown fields are ignored; a default needs no check. -/

namespace Collocation

variable {α : Type}

/-- Named options, in the order in which they were given. -/
abbrev Options (α : Type) := List (String × Literal α)

/-- Gives an option a value: in place of the earlier one, or else at the end. -/
def Options.insert (options : Options α) (name : String) (value : Literal α) : Options α :=
  match options with
  | [] => [(name, value)]
  | (name', value') :: rest =>
    if name' = name then (name, value) :: rest
    else (name', value') :: Options.insert rest name value

/-- The backend and how it is tuned. -/
structure Settings (α : Type) where
  solver : String
  pluginOptions : Options α
  solverOptions : Options α
  unboundedRange : α × α

namespace Settings

/-- The backend that is used when none is chosen. -/
def defaultSolver (configured : Option String) : String := configured.getD "ipopt"

variable [Number α]

/-- The settings without any choice made. -/
def standard (configured : Option String) : Settings α where
  solver := defaultSolver configured
  pluginOptions := [("print_time", .truth false), ("expand", .truth true)]
  solverOptions :=
    [("print_level", .whole 0), ("sb", .text "yes"), ("max_iter", .whole 1000),
     ("tol", .real (Number.ofDecimal 1 (-8))), ("linear_solver", .text "mumps")]
  unboundedRange := (-Number.one, Number.one)

/-! ## Fields -/

/-- A field that was read, or what is wrong with it and where below the field. -/
abbrev FieldResult (β : Type) := Except (List (List String × FieldFault)) β

def readSolver : Literal α → FieldResult String
  | .text s => if s.isEmpty then .error [([], .textTooShort)] else .ok s
  | _ => .error [([], .textExpected)]

def readOptions : Literal α → FieldResult (Options α)
  | .record fields => .ok fields
  | _ => .error [([], .recordExpected)]

/-- One end of a range. A text is a plain numeral. -/
def readEnd (l : Literal α) : Except FieldFault α :=
  match l.unwrapped with
  | .truth b => .ok (Number.ofInt (Scalar.truthInt b))
  | .whole n =>
    match realOfInt n with
    | .ok x => .ok x
    | .error _ => .error .numberExpected
  | .real x => .ok x
  | .text s =>
    match Text.readPlain? s with
    | some numeral => .ok numeral.value
    | none => .error .unreadableNumber
  | _ => .error .numberExpected

/-- The faults of the two ends of a range. -/
def endFaults (low high : Except FieldFault α) : List (List String × FieldFault) :=
  (match low with | .error fault => [(["0"], fault)] | .ok _ => []) ++
  (match high with | .error fault => [(["1"], fault)] | .ok _ => [])

/-- A range: two finite ends in order. -/
def readRange (l : Literal α) : FieldResult (α × α) :=
  match l.items? with
  | none => .error [([], .pairExpected)]
  | some [] => .error [(["0"], .missing), (["1"], .missing)]
  | some [low] => .error (endFaults (readEnd low) (.error .missing))
  | some [low, high] =>
    match readEnd low, readEnd high with
    | .ok low, .ok high =>
      if Number.isFinite low && Number.isFinite high && !Number.below high low then .ok (low, high)
      else .error [([], .badRange)]
    | low, high => .error (endFaults low high)
  | some _ => .error [([], .tooLong)]

/-- Reads one field, or takes its default; faults are reported below the field's name. -/
def readField {β : Type} (fields : Options α) (name : String) (fallback : β)
    (read : Literal α → FieldResult β) : FieldResult β :=
  match fields.lookup name with
  | none => .ok fallback
  | some l => (read l).mapError fun faults => faults.map fun (path, fault) => (name :: path, fault)

/-- The faults of a field. -/
def faultsOf {β : Type} : FieldResult β → List (List String × FieldFault)
  | .ok _ => []
  | .error faults => faults

/-- Settings from named fields. -/
def ofFields (configured : Option String) (fields : Options α) : Except (Fault α) (Settings α) :=
  let fallback : Settings α := .standard configured
  let solver := readField fields "optim_solver" fallback.solver readSolver
  let plugin := readField fields "plugin_options" fallback.pluginOptions readOptions
  let range := readField fields "random_unbounded_range" fallback.unboundedRange readRange
  let tuning := readField fields "solver_options" fallback.solverOptions readOptions
  match solver, plugin, tuning, range with
  | .ok solver, .ok plugin, .ok tuning, .ok range => .ok ⟨solver, plugin, tuning, range⟩
  | _, _, _, _ =>
    .error (.settings (faultsOf solver ++ faultsOf plugin ++ faultsOf range ++ faultsOf tuning))

/-- The options that the backend is created with: those of the plugin and, when there are any,
    the solver's own below the solver's name. -/
def backendOptions (settings : Settings α) : Options α :=
  if settings.pluginOptions.isEmpty then []
  else Options.insert settings.pluginOptions settings.solver (.record settings.solverOptions)

end Settings
end Collocation
