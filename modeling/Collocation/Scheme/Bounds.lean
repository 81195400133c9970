import Collocation.Scheme

/-! # Bound tables

  The lower and upper bounds of the decision variables, element by element. Bounds are written
  into a block that rows and columns select; nothing else changes, and where a selection is
  refused nothing is written. A fresh scheme has the bounds of its problem: those along the way,
  then those at the initial and at the final grid point where they are set. -/

namespace Collocation

variable {α : Type}

namespace Tensor

/-- The tensor with the elements in the selected rows and columns replaced. -/
def assignBlock [Inhabited α] (t : Tensor α) (rows cols : List Nat) (x : α) : Tensor α :=
  .ofFn t.shape fun p =>
    match positionsAt t.shape p with
    | i :: j :: _ => if rows.contains i && cols.contains j then x else t.get p
    | _ => t.get p

/-- The size along an axis. -/
def axisSize (t : Tensor α) (axis : Nat) : Except (Fault α) Nat :=
  match t.shape[axis]? with
  | some n => .ok n
  | none => .error .tooFewDimensions

/-- Refuses rows and columns that lie outside of a tensor. -/
def checkBlock (t : Tensor α) (rows cols : List Nat) : Except (Fault α) Unit :=
  match t.shape with
  | m :: n :: _ =>
    if rows.isEmpty || cols.isEmpty then .ok ()
    else
      match rows.find? (m ≤ ·), cols.find? (n ≤ ·) with
      | some i, _ => .error (.indexOutOfBounds i 0 m)
      | none, some j => .error (.indexOutOfBounds j 1 n)
      | none, none => .ok ()
  | shape => .error (.tooManyIndices shape.length 2)

end Tensor

namespace Scheme

variable [Number α]

/-! ## Access -/

omit [Number α] in
def setSide (s : Scheme α) (which : Side) (t : Table (Tensor α)) : Scheme α :=
  match which with
  | .lower => { s with lower := t }
  | .upper => { s with upper := t }

omit [Number α] in
/-- The bounds of one side under keys of no kind. -/
def strays (s : Scheme α) : Side → Keyed α (Tensor α)
  | .lower => s.strayLower
  | .upper => s.strayUpper

omit [Number α] in
def setStrays (s : Scheme α) (which : Side) (entries : Keyed α (Tensor α)) : Scheme α :=
  match which with
  | .lower => { s with strayLower := entries }
  | .upper => { s with strayUpper := entries }

/-- The bounds of one side under a key. -/
def bound (s : Scheme α) (which : Side) (key : Key α) : Except (Fault α) (Tensor α) :=
  let found := match key.kind? with
    | some k => (s.side which).find? k
    | none => Keyed.find? (s.strays which) key
  match found with
  | some v => .ok v
  | none => .error key.missing

/-- Enters bounds of one side under a key. -/
def putBound (s : Scheme α) (which : Side) (key : Key α) (v : Tensor α) : Scheme α :=
  match key.kind? with
  | some k => s.setSide which ((s.side which).insert k v)
  | none => s.setStrays which (Keyed.insert (s.strays which) key v)

/-- Takes the bounds of one side under a key away. -/
def eraseBound (s : Scheme α) (which : Side) (key : Key α) : Scheme α :=
  match key.kind? with
  | some k => s.setSide which ((s.side which).erase k)
  | none => s.setStrays which (Keyed.erase (s.strays which) key)

/-! ## Writing -/

/-- Writes bounds into the block under a key that rows and columns select. -/
def writeBounds (key : Key α) (rows cols : Selector α) (bounds : Bounds α) : Building α Unit := do
  let s ← get
  let lower ← attempt (s.bound .lower key)
  let upper ← attempt (s.bound .upper key)
  let rows ← attempt (do rows.select (← lower.axisSize 0))
  let cols ← attempt (do cols.select (← lower.axisSize 1))
  if !rows.isVector || !cols.isVector then throw .crossIndexDimension
  let (low, high) := bounds.toPair
  modify fun s => s.putBound .lower key (lower.assignBlock rows.positions cols.positions low)
  attempt (upper.checkBlock rows.positions cols.positions)
  modify fun s => s.putBound .upper key (upper.assignBlock rows.positions cols.positions high)

/-- Writes one element of the bounds of one side. -/
def writeBound (which : Side) (key : Key α) (index : List Int) (value : Literal α) :
    Building α Unit := do
  let s ← get
  let old ← attempt (s.bound which key)
  set (s.putBound which key (← attempt (old.write index value)))

/-- The bounds when the scheme gives an array up: those that are this array stay as they are now,
    out of the scheme's reach. -/
def detach (s : Scheme α) (a : BoundArray) (v : BoundVector α) : BoundVector α :=
  if v.array = some a then s.current v else v

@[simp] theorem size_elements_detach (s : Scheme α) (a : BoundArray) (v : BoundVector α) :
    (s.detach a v).elements.size = v.elements.size := by
  unfold detach
  split
  · exact s.size_current v
  · rfl

/-- The block when the scheme gives an array up. -/
def detachBlock (s : Scheme α) (a : BoundArray) (b : Block α) : Block α where
  lower := s.detach a b.lower
  upper := s.detach a b.upper
  equations := b.equations
  size := b.size
  size_lower := by rw [size_elements_detach, b.size_lower]
  size_upper := by rw [size_elements_detach, b.size_upper]

/-- Gives up the array of one side under a key. -/
def release (s : Scheme α) (which : Side) (key : Key α) : Scheme α :=
  match key.kind? with
  | some k => { s with blocks := s.blocks.map (s.detachBlock ⟨which, k⟩) }
  | none => s

/-- Gives a key a whole new array of bounds, or takes it away. Equations whose bounds are the old
    array keep it. -/
def replaceBounds (which : Side) (key : Key α) (value : Option (Tensor α)) : Building α Unit := do
  let s ← get
  match value with
  | some value => set ((s.release which key).putBound which key value)
  | none =>
    let _ ← attempt (s.bound which key)
    set ((s.release which key).eraseBound which key)

/-- Takes the decision variables of a kind away; their bounds stay. -/
def eraseVariables (key : Key α) : Building α Unit := do
  let s ← get
  match key.kind? with
  | some k =>
    if !s.extents.contains k then throw key.missing
    set { s with extents := s.extents.erase k }
  | none => throw key.missing

/-! ## The bounds of a problem -/

/-- One write of bounds. -/
structure BoundWrite (α : Type) where
  kind : Kind
  rows : Selector α
  cols : Selector α
  bounds : Bounds α

omit [Number α] in
/-- The writes for one component: along the way, then at the two ends where these are set. -/
def componentWrites (kind : Kind) (row : Nat) (c : Component α) : List (BoundWrite α) :=
  [⟨kind, .index row, .all, c.bounds⟩]
    ++ (if c.initial.isSet then [⟨kind, .index row, .index 0, c.initial⟩] else [])
    ++ (if c.final.isSet then [⟨kind, .index row, .index (-1), c.final⟩] else [])

omit [Number α] in
/-- The writes for all components of a kind. -/
def kindWrites (kind : Kind) (cs : List (Component α)) : List (BoundWrite α) :=
  cs.zipIdx.flatMap fun (c, row) => componentWrites kind row c

omit [Number α] in
/-- The writes for a whole problem, in order. -/
def problemWrites (p : Problem α) : List (BoundWrite α) :=
  [⟨.initialTime, .index 0, .index 0, p.initialTime⟩, ⟨.finalTime, .index 0, .index 0, p.finalTime⟩]
    ++ kindWrites .states p.states ++ kindWrites .controls p.controls
    ++ kindWrites .multipliers p.multipliers
    ++ [⟨.derivatives, .all, .all, p.derivativeBounds⟩]
    ++ p.parameters.zipIdx.map fun (c, row) => ⟨.parameters, .index row, .index 0, c.bounds⟩

/-- Makes the decision variables for a problem and gives them the problem's bounds. A scheme whose
    variables are made has no constraints yet. -/
def createVariables (p : Problem α) : Building α Unit := do
  let s ← get
  let extents ← attempt (extentsFor p s.gridPoints)
  set { s with
    extents := extents
    lower := extents.map fun _ (e : Extent) => .fill e.toList (-Number.infinity)
    upper := extents.map fun _ (e : Extent) => .fill e.toList Number.infinity }
  (problemWrites p).forM fun w => writeBounds (.kind w.kind) w.rows w.cols w.bounds

/-! ## Construction -/

/-- The scheme at the end of a construction that did not fail. -/
def built (action : Building α Unit) (s : Scheme α) : Except (Fault α) (Scheme α) :=
  match action s with
  | .ok _ s => .ok s
  | .error fault _ => .error fault

/-- A trapezoidal scheme; its grid is the mesh. -/
def trapezoidal (settings : Settings α) (p : Problem α) (mesh : Literal α) :
    Except (Fault α) (Scheme α) := do
  let mesh ← Mesh.ofLiteral mesh
  built (createVariables p) (.start (.trapezoidal mesh) settings mesh.size (some (.vector mesh)))

/-- A Hermite-Simpson scheme; its grid is the mesh with the midpoints of the intervals. -/
def hermiteSimpson (settings : Settings α) (p : Problem α) (mesh : Literal α)
    (tieControls : Bool) : Except (Fault α) (Scheme α) := do
  let mesh ← Mesh.ofLiteral mesh
  built (createVariables p)
    (.start (.hermiteSimpson mesh tieControls) settings (2 * mesh.size - 1)
      (some (.vector (withMidpoints mesh))))

/-- A scheme of a caller's own rule, with or without decision variables. -/
def custom (settings : Settings α) (p : Problem α) (hooks : Hooks α) (grid : Option (Tensor α))
    (gridPoints : Nat) (withVariables : Bool) : Except (Fault α) (Scheme α) :=
  let s := start (.custom hooks) settings gridPoints grid
  if withVariables then built (createVariables p) s else .ok s

end Scheme
end Collocation
