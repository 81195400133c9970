import Collocation.Kind

/-! # Tables

  At most one value for each kind of decision variable. A table is what its look-ups say: every
  operation is given by the look-ups of its result, and two tables with the same look-ups are
  equal. Listings follow the order of the kinds. -/

namespace Collocation

/-- At most one value for each kind. -/
structure Table (β : Type) where
  initialTime : Option β := none
  finalTime : Option β := none
  states : Option β := none
  controls : Option β := none
  multipliers : Option β := none
  derivatives : Option β := none
  slacks : Option β := none
  parameters : Option β := none

namespace Table

variable {β γ ε : Type}

/-! ## Look-ups -/

/-- The value of a kind. -/
def find? (t : Table β) : Kind → Option β
  | .initialTime => t.initialTime
  | .finalTime => t.finalTime
  | .states => t.states
  | .controls => t.controls
  | .multipliers => t.multipliers
  | .derivatives => t.derivatives
  | .slacks => t.slacks
  | .parameters => t.parameters

/-- The table with the given look-ups. -/
def ofFn (f : Kind → Option β) : Table β :=
  ⟨f .initialTime, f .finalTime, f .states, f .controls, f .multipliers, f .derivatives,
    f .slacks, f .parameters⟩

@[simp] theorem find?_ofFn (f : Kind → Option β) (k : Kind) : (ofFn f).find? k = f k := by
  cases k <;> rfl

@[ext] theorem ext_find? {t u : Table β} (h : ∀ k, t.find? k = u.find? k) : t = u := by
  cases t
  cases u
  have initialTime := h .initialTime
  have finalTime := h .finalTime
  have states := h .states
  have controls := h .controls
  have multipliers := h .multipliers
  have derivatives := h .derivatives
  have slacks := h .slacks
  have parameters := h .parameters
  simp_all [find?]

/-- The table in which every kind has a value. -/
def full (f : Kind → β) : Table β := ofFn fun k => some (f k)

def contains (t : Table β) (k : Kind) : Bool := (t.find? k).isSome

/-! ## Changes -/

/-- The table without values. -/
def empty : Table β := ofFn fun _ => none

/-- Gives a kind a value, in place of an earlier one. -/
def insert (t : Table β) (k : Kind) (v : β) : Table β :=
  ofFn fun k' => if k' = k then some v else t.find? k'

/-- Takes a kind's value away. -/
def erase (t : Table β) (k : Kind) : Table β := ofFn fun k' => if k' = k then none else t.find? k'

/-- A value for every value, from the kind and the value. -/
def map (f : Kind → β → γ) (t : Table β) : Table γ := ofFn fun k => (t.find? k).map (f k)

@[simp] theorem find?_full (f : Kind → β) (k : Kind) : (full f).find? k = some (f k) := by
  simp [full]

@[simp] theorem find?_empty (k : Kind) : (empty : Table β).find? k = none := by
  simp [empty]

@[simp] theorem find?_insert_self (t : Table β) (k : Kind) (v : β) :
    (t.insert k v).find? k = some v := by
  simp [insert]

@[simp] theorem find?_insert_ne (t : Table β) {k k' : Kind} (v : β) (h : k' ≠ k) :
    (t.insert k v).find? k' = t.find? k' := by
  simp [insert, h]

@[simp] theorem find?_erase_self (t : Table β) (k : Kind) : (t.erase k).find? k = none := by
  simp [erase]

@[simp] theorem find?_erase_ne (t : Table β) {k k' : Kind} (h : k' ≠ k) :
    (t.erase k).find? k' = t.find? k' := by
  simp [erase, h]

@[simp] theorem find?_map (f : Kind → β → γ) (t : Table β) (k : Kind) :
    (t.map f).find? k = (t.find? k).map (f k) := by
  simp [map]

/-! ## Listings -/

/-- The entries in the order of the kinds. -/
def toList (t : Table β) : List (Kind × β) :=
  Kind.all.filterMap fun k => (t.find? k).map fun v => (k, v)

/-- Enters all values in turn. -/
def ofList (entries : List (Kind × β)) : Table β :=
  entries.foldl (fun t entry => t.insert entry.1 entry.2) empty

/-- A value for every value, in the order of the kinds, unless one is refused. -/
def mapExcept (f : Kind → β → Except ε γ) (t : Table β) : Except ε (Table γ) := do
  let entries ← t.toList.mapM fun (k, v) => do return (k, ← f k v)
  return ofList entries

end Table
end Collocation
