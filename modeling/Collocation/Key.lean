import Collocation.Fault
import Collocation.Table

/-! # Keys

  What a caller puts in front of a value to say which kind of decision variable it is. The name
  of a kind and any number equal to its index are that kind; every other literal is kept, and
  reported when the kinds are needed. A key remembers how it was written, which shows only in
  messages. -/

namespace Collocation

/-- A kind, or a literal that is none. -/
inductive Key (α : Type) where
  | kind (k : Kind)
  /-- The kind whose index equals the number that was written. -/
  | index (k : Kind) (written : Literal α)
  | other (l : Literal α)

namespace Key

variable {α : Type}

/-- The kind that a key is. -/
def kind? : Key α → Option Kind
  | kind k | index k _ => some k
  | other _ => none

/-- The kind behind a key. -/
def toKind (key : Key α) : Except (Fault α) Kind :=
  match key with
  | kind k | index k _ => .ok k
  | other l => .error (.invalidKey l)

/-- The fault of looking up a key that has no entry. -/
def missing : Key α → Fault α
  | kind k => .missingKind k
  | index _ l | other l => .missingKey l

variable [Number α]

/-- The kind whose index a scalar equals. -/
def kindOfScalar? (s : Scalar α) : Option Kind :=
  Kind.all.find? fun k => s.equals (.whole k.index)

/-- The key that a literal is; lists and records cannot be keys. -/
def ofLiteral : Literal α → Except (Fault α) (Key α)
  | .text s => .ok (match Kind.ofName? s with | some k => .kind k | none => .other (.text s))
  | .list items => .error (.unhashable (Literal.typeName (.list items)))
  | .record fields => .error (.unhashable (Literal.typeName (.record fields)))
  | l =>
    .ok (match (Scalar.ofLiteral? l).bind kindOfScalar? with
      | some k => .index k l
      | none => .other l)

/-- The literal is a whole number: the name of a kind stands for its index. -/
def whole? : Literal α → Option Int
  | .text s => (Kind.ofName? s).map fun k => (k.index : Int)
  | .truth b => some (Scalar.truthInt b)
  | .whole n => some n
  | _ => none

/-- Two literals are one key. -/
def sameLiteral : Literal α → Literal α → Bool
  | .null, .null => true
  | .text s, .text t => s = t
  | l, m =>
    match Scalar.ofLiteral? l, Scalar.ofLiteral? m with
    | some s, some t => s.equals t
    | _, _ => false

/-- Two keys are one: the same kind, or literals that are one key. -/
def same : Key α → Key α → Bool
  | other l, other m => sameLiteral l m
  | key, key' =>
    match key.kind?, key'.kind? with
    | some k, some k' => k = k'
    | _, _ => false

end Key

/-! ## Values under keys -/

/-- Values under keys, in the order in which they were entered. -/
abbrev Keyed (α β : Type) := List (Key α × β)

namespace Keyed

variable {α β : Type} [Number α]

/-- Enters a value: in place of the key's earlier one, or else at the end. -/
def insert (entries : Keyed α β) (key : Key α) (v : β) : Keyed α β :=
  match entries with
  | [] => [(key, v)]
  | (key', v') :: rest =>
    if key'.same key then (key', v) :: rest else (key', v') :: Keyed.insert rest key v

/-- Enters all values in turn. -/
def ofList (entries : List (Key α × β)) : Keyed α β :=
  entries.foldl (fun acc entry => Keyed.insert acc entry.1 entry.2) []

def find? (entries : Keyed α β) (key : Key α) : Option β :=
  (List.find? (fun entry => entry.1.same key) entries).map (·.2)

/-- The value of a kind. -/
def get (entries : Keyed α β) (k : Kind) : Except (Fault α) β :=
  match Keyed.find? entries (.kind k) with
  | some v => .ok v
  | none => .error (.missingKind k)

def erase (entries : Keyed α β) (key : Key α) : Keyed α β :=
  List.filter (fun entry => !entry.1.same key) entries

/-- The entries whose keys are no kinds. -/
def strays (entries : Keyed α β) : Keyed α β :=
  List.filter (fun entry => entry.1.kind?.isNone) entries

/-- The table of the entries; the first key that is no kind is reported. -/
def toTable (entries : Keyed α β) : Except (Fault α) (Table β) := do
  let entries ← entries.mapM fun (key, v) => do return (← key.toKind, v)
  return Table.ofList entries

/-- The entries of a table. -/
def ofTable (t : Table β) : Keyed α β := t.toList.map fun entry => (.kind entry.1, entry.2)

end Keyed
end Collocation
