import Collocation.Workspace

/-! # Replies

  What a workspace answers to a command. A reply carries the values themselves; how they are
  written is up to the caller. -/

namespace Collocation

/-- What a workspace answers. -/
inductive Reply (α : Type) where
  | done
  | text (s : String)
  | count (n : Nat)
  | dimensions (p : Problem α)
  | settings (s : Settings α)
  /-- The values of a function under its name, one after the other, and the size of one. -/
  | value (name : String) (extent : Extent) (values : Array α)
  | boundVectors (lower upper : Array α)
  | scheme (s : Scheme α)
  | transcription (s : Scheme α) (grid : Array α)
  | status (s : Scheme α)
  | bounds (entries : Table (Tensor α × Tensor α))
  | constraints (lower upper : Array α) (values : Option (Array α))
  | dynamics (derivatives error : Array α)
  | matrices (table : Table (Matrix α))
  /-- The program, its objective and its constraints at the start, and the solution. -/
  | solved (program : Program α) (objective constraints : Array α)
      (values : Table (Tensor α)) (solution : Trajectory α)
  | trajectory (values : Table (Tensor α)) (t : Trajectory α)
  | vector (v : Array α)
  | tensor (t : Tensor α)
  | number (x : α)

end Collocation
