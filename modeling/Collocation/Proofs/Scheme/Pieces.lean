import Collocation.Proofs.Scheme.Calls
import Collocation.Proofs.Scheme.Steps

/-! # Pieces of constraints

  What one entry of a rule's script records, seen from one decision vector: for every constraint,
  and for a family at every grid point, the value of the constraint's function there between the
  constraint's bound vectors; for a caller's own equations their elements column by column, between
  the caller's bounds. Every piece goes to the end, and nothing that is there already changes. -/

namespace Collocation

/-! ## What is recorded -/

/-- Values of equations at one decision vector, with a bound on both sides for each. -/
@[ext]
structure Piece (α : Type) where
  lower : Array α
  upper : Array α
  values : Array α
  size_lower : lower.size = values.size
  size_upper : upper.size = values.size

/-- One part of all pieces in a row. -/
def Piece.joined {α : Type} (part : Piece α → Array α) (pieces : List (Piece α)) : Array α :=
  (pieces.flatMap fun piece => (part piece).toList).toArray

section Meaning

variable {α : Type} [Number α]

/-- Equations that are to be zero. -/
def Piece.zeros (values : Array α) : Piece α where
  lower := Array.replicate values.size Number.zero
  upper := Array.replicate values.size Number.zero
  values := values
  size_lower := Array.size_replicate
  size_upper := Array.size_replicate

/-- The value of a constraint's function between the constraint's bound vectors. -/
def Constraint.Gives {ι : Type} [Inputs ι] (c : Constraint α)
    (function : Except (Fault α) (Function ι α)) (v : ι → Matrix α) (piece : Piece α) : Prop :=
  ∃ f m, function = .ok f ∧ c.boundVectors f.extent.rows = .ok (piece.lower, piece.upper) ∧
    f.evaluate v = .ok [m] ∧ piece.values = m.data

/-- Every constraint of a family, in order, at every one of the grid points, in order. -/
def Problem.FamilyGives (p : Problem α) (family : ConstraintFamily) (points : Array α)
    (env : Kind → Matrix α) (indices : List Nat) (pieces : List (Piece α)) : Prop :=
  List.Forall₂
    (fun (site : Constraint α × Nat) piece =>
      site.1.Gives (p.pointConstraintFunction site.1) (pointValues points env site.2) piece)
    ((p.constraints family).product indices) pieces

/-- A grid index, counted from either end, means a grid point. -/
def Scheme.GridIndex.At (count : Nat) (index : Scheme.GridIndex α) (j : Nat) : Prop :=
  ∃ i, index = .ok i ∧ position? count i = some j

/-- The indices of a list as written mean the given grid points, in order. -/
def Literal.Indexes (l : Literal α) (count : Nat) (indices : List Nat) : Prop :=
  ∃ written, Scheme.readGridIndices l = .ok written ∧
    List.Forall₂ (Scheme.GridIndex.At count) written indices

/-- What is recorded where a directive is followed, at the values `env` of the decision variables:
    the pieces in their order. -/
inductive Directive.Gives (p : Problem α) (s : Scheme α) (points mask : Array α)
    (env : Kind → Matrix α) : Directive α → List (Piece α) → Prop
  /-- The path constraints at every grid point. -/
  | path {pieces} (h : p.FamilyGives .path points env (List.range points.size) pieces) :
    Gives p s points mask env (.path .null) pieces
  /-- The path constraints at grid points as written, which are looked at if there are any. -/
  | pathAt {l indices pieces} (hl : p.pathConstraints ≠ [] → l.Indexes points.size indices)
    (h : p.FamilyGives .path points env indices pieces) :
    Gives p s points mask env (.path l) pieces
  /-- The kinematic constraints at the grid points with a mark, in increasing order. -/
  | kinematic {indices pieces} (hsorted : indices.Pairwise (· < ·))
    (hmarked : ∀ i, i ∈ indices ↔ i < points.size ∧ ¬Number.isZero (mask.getD i default))
    (h : p.FamilyGives .kinematic points env indices pieces) :
    Gives p s points mask env .kinematic pieces
  /-- The endpoint constraints, one piece for each. -/
  | endpoint {pieces}
    (h : List.Forall₂ (fun c piece => c.Gives (p.endpointConstraintFunction c)
      (endValues env (points.size - 1)) piece) p.endpointConstraints pieces) :
    Gives p s points mask env .endpoint pieces
  /-- The dynamics at a grid point, and an error of no channels. -/
  | dynamics {index channels : Literal α} {j f m}
    (hj : Scheme.GridIndex.At points.size (Scheme.readGridIndex index) j)
    (hf : p.dynamicsFunction = .ok f) (hm : f.evaluate (pointValues points env j) = .ok [m]) :
    Gives p s points mask env (.dynamics index channels false) [.zeros m.data, .zeros #[]]
  /-- The dynamics and the quadrature error at a grid point. -/
  | dynamicsWithError {index channels : Literal α} {j f m g n}
    (hj : Scheme.GridIndex.At points.size (Scheme.readGridIndex index) j)
    (hf : p.dynamicsFunction = .ok f) (hm : f.evaluate (pointValues points env j) = .ok [m])
    (hg : p.quadratureErrorFunction = .ok (some g))
    (hn : g.evaluate (pointValues points env j) = .ok [n]) :
    Gives p s points mask env (.dynamics index channels true) [.zeros m.data, .zeros n.data]
  /-- A caller's equations between the caller's bounds, or between arrays of the scheme. -/
  | constrain {lower upper : BoundSource α} {low high : Literal α} {body e} {piece : Piece α}
    (he : s.buildBody body = .ok e)
    (hlow : s.handOver lower = .ok low) (hlower : low.toVector = .ok piece.lower)
    (hhigh : s.handOver upper = .ok high) (hupper : high.toVector = .ok piece.upper)
    (hvalues : piece.values = (e.expr.eval env).data) :
    Gives p s points mask env (.constrain lower upper body) [piece]

end Meaning

/-! ## Recording -/

section Records

variable {α : Type} [Number α] {env : Kind → Matrix α}

/-- The block is the piece, in a scheme and at the given values of the decision variables. -/
structure Block.Shows (s : Scheme α) (env : Kind → Matrix α) (b : Block α) (piece : Piece α) :
    Prop where
  lower : s.current b.lower = piece.lower
  upper : s.current b.upper = piece.upper
  values : (b.equations.eval env).data = piece.values

theorem Block.Shows.of_current {s t : Scheme α} {b : Block α} {piece : Piece α}
    (h : t.current = s.current) (hb : b.Shows t env piece) : b.Shows s env piece :=
  ⟨h ▸ hb.lower, h ▸ hb.upper, hb.values⟩

/-- The second scheme is later than the first one, and has the given pieces behind the blocks that
    were there. -/
structure Scheme.Records (p : Problem α) (env : Kind → Matrix α) (s s' : Scheme α)
    (pieces : List (Piece α)) : Prop where
  later : Later p s s'
  shows : ∃ bs, s'.blocks = s.blocks ++ bs ∧ List.Forall₂ (Block.Shows s env) bs pieces

namespace Scheme

variable {p : Problem α} {s s₁ s₂ s₃ s' : Scheme α} {pieces pieces' : List (Piece α)}

theorem Records.nothing (h : Later p s s') (hblocks : s'.blocks = s.blocks) :
    s.Records p env s' [] :=
  ⟨h, [], by simp [hblocks], .nil⟩

theorem Records.trans (h : s₁.Records p env s₂ pieces) (h' : s₂.Records p env s₃ pieces') :
    s₁.Records p env s₃ (pieces ++ pieces') := by
  obtain ⟨hlater, bs, hbs, hshows⟩ := h
  obtain ⟨hlater', bs', hbs', hshows'⟩ := h'
  exact ⟨hlater.trans hlater', bs ++ bs', by rw [hbs', hbs, List.append_assoc],
    List.rel_append hshows (hshows'.imp fun _ _ => .of_current (current_congr hlater.side))⟩

/-- The functions that are added are those of the problem. -/
theorem Current.later (h : s.Current p) (hlater : Later p s s') : s'.Current p := by
  constructor
  · intro f hf
    rcases hlater.dynamics with hsame | ⟨-, g, hg, hasked⟩
    · exact h.dynamics f (hsame ▸ hf)
    · cases hf.symm.trans hg
      exact hasked
  · intro f hf
    rcases hlater.quadratureError with hsame | ⟨-, g, hg, hasked⟩
    · exact h.quadratureError f (hsame ▸ hf)
    · cases hf.symm.trans hg
      exact hasked

end Scheme
end Records

/-! ### Lists of lists -/

end Collocation
