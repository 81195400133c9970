import Collocation.Proofs.Comparison
import Collocation.Proofs.Scheme.AppendedBlocks
import Collocation.Scheme.Program

/-! # Bounds that leave room

  A program is refused if some lower bound is above its upper bound. The constraints of a built-in
  rule give no reason for that, wherever a transcription ends: defects are to be zero, and the
  bounds of a problem's constraint are compared before the first equation of it is appended.
  Neither do bounds of variables that some vector keeps. -/

namespace Collocation

variable {α : Type} [Number α] {lower upper lower' upper' : Array α}

/-! ## Bound vectors -/

/-- No lower bound is above its upper bound. -/
structure Ordered (lower upper : Array α) : Prop where
  size : lower.size = upper.size
  below : ∀ i < lower.size,
    Number.below (upper.getD i default) (lower.getD i default) = false

theorem checkFeasible_of_ordered (part : BoundedPart) (h : Ordered lower upper) :
    checkFeasible part lower upper = .ok () := by
  have hnone : (List.range lower.size).find? (fun i =>
      Number.below (upper.getD i default) (lower.getD i default)) = none := by
    rw [List.find?_eq_none]
    intro i hi
    rw [h.below i (List.mem_range.mp hi)]
    decide
  have hupper : repeatTo? lower.size upper = some upper := h.size ▸ repeatTo?_size upper
  unfold checkFeasible
  simp only [← h.size, stretch?_self, volume_cons, volume_nil, Nat.mul_one, repeatTo?_size, hupper,
    Option.getD_some, hnone]

theorem Ordered.append (h : Ordered lower upper) (h' : Ordered lower' upper') :
    Ordered (lower ++ lower') (upper ++ upper') := by
  refine ⟨by simp [h.size, h'.size], ?_⟩
  intro i hi
  rw [Array.size_append] at hi
  rw [getD_append, getD_append, ← h.size]
  by_cases hin : i < lower.size
  · rw [if_pos hin, if_pos hin]
    exact h.below i hin
  · rw [if_neg hin, if_neg hin]
    exact h'.below (i - lower.size) (by omega)

theorem ordered_empty : Ordered (#[] : Array α) #[] := ⟨rfl, fun _ hi => nomatch hi⟩

theorem ordered_replicate [LawfulComparison α] (n : Nat) :
    Ordered (Array.replicate n (Number.zero : α)) (Array.replicate n Number.zero) := by
  refine ⟨rfl, ?_⟩
  intro i hi
  rw [Array.size_replicate] at hi
  have hzero : (Array.replicate n (Number.zero : α)).getD i default = Number.zero := by
    simp [hi]
  rw [hzero]
  exact LawfulComparison.not_below_of_atMost (LawfulComparison.atMost_ofInt_ofInt le_rfl)

/-- The bounds of a constraint are compared when they are read. -/
theorem Constraint.ordered_boundVectors {c : Constraint α} {size : Nat}
    (h : c.boundVectors size = .ok (lower, upper)) : Ordered lower upper := by
  obtain ⟨low, hlow, h⟩ := bind_eq_ok h
  obtain ⟨high, hhigh, h⟩ := bind_eq_ok h
  have hsize : low.size = high.size :=
    (size_of_boundVector hlow).trans (size_of_boundVector hhigh).symm
  change (if (Array.zip low high).any fun pair => Number.below pair.2 pair.1 then _ else _) = _ at h
  split_ifs at h with hcrossed
  · cases h
  · cases h
    refine ⟨hsize, ?_⟩
    intro i hi
    have hpair := Array.any_eq_false.mp (Bool.not_eq_true _ ▸ hcrossed) i (by simp [← hsize, hi])
    simpa [hi, hsize ▸ hi] using hpair

namespace Scheme

/-! ## Blocks -/

/-- The bounds of no block cross, and they are the block's own. -/
def BlocksOrdered : Scheme α → Prop :=
  AllBlocks fun b => b.Owns ∧ Ordered b.lower.elements b.upper.elements

variable {p : Problem α} {s s' : Scheme α}

/-- The bounds of all constraints are those of the blocks, one after the other. -/
theorem BlocksOrdered.ordered (h : s.BlocksOrdered) :
    Ordered s.constraintLower s.constraintUpper := by
  have hfold : ∀ {bs : List (Block α)} {lower upper : Array α},
      (∀ b ∈ bs, b.Owns ∧ Ordered b.lower.elements b.upper.elements) → Ordered lower upper →
        Ordered (bs.foldl (fun acc b => acc ++ s.current b.lower) lower)
          (bs.foldl (fun acc b => acc ++ s.current b.upper) upper) := by
    intro bs
    induction bs with
    | nil => exact fun _ h => h
    | cons b bs ih =>
      intro lower upper hbs hacc
      obtain ⟨howns, hordered⟩ := hbs b List.mem_cons_self
      refine ih (fun b' hb' => hbs b' (List.mem_cons_of_mem b hb')) (hacc.append ?_)
      rwa [s.current_of_own howns.lower, s.current_of_own howns.upper]
  exact hfold h ordered_empty

variable [LawfulComparison α]

/-- Zeros do not cross, nor do the bounds of a constraint that were read. -/
theorem passesOwn_ordered :
    PassesOwn fun b : Block α => b.Owns ∧ Ordered b.lower.elements b.upper.elements where
  zero b howns hlower hupper := by
    refine ⟨howns, ?_⟩
    rw [hlower, hupper]
    exact ordered_replicate b.size
  read _ howns _ _ h := ⟨howns, Constraint.ordered_boundVectors h⟩

/-- Wherever a transcription by a built-in rule ends, it has appended no constraint whose bounds
    cross. -/
theorem BlocksOrdered.transcribe (hs : s.BlocksOrdered)
    (hrule : ∀ hooks, s.rule ≠ .custom hooks) : (stateOf (transcribe p s)).BlocksOrdered :=
  AllBlocks.transcribe passesOwn_ordered hs fun hooks hcustom => absurd hcustom (hrule hooks)

theorem blocksOrdered_of_applyRule {b : BuiltIn} {mesh : Array α}
    (hs : s.Prepared (b.rule mesh) p) (h : applyRule p s = .ok () s') : s'.BlocksOrdered := by
  have hempty : s.BlocksOrdered := by
    intro block hblock
    rw [hs.blocks] at hblock
    cases hblock
  have hend := AllBlocks.applyRule (p := p) passesOwn_ordered hempty <| by
    intro hooks hcustom
    rw [hs.rule] at hcustom
    cases b <;> cases hcustom
  rwa [h] at hend

end Scheme

/-! ## Exact bounds -/

open Extended

/-- Bounds that hold for a vector do not cross. -/
theorem Within.ordered {K : Type} [Field K] [LinearOrder K] [FloorRing K] [Interpretation K]
    [IsStrictOrderedRing K] {lower upper values : Array (Extended K)}
    (h : Within lower upper values) : Ordered lower upper := by
  refine ⟨h.size_lower.trans h.size_upper.symm, ?_⟩
  intro i hi
  obtain ⟨hlower, hupper⟩ := h.between i (h.size_lower ▸ hi)
  exact LawfulComparison.not_below_of_atMost (atMost_trans hlower hupper)

end Collocation
