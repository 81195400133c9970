import Collocation.Proofs.Literal
import Collocation.Proofs.Scheme.OrderedTables

/-! # Positions that are taken

  What indices, slices and lists of indices mean along an axis, without a word about how it is
  computed. An index counts from the front, or from the end when it is negative. A slice begins at
  one end of the axis or at an index, and takes every so many positions until it reaches the other
  end or another index, where indices that lie outside are moved to the ends. A selector gives
  exactly the positions that are meant, and where an index lies outside of the axis it is refused,
  provided that the indices have 64 bits. -/

namespace Collocation

variable {α : Type}

/-- Rows or columns as a caller chooses them: by an index, by a truth value, by a slice whose parts
    may be left out, or by a list of indices. -/
inductive Choice where
  | index (i : Int)
  /-- A truth value is a mask of length one. -/
  | mask (b : Bool)
  | slice (start stop step : Option Int)
  | listed (is : List Int)

/-- A part of a slice, which may be left out. -/
def Literal.ofPart : Option Int → Literal α
  | none => .null
  | some i => .whole i

def Choice.toSelector : Choice → Selector α
  | .index i => .index i
  | .mask b => .listed (.truth b)
  | .slice start stop step =>
    .slice (Literal.ofPart start) (Literal.ofPart stop) (Literal.ofPart step)
  | .listed is => .listed (.list (is.map .whole))

/-! ## What is meant -/

/-- The index lies on an axis of the size, counted from either end. -/
def OnAxis (size : Nat) (i : Int) : Prop := -(size : Int) ≤ i ∧ i < size

/-- The index means the position. -/
def Means (size : Nat) (i : Int) (p : Nat) : Prop :=
  p < size ∧ ((p : Int) = i ∨ (p : Int) = size + i)

instance (size : Nat) (i : Int) : Decidable (OnAxis size i) := inferInstanceAs (Decidable (_ ∧ _))

/-- An index of a slice, counted from the front. -/
def counted (size : Nat) (i : Int) : Int := if i < 0 then size + i else i

/-- Where a slice begins: on the axis, or just past its end in the direction of the step. -/
def sliceBegin (size : Nat) (start : Option Int) (step : Int) : Int :=
  match start with
  | none => if 0 < step then 0 else size - 1
  | some i =>
    if 0 < step then max 0 (min size (counted size i))
    else max (-1) (min (size - 1) (counted size i))

/-- The place that a slice does not reach any more. -/
def sliceEnd (size : Nat) (stop : Option Int) (step : Int) : Int :=
  match stop with
  | none => if 0 < step then size else -1
  | some i =>
    if 0 < step then max 0 (min size (counted size i))
    else max (-1) (min (size - 1) (counted size i))

/-- The slice comes to the position after some steps and before its end. -/
def SliceTakes (size : Nat) (start stop : Option Int) (step : Int) (p : Nat) : Prop :=
  (∃ n : Nat, (p : Int) = sliceBegin size start step + n * step) ∧
    (0 < step → (p : Int) < sliceEnd size stop step) ∧
    (step < 0 → sliceEnd size stop step < p)

namespace Choice

/-- The positions along an axis that a choice means. -/
def Takes (size : Nat) : Choice → Nat → Prop
  | .index i, p => Means size i p
  | .mask b, p => p < size ∧ b = true
  | .slice start stop step, p => SliceTakes size start stop (step.getD 1) p
  | .listed is, p => ∃ i ∈ is, Means size i p

/-- Every index of the choice lies on the axis. Slices always fit, and a mask of length one fits an
    axis of that length. -/
def InRange (size : Nat) : Choice → Prop
  | .index i => OnAxis size i
  | .mask _ => size = 1
  | .slice .. => True
  | .listed is => ∀ i ∈ is, OnAxis size i

/-- Indices have 64 bits, and a slice does not stand still. -/
def Proper : Choice → Prop
  | .index i => fitsIndex i
  | .mask _ => True
  | .slice _ _ step => step ≠ some 0
  | .listed is => ∀ i ∈ is, fitsIndex i

instance (size : Nat) : (c : Choice) → Decidable (c.InRange size)
  | .index i => inferInstanceAs (Decidable (OnAxis size i))
  | .mask _ => inferInstanceAs (Decidable (size = 1))
  | .slice .. => inferInstanceAs (Decidable True)
  | .listed is => inferInstanceAs (Decidable (∀ i ∈ is, OnAxis size i))

instance : (c : Choice) → Decidable c.Proper
  | .index i => inferInstanceAs (Decidable (fitsIndex i = true))
  | .mask _ => inferInstanceAs (Decidable True)
  | .slice _ _ step => inferInstanceAs (Decidable (step ≠ some 0))
  | .listed is => inferInstanceAs (Decidable (∀ i ∈ is, fitsIndex i = true))

/-- The choice is refused along an axis, for a reason. Of several indices that lie outside the first
    one is blamed. -/
inductive Refused (size : Nat) : Choice → Fault α → Prop
  | index {i : Int} (hfits : fitsIndex i) (hout : ¬OnAxis size i) :
      Refused size (.index i) (.indexOutOfBounds i 0 size)
  | beyond {i : Int} (hbits : i < -0x8000000000000000 ∨ 0x10000000000000000 ≤ i) :
      Refused size (.index i) .notAnIndex
  | mask {b : Bool} (hsize : size ≠ 1) : Refused size (.mask b) (.maskMismatch 0 size 1)
  | still {start stop : Option Int} : Refused size (.slice start stop (some 0)) .zeroSliceStep
  | listed {before after : List Int} {i : Int}
      (hfits : ∀ j ∈ before ++ i :: after, fitsIndex j) (hbefore : ∀ j ∈ before, OnAxis size j)
      (hout : ¬OnAxis size i) :
      Refused size (.listed (before ++ i :: after)) (.indexOutOfBounds i 0 size)
  | tooLarge {is : List Int} {i : Int} (hmem : i ∈ is) (hbits : ¬fitsIndex i) :
      Refused size (.listed is) .indexTooLarge

/-- Of indices that do not all lie on the axis there is a first one that does not. -/
theorem exists_first_out {size : Nat} {is : List Int} (h : ¬∀ i ∈ is, OnAxis size i) :
    ∃ before i after, is = before ++ i :: after ∧ (∀ j ∈ before, OnAxis size j) ∧
      ¬OnAxis size i := by
  induction is with
  | nil => exact absurd (List.forall_mem_nil _) h
  | cons i is ih =>
    by_cases hi : OnAxis size i
    · have hrest : ¬∀ j ∈ is, OnAxis size j := fun hrest => h (List.forall_mem_cons.mpr ⟨hi, hrest⟩)
      obtain ⟨before, j, after, rfl, hbefore, hout⟩ := ih hrest
      exact ⟨i :: before, j, after, rfl, List.forall_mem_cons.mpr ⟨hi, hbefore⟩, hout⟩
    · exact ⟨[], i, is, rfl, List.forall_mem_nil _, hi⟩

/-- Indices of 64 bits are refused where one of them lies outside, and for no other reason. -/
theorem exists_refused {size : Nat} {c : Choice} (hproper : c.Proper) (hout : ¬c.InRange size) :
    ∃ fault : Fault α, c.Refused size fault ∧ fault.category = .index := by
  cases c with
  | index i => exact ⟨_, .index hproper hout, rfl⟩
  | mask b => exact ⟨_, .mask hout, rfl⟩
  | slice start stop step => exact absurd trivial hout
  | listed is =>
    obtain ⟨before, i, after, rfl, hbefore, hi⟩ := exists_first_out hout
    exact ⟨_, .listed hproper hbefore hi, rfl⟩

end Choice

/-! ## Indices -/

theorem fitsIndex_iff {i : Int} :
    fitsIndex i ↔ -0x8000000000000000 ≤ i ∧ i < 0x8000000000000000 := by
  simp [fitsIndex]

theorem wrapIndex_of_fits {i : Int} (h : fitsIndex i) : wrapIndex (α := α) i = .ok i := by
  obtain ⟨hlow, hhigh⟩ := fitsIndex_iff.mp h
  unfold wrapIndex
  rw [if_neg (by omega), if_neg (by omega)]

/-- Without a sign, 64 bits stand for the number that they stand for with one. -/
theorem wrapIndex_unsigned {i : Int} (hlow : 0x8000000000000000 ≤ i)
    (hhigh : i < 0x10000000000000000) :
    wrapIndex (α := α) i = wrapIndex (i - 0x10000000000000000) := by
  unfold wrapIndex
  rw [if_neg (by omega), if_pos hlow, if_neg (by omega), if_neg (by omega)]

variable {size : Nat} {i : Int}

/-- An index on the axis means one position. -/
theorem exists_resolveIndex (axis : Nat) (h : OnAxis size i) :
    ∃ p, resolveIndex (α := α) axis size i = .ok p ∧ ∀ q, q = p ↔ Means size i q := by
  obtain ⟨hlow, hhigh⟩ := h
  unfold resolveIndex Means
  by_cases hneg : 0 ≤ i
  · refine ⟨i.toNat, if_pos ⟨hneg, hhigh⟩, fun q => ?_⟩
    omega
  · refine ⟨(i + size).toNat, ?_, fun q => ?_⟩
    · rw [if_neg (by omega), if_pos (by omega)]
    · omega

theorem resolveIndex_of_out {axis : Nat} (h : ¬OnAxis size i) :
    resolveIndex (α := α) axis size i = .error (.indexOutOfBounds i axis size) := by
  unfold OnAxis at h
  unfold resolveIndex
  rw [if_neg (by omega), if_neg (by omega)]

/-- Indices on the axis mean the positions that one of them means. -/
theorem exists_resolveIndices (axis : Nat) {is : List Int} (h : ∀ i ∈ is, OnAxis size i) :
    ∃ positions, is.mapM (resolveIndex (α := α) axis size) = .ok positions ∧
      ∀ p, p ∈ positions ↔ ∃ i ∈ is, Means size i p := by
  induction is with
  | nil => exact ⟨[], rfl, by simp⟩
  | cons i is ih =>
    obtain ⟨p, hp, hmeans⟩ := exists_resolveIndex (α := α) axis (h i List.mem_cons_self)
    obtain ⟨ps, hps, hrest⟩ := ih fun j hj => h j (List.mem_cons_of_mem i hj)
    refine ⟨p :: ps, ?_, fun q => ?_⟩
    · rw [List.mapM_cons, hp, hps]
      rfl
    · simp [hmeans, hrest]

theorem resolveIndices_of_out {axis : Nat} {before after : List Int}
    (hbefore : ∀ j ∈ before, OnAxis size j) (hout : ¬OnAxis size i) :
    (before ++ i :: after).mapM (resolveIndex (α := α) axis size) =
      .error (.indexOutOfBounds i axis size) := by
  induction before with
  | nil =>
    rw [List.nil_append, List.mapM_cons, resolveIndex_of_out hout]
    rfl
  | cons j before ih =>
    obtain ⟨p, hp, -⟩ := exists_resolveIndex (α := α) axis (hbefore j List.mem_cons_self)
    rw [List.cons_append, List.mapM_cons, hp, ih fun k hk => hbefore k (List.mem_cons_of_mem j hk)]
    rfl

/-! ## Slices -/

namespace Selector

/-- The ends of a slice are where it begins and where it ends. -/
theorem sliceEnds_eq (size : Nat) (start stop : Option Int) (step : Int) :
    sliceEnds size start stop step = (sliceBegin size start step, sliceEnd size stop step) := by
  have hclamp : ∀ low high : Int, low ≤ high → ∀ i,
      clampEnd size low high i = max low (min high (counted size i)) := by
    intro low high hle i
    unfold clampEnd counted
    simp only
    split_ifs <;> omega
  have hforward := hclamp 0 size (by omega)
  have hback := hclamp (-1) (size - 1) (by omega)
  unfold sliceEnds sliceBegin sliceEnd
  by_cases hstep : 0 < step
  · cases start <;> cases stop <;> simp [hstep, hforward]
  · cases start <;> cases stop <;> simp [hstep, hback]

/-- So many steps are made before the end is reached. -/
theorem lt_sliceCount {first last step : Int} (hstep : step ≠ 0) (n : Nat) :
    n < sliceCount first last step ↔
      (0 < step → first + n * step < last) ∧ (step < 0 → last < first + n * step) := by
  unfold sliceCount
  rcases lt_or_gt_of_ne hstep with hneg | hpos
  · -- backwards, the way is measured in steps of the opposite sign
    have hcount : (n : Int) + 1 ≤ (first - last - step - 1) / -step ↔
        ((n : Int) + 1) * -step ≤ first - last - step - 1 :=
      Int.le_ediv_iff_mul_le (by omega)
    rw [add_mul, one_mul, mul_neg] at hcount
    rw [if_neg (by omega)]
    omega
  · have hcount : (n : Int) + 1 ≤ (last - first + step - 1) / step ↔
        ((n : Int) + 1) * step ≤ last - first + step - 1 :=
      Int.le_ediv_iff_mul_le hpos
    rw [add_mul, one_mul] at hcount
    rw [if_pos hpos]
    omega

/-- The positions of a slice are those that it comes to. -/
theorem mem_slicePositions {start stop : Option Int} {step : Int} (hstep : step ≠ 0) {p : Nat} :
    p ∈ slicePositions size start stop step ↔ SliceTakes size start stop step p := by
  obtain ⟨hforward, hback⟩ := sliceEnds_mem size start stop (sliceEnds_eq size start stop step)
  unfold slicePositions SliceTakes
  rw [sliceEnds_eq]
  simp only [List.mem_map, List.mem_range, lt_sliceCount hstep]
  have hway : ∀ n : Nat, 0 < step → 0 ≤ (n : Int) * step := by
    intro n hpos
    positivity
  constructor
  · rintro ⟨n, hn, rfl⟩
    -- what is reached before the end lies on the axis, so nothing is cut off below zero
    have hnonneg : 0 ≤ sliceBegin size start step + n * step := by
      rcases lt_or_gt_of_ne hstep with hneg | hpos
      · have hlast := (hback (by omega)).2
        have hbefore := hn.2 hneg
        omega
      · have hfirst := (hforward hpos).1
        have hon := hway n hpos
        omega
    rw [Int.toNat_of_nonneg hnonneg]
    exact ⟨⟨n, rfl⟩, hn⟩
  · rintro ⟨⟨n, hn⟩, hbefore⟩
    rw [hn] at hbefore
    exact ⟨n, hbefore, by omega⟩

/-! ## Selectors -/

theorem slicePart_ofPart (part : Option Int) :
    slicePart (Literal.ofPart part : Literal α) = .ok part := by
  cases part <;> rfl

variable [Number α]

theorem select_unsigned {i : Int} (hlow : 0x8000000000000000 ≤ i)
    (hhigh : i < 0x10000000000000000) :
    (index i : Selector α).select size = (index (i - 0x10000000000000000)).select size := by
  rw [select, select, wrapIndex_unsigned hlow hhigh]

/-- A list of whole numbers is read as their list. -/
theorem toTensorWith_wholes (is : List Int) :
    (Literal.list (is.map .whole) : Literal α).toTensorWith Literal.maxDimensions Literal.toIndex =
      (do
        let elements ← is.mapM (Literal.indexOfInt (α := α))
        return .ofWritten [is.length] elements.toArray) := by
  have hshape : (Literal.list (is.map .whole) : Literal α).nestedShape = [is.length] := by
    cases is with
    | nil => rfl
    | cons i is =>
      have hitems : ∀ l ∈ is.map (Literal.whole (α := α)), l.nestedShape = [] := by
        intro l hl
        obtain ⟨_, -, rfl⟩ := List.mem_map.mp hl
        rfl
      have hfirst : (Literal.whole i : Literal α).nestedShape = [] := rfl
      rw [List.map_cons, Literal.nestedShape, hfirst, Literal.agreedShape_of_forall hitems]
      simp
  have hleaves : (Literal.list (is.map .whole) : Literal α).leaves 1 = is.map .whole := by
    rw [Literal.leaves, List.flatMap_map, List.map_eq_flatMap]
    rfl
  have hnone : (is.map (Literal.whole (α := α))).any Literal.isSequence = false := by
    simp [Literal.isSequence]
  have htake : [is.length].take Literal.maxDimensions = [is.length] := rfl
  unfold Literal.toTensorWith
  simp only [hshape, htake, List.length_singleton, hleaves, hnone, List.mapM_map]
  rfl

theorem select_listed_of_fits {is : List Int} (h : ∀ i ∈ is, fitsIndex i) :
    (listed (.list (is.map .whole)) : Selector α).select size =
      (do return ⟨← is.mapM (resolveIndex 0 size), true⟩) := by
  have hfit : is.mapM (Literal.indexOfInt (α := α)) = .ok (is.map id) :=
    mapM_of_ok fun i hi => if_pos (h i hi)
  have hwritten : (Tensor.ofWritten [is.length] is.toArray).written = is.toArray := by
    rw [Tensor.written_of_shape rfl, Literal.data_ofWritten_vector]
  rw [select, toTensorWith_wholes, hfit, List.map_id]
  · simp only [bind, Except.bind, pure, Except.pure, hwritten]
    rfl
  · intro b hb
    cases hb

omit [Number α] in
theorem mapM_indexOfInt_of_large {is : List Int} {i : Int} (hmem : i ∈ is)
    (hbits : ¬fitsIndex i) :
    is.mapM (Literal.indexOfInt (α := α)) = .error .indexTooLarge := by
  induction is with
  | nil => cases hmem
  | cons j is ih =>
    rw [List.mapM_cons]
    by_cases hfits : fitsIndex j
    · have htail : i ∈ is := by
        rcases List.mem_cons.mp hmem with rfl | htail
        · exact absurd hfits hbits
        · exact htail
      rw [ih htail, Literal.indexOfInt, if_pos hfits]
      rfl
    · rw [Literal.indexOfInt, if_neg hfits]
      rfl

/-- A choice whose indices lie on the axis selects the positions that it means. -/
theorem exists_select {c : Choice} (hproper : c.Proper) (hrange : c.InRange size) :
    ∃ positions, (c.toSelector : Selector α).select size = .ok ⟨positions, true⟩ ∧
      ∀ p, p ∈ positions ↔ c.Takes size p := by
  cases c with
  | index i =>
    obtain ⟨p, hp, hmeans⟩ := exists_resolveIndex (α := α) 0 hrange
    refine ⟨[p], select_index (wrapIndex_of_fits hproper) hp, fun q => ?_⟩
    rw [List.mem_singleton]
    exact hmeans q
  | mask b =>
    refine ⟨if b then [0] else [], if_pos hrange, fun p => ?_⟩
    rw [Choice.Takes, show size = 1 from hrange, Nat.lt_one_iff]
    cases b <;> simp
  | slice start stop step =>
    have hstep : step.getD 1 ≠ 0 := by
      cases step with
      | none => exact one_ne_zero
      | some n => exact fun hzero => hproper (congrArg some hzero)
    refine ⟨slicePositions size start stop (step.getD 1), ?_, fun p => mem_slicePositions hstep⟩
    simp only [Choice.toSelector, select, slicePart_ofPart, bind, Except.bind]
    rw [if_neg hstep]
    rfl
  | listed is =>
    obtain ⟨positions, hpositions, hmeans⟩ := exists_resolveIndices (α := α) 0 hrange
    refine ⟨positions, ?_, hmeans⟩
    rw [Choice.toSelector, select_listed_of_fits hproper, hpositions]
    rfl

/-- A choice that is refused stands in an error. -/
theorem select_of_refused {c : Choice} {fault : Fault α} (h : c.Refused size fault) :
    (c.toSelector : Selector α).select size = .error fault := by
  cases h with
  | index hfits hout =>
    simp only [Choice.toSelector, select, wrapIndex_of_fits hfits, resolveIndex_of_out hout, bind,
      Except.bind]
  | beyond hbits =>
    simp only [Choice.toSelector, select, wrapIndex, if_pos hbits, bind, Except.bind]
  | mask hsize => exact if_neg hsize
  | still => rfl
  | listed hfits hbefore hout =>
    rw [Choice.toSelector, select_listed_of_fits hfits, resolveIndices_of_out hbefore hout]
    rfl
  | tooLarge hmem hbits =>
    rw [Choice.toSelector, select, toTensorWith_wholes, mapM_indexOfInt_of_large hmem hbits]
    · rfl
    · intro b hb
      cases hb

end Selector
end Collocation
