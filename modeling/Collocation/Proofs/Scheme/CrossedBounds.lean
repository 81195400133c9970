import Collocation.Proofs.Scheme.Accumulation
import Collocation.Proofs.Scheme.BackendBounds
import Collocation.Proofs.Scheme.SharedLayout

/-! # Bounds that cross

  A guess that can be carried and flattened leaves only the bounds to be checked, those of the
  variables first. If some lower bound is above its upper one the first such pair is reported, and
  no backend is asked. The index in the report is a place in the decision vector or among all
  equations, and such a place belongs to one element of one matrix, or to one equation of one
  block. -/

namespace Collocation

open Layout

variable {α : Type}

/-! ## The first pair -/

section Pairs

variable [Number α] {lower upper : Array α} {i : Nat}

/-- Some lower bound is above its upper bound. -/
def Crossed (lower upper : Array α) : Prop :=
  ∃ i < lower.size, Number.below (upper.getD i default) (lower.getD i default) = true

/-- The lower bound at a place is above its upper bound, and none is at a smaller place. -/
structure FirstCrossed (lower upper : Array α) (i : Nat) : Prop where
  lt : i < lower.size
  crossed : Number.below (upper.getD i default) (lower.getD i default) = true
  first : ∀ j < i, Number.below (upper.getD j default) (lower.getD j default) = false

theorem FirstCrossed.crosses (h : FirstCrossed lower upper i) : Crossed lower upper :=
  ⟨i, h.lt, h.crossed⟩

/-- The check finds the first pair that crosses, or there is none. -/
theorem checkFeasible_cases (part : BoundedPart) (hsize : lower.size = upper.size) :
    (∃ i, FirstCrossed lower upper i ∧ checkFeasible part lower upper =
      .error (.infeasible part i (lower.getD i default) (upper.getD i default))) ∨
    ¬Crossed lower upper ∧ checkFeasible part lower upper = .ok () := by
  have hupper : repeatTo? lower.size upper = some upper := hsize ▸ repeatTo?_size upper
  cases hfind : (List.range lower.size).find? fun i =>
      Number.below (upper.getD i default) (lower.getD i default) with
  | none =>
    rw [List.find?_eq_none] at hfind
    have hordered : Ordered lower upper :=
      ⟨hsize, fun i hi => Bool.not_eq_true _ ▸ hfind i (List.mem_range.mpr hi)⟩
    refine .inr ⟨?_, checkFeasible_of_ordered part hordered⟩
    rintro ⟨i, hi, hcrossed⟩
    exact hfind i (List.mem_range.mpr hi) hcrossed
  | some i =>
    obtain ⟨hcrossed, hi, hfirst⟩ := List.find?_range_eq_some.mp hfind
    have hi : i < lower.size := List.mem_range.mp hi
    refine .inl ⟨i, ⟨hi, hcrossed, fun j hj => by simpa using hfirst j hj⟩, ?_⟩
    unfold checkFeasible
    simp only [← hsize, stretch?_self, volume_cons, volume_nil, Nat.mul_one, repeatTo?_size, hupper,
      Option.getD_some, hfind]
    rw [if_neg (by omega), if_neg (by omega)]

end Pairs

/-! ## Equations -/

section Equations

variable {b b' : Block α} {before after before' after' : List (Block α)} {j j' : Nat}

/-- An equation of a block has its place behind all equations of the blocks before. -/
theorem getD_joined [Inhabited α] {f : Block α → Array α} (hf : ∀ b, (f b).size = b.size)
    (hj : j < b.size) :
    ((before ++ b :: after).foldl (fun acc b => acc ++ f b) #[]).getD
      ((before.map Block.size).sum + j) default = (f b).getD j default := by
  have hlength : (before.flatMap fun b => (f b).toList).length = (before.map Block.size).sum := by
    rw [List.length_flatMap]
    simp only [Array.length_toList, hf]
  rw [Array.getD_eq_getD_getElem?, ← Array.getElem?_toList, Scheme.toList_foldl_append,
    List.nil_append, List.flatMap_append, List.flatMap_cons, ← hlength,
    List.getElem?_append_right (Nat.le_add_right _ _), Nat.add_sub_cancel_left,
    List.getElem?_append_left (by simpa [hf] using hj), Array.getElem?_toList,
    Array.getD_eq_getD_getElem?]

theorem size_foldl_append {f : Block α → Array α} (hf : ∀ b, (f b).size = b.size)
    (bs : List (Block α)) :
    (bs.foldl (fun acc b => acc ++ f b) #[]).size = (bs.map Block.size).sum := by
  rw [← Array.length_toList, Scheme.toList_foldl_append, List.nil_append, List.length_flatMap]
  simp only [Array.length_toList, hf]

/-- Every place belongs to an equation. -/
theorem exists_equation {bs : List (Block α)} {i : Nat} (hi : i < (bs.map Block.size).sum) :
    ∃ before b after j, bs = before ++ b :: after ∧ j < b.size ∧
      i = (before.map Block.size).sum + j := by
  induction bs generalizing i with
  | nil => exact absurd hi (Nat.not_lt_zero i)
  | cons b bs ih =>
    rw [List.map_cons, List.sum_cons] at hi
    by_cases hb : i < b.size
    · exact ⟨[], b, bs, i, rfl, hb, (Nat.zero_add i).symm⟩
    · obtain ⟨before, b', after, j, rfl, hj, hplace⟩ := ih (i := i - b.size) (by omega)
      refine ⟨b :: before, b', after, j, rfl, hj, ?_⟩
      rw [List.map_cons, List.sum_cons]
      omega

/-- No two equations have one place. -/
theorem equation_unique (h : before ++ b :: after = before' ++ b' :: after') (hj : j < b.size)
    (hj' : j' < b'.size)
    (hplace : (before.map Block.size).sum + j = (before'.map Block.size).sum + j') :
    before' = before ∧ b' = b ∧ j' = j := by
  induction before generalizing before' with
  | nil =>
    cases before' with
    | nil =>
      cases h
      exact ⟨rfl, rfl, by simpa using hplace.symm⟩
    | cons c before' =>
      -- the place lies in the first block on one side and behind it on the other
      cases h
      simp only [List.map_nil, List.sum_nil, List.map_cons, List.sum_cons] at hplace
      omega
  | cons c before ih =>
    cases before' with
    | nil =>
      cases h
      simp only [List.map_nil, List.sum_nil, List.map_cons, List.sum_cons] at hplace
      omega
    | cons c' before' =>
      obtain ⟨rfl, hrest⟩ := List.cons.inj h
      simp only [List.map_cons, List.sum_cons] at hplace
      obtain ⟨rfl, hb, hj⟩ := ih hrest (by omega)
      exact ⟨rfl, hb, hj⟩

end Equations

/-! ## Reports -/

namespace Scheme

variable [Number α] {s : Scheme α} {guess carried : Trajectory α} {start : Array α}
  {fault : Fault α} {i : Nat} {low high : α}

/-- There is no program for the guess, so whatever the problem and the backend are, solving ends
    with the fault. -/
structure RefusesWith (s : Scheme α) (guess : Trajectory α) (fault : Fault α) : Prop where
  program : s.program guess = .error fault
  solve : ∀ p backend, s.solve p backend guess = .error fault

theorem refusesWith_of_program (h : s.program guess = .error fault) :
    s.RefusesWith guess fault := by
  refine ⟨h, fun p backend => ?_⟩
  unfold Scheme.solve
  rw [h]
  rfl

/-- The first pair of bounds of the variables that crosses, at its place in the decision vector: it
    is behind all elements of the smaller kinds, column by column, and no other element is there. -/
structure CrossedVariable (s : Scheme α) (i : Nat) (low high : α) : Prop where
  first : FirstCrossed (flatten s.lower) (flatten s.upper) i
  element : ∃ (Γ : Kind → Extent) (e : Element Γ) (lower upper : Tensor α), s.extents = .full Γ ∧
    i = ((Kind.all.filter fun k => k.index < e.kind.index).map fun k =>
      (Γ k).rows * (Γ k).cols).sum + e.col * (Γ e.kind).rows + e.row ∧
    s.lower.find? e.kind = some lower ∧ s.upper.find? e.kind = some upper ∧
    low = lower.element e.row e.col ∧ high = upper.element e.row e.col ∧
    ∀ e' : Element Γ, e'.position = i → e' = e

/-- The first pair of bounds of the constraints that crosses, at its place among all equations: it
    is behind those of all earlier blocks, and no other equation is there. -/
structure CrossedConstraint (s : Scheme α) (i : Nat) (low high : α) : Prop where
  first : FirstCrossed s.constraintLower s.constraintUpper i
  equation : ∃ before b after j, s.blocks = before ++ b :: after ∧ j < b.size ∧
    i = (before.map Block.size).sum + j ∧ low = (s.current b.lower).getD j default ∧
    high = (s.current b.upper).getD j default ∧
    ∀ before' b' after' j', s.blocks = before' ++ b' :: after' → j' < b'.size →
      i = (before'.map Block.size).sum + j' → before' = before ∧ b' = b ∧ j' = j

theorem crossedVariable_of_first (hsizes : s.checkVariables = .ok ())
    (h : FirstCrossed (flatten s.lower) (flatten s.upper) i) :
    s.CrossedVariable i ((flatten s.lower).getD i default) ((flatten s.upper).getD i default) := by
  obtain ⟨Γ, hextents, hsides⟩ := side_of_checkVariables hsizes
  obtain ⟨V, hlower, hshape⟩ := hsides .lower
  obtain ⟨W, hupper, hshape'⟩ := hsides .upper
  change s.lower = .full V at hlower
  change s.upper = .full W at hupper
  have hi : i < length (.full Γ) := by
    rw [← size_flatten (fits_full hshape), ← hlower]
    exact h.lt
  obtain ⟨e, rfl⟩ := Element.exists_position hi
  refine ⟨h, Γ, e, V e.kind, W e.kind, hextents, ?_, ?_, ?_, ?_, ?_, fun e' he' =>
    Element.position_injective he'⟩
  · rw [Element.position, offset_full, Nat.mul_comm e.col.val]
    omega
  · rw [hlower, Table.find?_full]
  · rw [hupper, Table.find?_full]
  · rw [hlower, getD_flatten_position hshape]
  · rw [hupper, getD_flatten_position hshape']

theorem crossedConstraint_of_first (h : FirstCrossed s.constraintLower s.constraintUpper i) :
    s.CrossedConstraint i (s.constraintLower.getD i default)
      (s.constraintUpper.getD i default) := by
  have hlower : ∀ b : Block α, (s.current b.lower).size = b.size :=
    fun b => (s.size_current b.lower).trans b.size_lower
  have hupper : ∀ b : Block α, (s.current b.upper).size = b.size :=
    fun b => (s.size_current b.upper).trans b.size_upper
  have hi : i < (s.blocks.map Block.size).sum := by
    rw [← size_foldl_append hlower]
    exact h.lt
  obtain ⟨before, b, after, j, hblocks, hj, rfl⟩ := exists_equation hi
  refine ⟨h, before, b, after, j, hblocks, hj, rfl, ?_, ?_, ?_⟩
  · rw [constraintLower, hblocks]
    exact getD_joined hlower hj
  · rw [constraintUpper, hblocks]
    exact getD_joined hupper hj
  · intro before' b' after' j' hblocks' hj' hplace
    exact equation_unique (hblocks.symm.trans hblocks') hj hj' hplace

omit [Number α] in
/-- Bounds of the sizes of the variables make vectors of one length. -/
theorem size_flatten_side (hsizes : s.checkVariables = .ok ()) :
    (flatten s.lower).size = (flatten s.upper).size := by
  obtain ⟨Γ, -, hsides⟩ := side_of_checkVariables hsizes
  have hsize : ∀ which, (flatten (s.side which)).size = length (.full Γ) := by
    intro which
    obtain ⟨V, hside, hshape⟩ := hsides which
    rw [hside, size_flatten (fits_full hshape)]
  exact (hsize .lower).trans (hsize .upper).symm

/-- A guess that can be carried and flattened is refused for the first pair of the variables that
    crosses, else for the first one of the constraints, else it is not refused. -/
theorem program_cases (htranscribed : s.transcribed = true)
    (hstrays : ∀ which, s.strays which = []) (hsizes : s.checkVariables = .ok ())
    (hcarry : s.carryGuess guess = .ok carried) (hflatten : s.flattenGuess carried = .ok start) :
    (∃ i, FirstCrossed (flatten s.lower) (flatten s.upper) i ∧
      s.program guess = .error (.infeasible .variable i ((flatten s.lower).getD i default)
        ((flatten s.upper).getD i default))) ∨
    (¬Crossed (flatten s.lower) (flatten s.upper) ∧
      ((∃ i, FirstCrossed s.constraintLower s.constraintUpper i ∧
        s.program guess = .error (.infeasible .constraint i (s.constraintLower.getD i default)
          (s.constraintUpper.getD i default))) ∨
      ¬Crossed s.constraintLower s.constraintUpper ∧
        s.program guess = .ok (s.programFrom start))) := by
  have hlower : s.strayLower = [] := hstrays .lower
  have hupper : s.strayUpper = [] := hstrays .upper
  have hchecks : s.checkBounds = (do
      checkFeasible .variable (flatten s.lower) (flatten s.upper)
      checkFeasible .constraint s.constraintLower s.constraintUpper) := by
    unfold checkBounds
    rw [hlower, hupper]
    rfl
  rw [program_of_carried htranscribed hcarry hflatten, hchecks]
  -- the constraints are looked at only if no pair of the variables crosses
  rcases checkFeasible_cases .variable (size_flatten_side hsizes) with
    ⟨i, hi, hcheck⟩ | ⟨hnot, hcheck⟩
  · exact .inl ⟨i, hi, by rw [hcheck]; rfl⟩
  refine .inr ⟨hnot, ?_⟩
  rcases checkFeasible_cases .constraint s.size_constraintLower with
    ⟨i, hi, hcheck'⟩ | ⟨hnot', hcheck'⟩
  · exact .inl ⟨i, hi, by rw [hcheck, hcheck']; rfl⟩
  · exact .inr ⟨hnot', by rw [hcheck, hcheck']; rfl⟩

/-- Let the bounds of a transcribed scheme have the sizes of its variables, and let a guess be
    carried and flattened. Solving is refused for the bounds, before any backend is asked, exactly
    if some lower bound of the variables or of the constraints is above its upper bound; otherwise
    the program of the guess is handed over. The variables are reported exactly if one of their
    pairs crosses, whatever the constraints are. The reported place is the smallest one at which a
    pair crosses, it belongs to one element of one matrix or to one equation of one block, and the
    bounds of this element or equation are those that are reported. -/
theorem crossed_bounds_reported (htranscribed : s.transcribed = true)
    (hstrays : ∀ which, s.strays which = []) (hsizes : s.checkVariables = .ok ())
    (hcarry : s.carryGuess guess = .ok carried) (hflatten : s.flattenGuess carried = .ok start) :
    ((∃ part i low high, s.RefusesWith guess (.infeasible part i low high)) ↔
      Crossed (flatten s.lower) (flatten s.upper) ∨
        Crossed s.constraintLower s.constraintUpper) ∧
    (¬Crossed (flatten s.lower) (flatten s.upper) → ¬Crossed s.constraintLower s.constraintUpper →
      s.program guess = .ok (s.programFrom start)) ∧
    ∀ part i low high, s.RefusesWith guess (.infeasible part i low high) →
      (part = .variable ↔ Crossed (flatten s.lower) (flatten s.upper)) ∧
      (part = .variable → s.CrossedVariable i low high) ∧
      (part = .constraint → s.CrossedConstraint i low high) := by
  rcases program_cases htranscribed hstrays hsizes hcarry hflatten with
    ⟨i, hfirst, hprogram⟩ | ⟨hnot, ⟨i, hfirst, hprogram⟩ | ⟨hnot', hprogram⟩⟩
  · refine ⟨⟨fun _ => .inl hfirst.crosses, fun _ => ⟨_, _, _, _, refusesWith_of_program hprogram⟩⟩,
      fun hnot => absurd hfirst.crosses hnot, fun part i' low high h => ?_⟩
    cases h.program.symm.trans hprogram
    exact ⟨⟨fun _ => hfirst.crosses, fun _ => rfl⟩, fun _ => crossedVariable_of_first hsizes hfirst,
      nofun⟩
  · refine ⟨⟨fun _ => .inr hfirst.crosses, fun _ => ⟨_, _, _, _, refusesWith_of_program hprogram⟩⟩,
      fun _ hnot' => absurd hfirst.crosses hnot', fun part i' low high h => ?_⟩
    cases h.program.symm.trans hprogram
    exact ⟨⟨nofun, fun h => absurd h hnot⟩, nofun, fun _ => crossedConstraint_of_first hfirst⟩
  · have hnever : ∀ fault, ¬s.RefusesWith guess fault := by
      intro fault h
      cases h.program.symm.trans hprogram
    exact ⟨⟨fun ⟨_, _, _, _, h⟩ => absurd h (hnever _), fun h => absurd h (by simp [hnot, hnot'])⟩,
      fun _ _ => hprogram, fun part i low high h => absurd h (hnever _)⟩

/-! ## A slide on which bounds cross -/

open Extended

/-- A rule of its own for the slide, with a second block of constraints whose bounds cross. -/
def crossedRule : Hooks (Extended ℚ) :=
  { looseRule with
    directives :=
      [.constrain (.written (.list [.whole 0, .whole 0, .whole 0]))
          (.written (.list [.whole 1, .whole 2, .whole 3])) (.name "states"),
        .constrain (.written (.list [.whole 0, .whole 5, .whole 7]))
          (.written (.list [.whole 1, .whole 2, .whole 3])) (.name "states")] }

/-- Bounds that cross are written for the state at the second grid point. -/
def crossState : Building (Extended ℚ) Unit := do
  writeBound .lower (.kind .states) [0, 1] (.whole 3)
  writeBound .upper (.kind .states) [0, 1] (.whole 1)

/-- The trajectory is a guess that can be carried and flattened, and it is refused for some pair. -/
def isRefusedFor (t : Trajectory (Extended ℚ)) (part : BoundedPart) (i : Nat) (low high : ℚ)
    (s : Scheme (Extended ℚ)) : Bool :=
  s.transcribed && s.strayLower.isEmpty && s.strayUpper.isEmpty &&
    s.checkVariables.toOption = some () &&
    ((s.carryGuess t).toOption.any fun carried => (s.flattenGuess carried).toOption.isSome) &&
    match s.program t with
    | .error (.infeasible part' i' low' high') =>
      part' = part && i' = i && low' = finite low && high' = finite high
    | _ => false

theorem of_isRefusedFor {t : Trajectory (Extended ℚ)} {part : BoundedPart} {i : Nat} {low high : ℚ}
    {s : Scheme (Extended ℚ)} (h : isRefusedFor t part i low high s) :
    s.transcribed = true ∧ (∀ which, s.strays which = []) ∧ s.checkVariables = .ok () ∧
      (∃ carried start, s.carryGuess t = .ok carried ∧ s.flattenGuess carried = .ok start) ∧
      s.RefusesWith t (.infeasible part i (finite low) (finite high)) := by
  unfold isRefusedFor at h
  simp only [Bool.and_eq_true, decide_eq_true_iff, List.isEmpty_iff] at h
  obtain ⟨⟨⟨⟨⟨htranscribed, hlower⟩, hupper⟩, hsizes⟩, hguess⟩, hprogram⟩ := h
  obtain ⟨carried, hcarry, hflatten⟩ := (Option.any_eq_true _ _).mp hguess
  obtain ⟨start, hstart⟩ := Option.isSome_iff_exists.mp hflatten
  refine ⟨htranscribed, fun which => by cases which <;> assumption, eq_ok_of_toOption hsizes,
    ⟨carried, start, eq_ok_of_toOption hcarry, eq_ok_of_toOption hstart⟩,
    refusesWith_of_program ?_⟩
  split at hprogram
  · next part' i' low' high' hfault =>
    simp only [Bool.and_eq_true, decide_eq_true_iff] at hprogram
    obtain ⟨⟨⟨rfl, rfl⟩, rfl⟩, rfl⟩ := hprogram
    exact hfault
  · cases hprogram

/-- The second equation of the second block is reported, until the bounds of a state cross too. -/
theorem crossed_bounds_reported_slide :
    ∃ s s' r,
      custom (.standard none) slide crossedRule (some (.vector (#[0, 1 / 4, 1].map finite))) 3
        true = .ok s ∧
      transcribe slide s = .ok () s' ∧ crossState s' = .ok () r ∧
      s'.RefusesWith backwardSlide (.infeasible .constraint 4 (finite 5) (finite 2)) ∧
      s'.CrossedConstraint 4 (finite 5) (finite 2) ∧
      r.RefusesWith backwardSlide (.infeasible .variable 3 (finite 3) (finite 1)) ∧
      r.CrossedVariable 3 (finite 3) (finite 1) := by
  have hpasses : transcribesTo slide
      (custom (.standard none) slide crossedRule (some (.vector (#[0, 1 / 4, 1].map finite))) 3
        true)
      (fun _ s' => isRefusedFor backwardSlide .constraint 4 5 2 s' &&
        match crossState s' with
        | .ok _ r => isRefusedFor backwardSlide .variable 3 3 1 r
        | .error _ _ => false) := by
    decide +kernel
  obtain ⟨s, s', hs, hs', hcheck⟩ := exists_of_transcribesTo hpasses
  rw [Bool.and_eq_true] at hcheck
  obtain ⟨hconstraint, hvariable⟩ := hcheck
  split at hvariable
  · next r hr =>
    obtain ⟨htranscribed, hstrays, hsizes, ⟨carried, start, hcarry, hflatten⟩, hrefused⟩ :=
      of_isRefusedFor hconstraint
    obtain ⟨htranscribed', hstrays', hsizes', ⟨carried', start', hcarry', hflatten'⟩, hrefused'⟩ :=
      of_isRefusedFor hvariable
    obtain ⟨-, -, hreport⟩ :=
      crossed_bounds_reported htranscribed hstrays hsizes hcarry hflatten
    obtain ⟨-, -, hreport'⟩ :=
      crossed_bounds_reported htranscribed' hstrays' hsizes' hcarry' hflatten'
    exact ⟨s, s', r, hs, hs', hr, hrefused, (hreport _ _ _ _ hrefused).2.2 rfl, hrefused',
      (hreport' _ _ _ _ hrefused').2.1 rfl⟩
  · cases hvariable

end Scheme
end Collocation
