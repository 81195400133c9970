import Collocation.Proofs.Scheme.Feasible
import Collocation.Proofs.Scheme.WarmStart

/-! # Bounds before the backend

  Nothing but the two checks of the bounds, or a backend itself, reports that bounds exclude every
  value. The checks ask whether some lower bound is above its upper one. So bounds that a backend
  is given are in order wherever both are defined; an undefined bound is above nothing and nothing
  is above it, and it passes. -/

namespace Collocation

variable {α : Type} [Number α]

/-! ## Faults that are not about bounds -/

/-- The fault does not report bounds that exclude every value. -/
def Fault.SparesBounds (fault : Fault α) : Prop := fault.category ≠ .infeasible

theorem sparesBounds_abscissae (oldTimes newTimes : Array α) :
    FailsOnly Fault.SparesBounds (abscissae oldTimes newTimes) := by
  unfold abscissae
  split_ifs
  · exact .ok _
  · exact .error nofun
  · exact .ok _

theorem sparesBounds_resampleRows (oldTimes newTimes : Array α) (t : Tensor α) :
    FailsOnly Fault.SparesBounds (resampleRows oldTimes newTimes t) := by
  unfold resampleRows
  simp only
  split
  · exact .error nofun
  split
  · exact .ok _
  split
  · exact .ok _
  refine (sparesBounds_abscissae _ _).bind fun points _ => ?_
  split
  · exact .error nofun
  split
  · exact .error nofun
  · exact .ok _

omit [Number α] in
theorem Keyed.sparesBounds_toTable {β : Type} (entries : Keyed α β) :
    FailsOnly Fault.SparesBounds entries.toTable := by
  refine FailsOnly.bind (FailsOnly.mapM fun entry _ => ?_) fun _ _ => .ok _
  refine FailsOnly.bind ?_ fun _ _ => .ok _
  cases entry.1 with
  | kind k => exact .ok _
  | index k written => exact .ok _
  | other l => exact .error nofun

theorem Keyed.sparesBounds_get {β : Type} (entries : Keyed α β) (k : Kind) :
    FailsOnly Fault.SparesBounds (entries.get k) := by
  unfold Keyed.get
  split
  · exact .ok _
  · exact .error nofun

omit [Number α] in
theorem Table.sparesBounds_get {β : Type} (t : Table β) (k : Kind) :
    FailsOnly Fault.SparesBounds (t.get k : Except (Fault α) β) := by
  unfold Table.get
  split
  · exact .ok _
  · exact .error nofun

theorem Trajectory.sparesBounds_first (t : Trajectory α) (k : Kind) :
    FailsOnly Fault.SparesBounds (t.first k) := by
  refine (Keyed.sparesBounds_get _ _).bind fun value _ => ?_
  split
  · exact .error nofun
  · exact .ok _

theorem Trajectory.sparesBounds_resample (t : Trajectory α) (times : Array α) :
    FailsOnly Fault.SparesBounds (t.resample times) := by
  refine FailsOnly.bind (FailsOnly.mapM fun entry _ => ?_) fun _ _ => .ok _
  refine FailsOnly.bind ?_ fun _ _ => .ok _
  unfold resampleValue
  split
  · split
    · exact sparesBounds_resampleRows _ _ _
    · exact .ok _
  · exact .ok _

namespace Scheme

variable {s : Scheme α} {p : Problem α} {guess : Trajectory α} {fault : Fault α}

theorem sparesBounds_gridVector (s : Scheme α) : FailsOnly Fault.SparesBounds s.gridVector := by
  unfold gridVector
  split
  · exact .ok _
  · exact .error nofun

theorem sparesBounds_carryGuess (s : Scheme α) (guess : Trajectory α) :
    FailsOnly Fault.SparesBounds (s.carryGuess guess) :=
  (guess.sparesBounds_first _).bind fun _ _ => (guess.sparesBounds_first _).bind fun _ _ =>
    (s.sparesBounds_gridVector.bind fun _ _ => .ok _).bind fun _ _ =>
      guess.sparesBounds_resample _

theorem sparesBounds_flattenGuess (s : Scheme α) (guess : Trajectory α) :
    FailsOnly Fault.SparesBounds (s.flattenGuess guess) := by
  have hvalue : ∀ k extent, FailsOnly Fault.SparesBounds (guessValue guess k extent) := by
    intro k extent
    unfold guessValue
    split
    · simp only [pure_bind]
      split
      · exact .ok _
      · exact .error nofun
    · split
      · simp only [pure_bind]
        split
        · exact .ok _
        · exact .error nofun
      · exact .error nofun
  refine FailsOnly.bind ?_ fun _ _ => .ok _
  exact FailsOnly.bind (FailsOnly.mapM fun entry _ => (hvalue _ _).bind fun _ _ => .ok _)
    fun _ _ => .ok _

theorem sparesBounds_solutionOf (s : Scheme α) (p : Problem α) (answer : Answer α) :
    FailsOnly Fault.SparesBounds (s.solutionOf p answer) := by
  have hexpand : FailsOnly Fault.SparesBounds (s.expand answer.vector) := by
    unfold expand Layout.expand
    split
    · exact .ok _
    · exact .error nofun
  have hfirst : ∀ t : Tensor α, FailsOnly Fault.SparesBounds (firstElement t) := by
    intro t
    unfold firstElement
    split
    · exact .error nofun
    · exact .ok _
  refine hexpand.bind fun matrices _ => ?_
  refine FailsOnly.bind ?_ fun times _ => (Keyed.sparesBounds_toTable _).bind fun _ _ => .ok _
  exact (Table.sparesBounds_get _ _).bind fun _ _ => (Table.sparesBounds_get _ _).bind fun _ _ =>
    s.sparesBounds_gridVector.bind fun _ _ => (hfirst _).bind fun _ _ => (hfirst _).bind fun _ _ =>
      .ok _

/-! ## Faults about bounds -/

/-- A program is not made for its bounds only if the check of the bounds refuses them. -/
theorem checkBounds_of_program_eq_error (h : s.program guess = .error fault)
    (hfault : fault.category = .infeasible) : s.checkBounds = .error fault := by
  cases htranscribed : s.transcribed with
  | false =>
    unfold program at h
    rw [htranscribed] at h
    cases h
    cases hfault
  | true =>
    rw [program_eq htranscribed] at h
    rcases bind_eq_error h with hcarry | ⟨carried, -, h⟩
    · exact absurd hfault (s.sparesBounds_carryGuess guess fault hcarry)
    rcases bind_eq_error h with hflatten | ⟨start, -, h⟩
    · exact absurd hfault (s.sparesBounds_flattenGuess carried fault hflatten)
    rcases bind_eq_error h with hbounds | ⟨_, -, h⟩
    · exact hbounds
    · cases h

/-- Only the check of the bounds and the backend itself report bounds that exclude every value. -/
theorem checkBounds_of_solve_eq_error {backend : Backend α}
    (h : s.solve p backend guess = .error fault) (hfault : fault.category = .infeasible) :
    s.checkBounds = .error fault ∨
      ∃ program, s.program guess = .ok program ∧ backend program = .error (.other fault) := by
  rcases bind_eq_error h with hprogram | ⟨program, hprogram, h⟩
  · exact .inl (checkBounds_of_program_eq_error hprogram hfault)
  split at h
  · cases h
    cases hfault
  · next hbackend =>
    cases h
    exact .inr ⟨program, hprogram, hbackend⟩
  · next answer _ =>
    rcases bind_eq_error h with hsolution | ⟨_, -, h⟩
    · exact absurd hfault (s.sparesBounds_solutionOf p answer fault hsolution)
    · cases h

/-- Bounds that do not cross pass the checks. -/
theorem checkBounds_of_ordered (hstrays : ∀ which, s.strays which = [])
    (hvariables : Ordered (Layout.flatten s.lower) (Layout.flatten s.upper))
    (hconstraints : Ordered s.constraintLower s.constraintUpper) : s.checkBounds = .ok () := by
  have hlower : s.strayLower = [] := hstrays .lower
  have hupper : s.strayUpper = [] := hstrays .upper
  unfold checkBounds
  rw [hlower, hupper, checkFeasible_of_ordered _ hvariables, checkFeasible_of_ordered _ hconstraints]
  rfl

end Scheme

/-! ## What passes the checks -/

/-- The element at a place of a vector in which a single element is repeated. -/
def repeatedAt (v : Array α) (i : Nat) : α := v.getD (if v.size = 1 then 0 else i) default

omit [Number α] in
/-- The number of pairs of two vectors of which one may be a single element that is repeated. -/
def pairCount (lower upper : Array α) : Nat := if lower.size = 1 then upper.size else lower.size

/-- The bounds go together in pairs, and wherever both bounds are defined the lower one is at most
    the upper one. -/
structure OrderedWhereDefined (lower upper : Array α) : Prop where
  paired : lower.size = upper.size ∨ lower.size = 1 ∨ upper.size = 1
  atMost : ∀ i < pairCount lower upper, Number.isUndefined (repeatedAt lower i) = false →
    Number.isUndefined (repeatedAt upper i) = false →
      Number.atMost (repeatedAt lower i) (repeatedAt upper i)

theorem stretch?_vectors (m n : Nat) :
    stretch? [m] [n] =
      if m = n ∨ n = 1 then some [m] else if m = 1 then some [n] else none := by
  unfold stretch?
  simp only [List.reverse_cons, List.reverse_nil, List.nil_append, stretchReversed?]
  split_ifs <;> rfl

omit [Number α] in
/-- Vectors that go together are repeated to the number of their pairs. -/
theorem stretch?_of_paired {lower upper : Array α}
    (h : lower.size = upper.size ∨ lower.size = 1 ∨ upper.size = 1) :
    stretch? [lower.size] [upper.size] = some [pairCount lower upper] ∧
      (lower.size = pairCount lower upper ∨ lower.size = 1) ∧
      (upper.size = pairCount lower upper ∨ upper.size = 1) := by
  rw [stretch?_vectors, pairCount]
  split_ifs with hstretch hone hone
  · have hsame : lower.size = upper.size := by omega
    exact ⟨congrArg (fun m => some [m]) hsame, .inr hone, .inl rfl⟩
  · exact ⟨rfl, .inl rfl, by omega⟩
  · exact ⟨rfl, .inr hone, .inl rfl⟩
  · omega

theorem getD_repeatTo? {v : Array α} {n i : Nat} (h : v.size = n ∨ v.size = 1) (hi : i < n) :
    ((repeatTo? n v).getD v).getD i default = repeatedAt v i := by
  unfold repeatTo? repeatedAt
  by_cases hn : v.size = n
  · rw [if_pos hn, Option.getD_some]
    split_ifs with hone
    · rw [show i = 0 by omega]
    · rfl
  · have hone : v.size = 1 := h.resolve_left hn
    rw [if_neg hn, if_pos hone, if_pos hone, Option.getD_some]
    simp [hi]

variable [LawfulComparison α]

/-- A lower bound is not above an upper one exactly if it is at most that one or one of them is
    undefined. -/
theorem not_below_iff {x y : α} :
    Number.below y x = false ↔
      (Number.isUndefined x = false → Number.isUndefined y = false → Number.atMost x y) := by
  constructor
  · exact fun h hx hy => LawfulComparison.atMost_of_not_below hx hy h
  · intro h
    rw [← Bool.not_eq_true]
    intro hbelow
    have hatMost : Number.atMost y x := by simp [Number.atMost, hbelow]
    obtain ⟨hy, hx⟩ := LawfulComparison.defined_of_atMost hatMost
    rw [LawfulComparison.not_below_of_atMost (h hx hy)] at hbelow
    cases hbelow

/-- The check passes exactly the bounds that are in order wherever both are defined. -/
theorem checkFeasible_eq_ok_iff {part : BoundedPart} {lower upper : Array α} :
    checkFeasible part lower upper = .ok () ↔ OrderedWhereDefined lower upper := by
  by_cases hpaired : lower.size = upper.size ∨ lower.size = 1 ∨ upper.size = 1
  · obtain ⟨hstretch, hlower, hupper⟩ := stretch?_of_paired hpaired
    have hfind : ((List.range (pairCount lower upper)).find? fun i =>
        Number.below (((repeatTo? (pairCount lower upper) upper).getD upper).getD i default)
          (((repeatTo? (pairCount lower upper) lower).getD lower).getD i default)) = none ↔
        OrderedWhereDefined lower upper := by
      rw [List.find?_eq_none]
      constructor
      · intro h
        refine ⟨hpaired, fun i hi => ?_⟩
        have hnot := h i (List.mem_range.mpr hi)
        rw [getD_repeatTo? hlower hi, getD_repeatTo? hupper hi, Bool.not_eq_true] at hnot
        exact not_below_iff.mp hnot
      · intro h i hi
        have hi : i < pairCount lower upper := List.mem_range.mp hi
        rw [getD_repeatTo? hlower hi, getD_repeatTo? hupper hi, Bool.not_eq_true]
        exact not_below_iff.mpr (h.atMost i hi)
    rw [← hfind]
    unfold checkFeasible
    rw [hstretch]
    simp only [volume_cons, volume_nil, Nat.mul_one]
    cases (List.range (pairCount lower upper)).find? fun i =>
      Number.below (((repeatTo? (pairCount lower upper) upper).getD upper).getD i default)
        (((repeatTo? (pairCount lower upper) lower).getD lower).getD i default) with
    | none => simp
    | some i =>
      simp only
      split_ifs <;> simp
  · -- vectors that do not go together are refused before they are compared
    have hstretch : stretch? [lower.size] [upper.size] = none := by
      rw [stretch?_vectors, if_neg (by omega), if_neg (by omega)]
    unfold checkFeasible
    rw [hstretch]
    exact ⟨nofun, fun h => absurd h.paired hpaired⟩

namespace Scheme

variable {s : Scheme α} {guess : Trajectory α}

omit [LawfulComparison α] in
/-- Every block has as many lower bounds as upper ones, so all of them have. -/
theorem size_constraintLower (s : Scheme α) : s.constraintLower.size = s.constraintUpper.size := by
  have hfold : ∀ {bs : List (Block α)} {lower upper : Array α}, lower.size = upper.size →
      (bs.foldl (fun acc b => acc ++ s.current b.lower) lower).size =
        (bs.foldl (fun acc b => acc ++ s.current b.upper) upper).size := by
    intro bs
    induction bs with
    | nil => exact id
    | cons b bs ih =>
      intro lower upper hsize
      refine ih ?_
      rw [Array.size_append, Array.size_append, hsize, size_current, size_current, b.size_lower,
        b.size_upper]
  exact hfold rfl

/-- What has become of a scheme by its rule, its constraints and all that was written into its
    bounds does not matter: where a program is handed over to a backend, all bounds of the
    variables and all bounds of the constraints go together in pairs, and of two bounds that are
    both defined the lower one is at most the upper one. No other program is ever handed over. And
    where there is no program, the fault is the same for every backend, as none is asked. -/
theorem backend_bounds_ordered (s : Scheme α) (guess : Trajectory α) :
    (∀ program, s.program guess = .ok program →
      OrderedWhereDefined program.lower program.upper ∧
      program.constraintLower.size = program.constraintUpper.size ∧
      OrderedWhereDefined program.constraintLower program.constraintUpper ∧
      ∀ p (backend backend' : Backend α), backend program = backend' program →
        s.solve p backend guess = s.solve p backend' guess) ∧
    ∀ fault, s.program guess = .error fault → ∀ p backend, s.solve p backend guess = .error fault := by
  refine ⟨fun program hprogram => ?_, fun fault hfault p backend => ?_⟩
  · have hsolve : ∀ p (backend backend' : Backend α), backend program = backend' program →
        s.solve p backend guess = s.solve p backend' guess := by
      intro p backend backend' hsame
      unfold solve
      rw [hprogram]
      simp only [bind, Except.bind, hsame]
    obtain ⟨hchecks, hfrom⟩ := program_eq_ok (transcribed_of_program hprogram) hprogram
    obtain ⟨_, -, hchecks⟩ := bind_eq_ok hchecks
    obtain ⟨_, -, hchecks⟩ := bind_eq_ok hchecks
    obtain ⟨_, hvariables, hconstraints⟩ := bind_eq_ok hchecks
    -- the vectors that were checked are those of the program
    rw [hfrom] at hsolve ⊢
    exact ⟨checkFeasible_eq_ok_iff.mp hvariables, s.size_constraintLower,
      checkFeasible_eq_ok_iff.mp hconstraints, hsolve⟩
  · unfold solve
    rw [hfault]
    rfl

/-! ## Two slides -/

open Extended

/-- The scheme hands over a program that passes a check for its own guess. -/
def handsOver (p : Problem (Extended ℚ)) (check : Program (Extended ℚ) → Bool)
    (_ s' : Scheme (Extended ℚ)) : Bool :=
  match s'.guessFromBounds p with
  | .ok guess =>
    match s'.program guess with
    | .ok program => check program
    | .error _ => false
  | .error _ => false

theorem exists_of_handsOver {p : Problem (Extended ℚ)} {check : Program (Extended ℚ) → Bool}
    {s s' : Scheme (Extended ℚ)} (h : handsOver p check s s') :
    ∃ guess program, s'.program guess = .ok program ∧ check program := by
  unfold handsOver at h
  split at h
  · next guess _ =>
    split at h
    · next program hprogram => exact ⟨guess, program, hprogram, h⟩
    · cases h
  · cases h

/-- The bounds of the speed go to the backend as they were declared. -/
theorem backend_bounds_ordered_slide :
    ∃ s s' guess program, trapezoidal (.standard none) slide (.whole 2) = .ok s ∧
      transcribe slide s = .ok () s' ∧ s'.program guess = .ok program ∧
      program.constraintLower = #[0, 0, 0, 0, 0, 0, 1].map finite ∧
      program.constraintUpper = #[0, 1, 1, 2, 2, 0, 1].map finite ∧
      OrderedWhereDefined program.lower program.upper ∧
      OrderedWhereDefined program.constraintLower program.constraintUpper := by
  have hpasses : transcribesTo slide (trapezoidal (.standard none) slide (.whole 2))
      (handsOver slide fun program =>
        program.constraintLower = #[0, 0, 0, 0, 0, 0, 1].map finite &&
          program.constraintUpper = #[0, 1, 1, 2, 2, 0, 1].map finite) := by
    decide +kernel
  obtain ⟨s, s', hs, hs', hcheck⟩ := exists_of_transcribesTo hpasses
  obtain ⟨guess, program, hprogram, hbounds⟩ := exists_of_handsOver hcheck
  simp only [Bool.and_eq_true, decide_eq_true_iff] at hbounds
  obtain ⟨hvariables, -, hconstraints, -⟩ := (backend_bounds_ordered s' guess).1 program hprogram
  exact ⟨s, s', guess, program, hs, hs', hprogram, hbounds.1, hbounds.2, hvariables, hconstraints⟩

/-- The slide without a lower bound for the speed. -/
def halfBoundedSlide : Problem (Extended ℚ) :=
  { slide with pathConstraints := [⟨"speed", .name "u", .null, .whole 2⟩] }

/-- A missing bound is undefined, and it passes both checks: the backend is given a lower bound that
    is not at most its upper bound. -/
theorem undefined_bound_reaches_backend :
    ∃ s s' guess program,
      trapezoidal (.standard none) halfBoundedSlide (.whole 2) = .ok s ∧
      transcribe halfBoundedSlide s = .ok () s' ∧ s'.program guess = .ok program ∧
      ∃ i < program.constraintLower.size, Number.atMost (program.constraintLower.getD i default)
        (program.constraintUpper.getD i default) = false := by
  have hpasses : transcribesTo halfBoundedSlide
      (trapezoidal (.standard none) halfBoundedSlide (.whole 2))
      (handsOver halfBoundedSlide fun program => 3 < program.constraintLower.size &&
        !Number.atMost (program.constraintLower.getD 3 default)
          (program.constraintUpper.getD 3 default)) := by
    decide +kernel
  obtain ⟨s, s', hs, hs', hcheck⟩ := exists_of_transcribesTo hpasses
  obtain ⟨guess, program, hprogram, hbounds⟩ := exists_of_handsOver hcheck
  simp only [Bool.and_eq_true, decide_eq_true_iff, Bool.not_eq_true'] at hbounds
  exact ⟨s, s', guess, program, hs, hs', hprogram, 3, hbounds.1, hbounds.2⟩

end Scheme
end Collocation
