import Collocation.Proofs.Scheme.Guess
import Collocation.Proofs.Scheme.Transcribed

/-! # Warm starts

  A trajectory that lives on the grid of a scheme is never refused as a guess for it, and if the
  bounds let anything pass, the backend starts at exactly the values of the trajectory, whatever
  the direction of time. So a scheme can be solved again from what it suggested or found. -/

namespace Collocation

section Program

variable {α : Type} [Number α] {s : Scheme α} {t guess : Trajectory α} {x : Array α}

namespace Scheme

/-- What is checked before the backend runs, whatever the guess. -/
def checkBounds (s : Scheme α) : Except (Fault α) Unit := do
  let _ ← s.strayLower.toTable
  let _ ← s.strayUpper.toTable
  checkFeasible .variable (Layout.flatten s.lower) (Layout.flatten s.upper)
  checkFeasible .constraint s.constraintLower s.constraintUpper

/-- The nonlinear program of a scheme that starts at a vector. -/
def programFrom (s : Scheme α) (start : Array α) : Program α where
  solver := s.settings.solver
  options := s.settings.backendOptions
  unknowns := s.stackedVariables
  constraints := s.stackedEquations
  start := start
  lower := Layout.flatten s.lower
  upper := Layout.flatten s.upper
  constraintLower := s.constraintLower
  constraintUpper := s.constraintUpper
  objective := s.objective

/-- The guess is carried and flattened first, then the bounds are checked. -/
theorem program_eq (h : s.transcribed = true) (t : Trajectory α) :
    s.program t = do
      let start ← s.flattenGuess (← s.carryGuess t)
      s.checkBounds
      return s.programFrom start := by
  unfold program checkBounds
  simp only [h, Bool.not_true, Bool.false_eq_true, if_false, bind_assoc]
  rfl

/-- A guess that can be carried and flattened is refused for the bounds only. -/
theorem program_of_carried (h : s.transcribed = true) (hcarry : s.carryGuess t = .ok guess)
    (hflatten : s.flattenGuess guess = .ok x) :
    s.program t = do
      s.checkBounds
      return s.programFrom x := by
  rw [program_eq h, hcarry]
  show (s.flattenGuess guess >>= _) = _
  rw [hflatten]
  rfl

theorem transcribed_of_program {program : Program α} (h : s.program t = .ok program) :
    s.transcribed = true := by
  cases hopen : s.transcribed with
  | true => rfl
  | false =>
    unfold Scheme.program at h
    rw [hopen] at h
    cases h

theorem program_eq_ok (h : s.transcribed = true) {program : Program α}
    (hprogram : s.program t = .ok program) :
    s.checkBounds = .ok () ∧ program = s.programFrom program.start := by
  rw [program_eq h] at hprogram
  obtain ⟨guess, -, hprogram⟩ := bind_eq_ok hprogram
  obtain ⟨start, -, hprogram⟩ := bind_eq_ok hprogram
  obtain ⟨_, hbounds, hprogram⟩ := bind_eq_ok hprogram
  cases hprogram
  exact ⟨hbounds, rfl⟩

theorem solve_eq_ok {p : Problem α} {backend : Backend α} {solved : Solved α}
    (h : s.solve p backend t = .ok solved) :
    s.program t = .ok solved.program ∧ ∃ answer, backend solved.program = .ok answer ∧
      s.solutionOf p answer = .ok solved.solution := by
  obtain ⟨program, hprogram, h⟩ := bind_eq_ok h
  split at h
  · cases h
  · cases h
  · next answer hanswer =>
    obtain ⟨solution, hsolution, h⟩ := bind_eq_ok h
    cases h
    exact ⟨hprogram, answer, hanswer, hsolution⟩

/-- The bound tables of a transcribed scheme have the sizes of its variables. -/
theorem checkVariables_of_transcribe {p : Problem α} {s' : Scheme α}
    (h : transcribe p s = .ok () s') : s'.checkVariables = .ok () := by
  obtain ⟨s₁, s₂, hprepare, happly, rfl⟩ := transcribe_eq_ok h
  obtain ⟨d, hd, rfl⟩ := prepare_eq_ok_iff.mp hprepare
  show s₂.checkVariables = .ok ()
  rw [(steady_applyRule.later_of_ok happly).rest]
  exact hd.complete

theorem size_of_solutionOf {p : Problem α} {answer : Answer α}
    (h : s.solutionOf p answer = .ok t) : answer.vector.size = Layout.length s.extents := by
  obtain ⟨matrices, hmatrices, -⟩ := bind_eq_ok h
  unfold expand Layout.expand at hmatrices
  split_ifs at hmatrices with hsize
  exact hsize

end Scheme
end Program

open Extended

variable {K : Type} [Field K] [LinearOrder K] [FloorRing K] [Interpretation K]
  [IsStrictOrderedRing K] {p p' : Problem (Extended K)} {s s' : Scheme (Extended K)}
  {grid : Array (Extended K)} {q : Nat → K}

namespace Scheme

theorem OnGrid.program_of_livesOn (hs : s.OnGrid grid q) {t : Trajectory (Extended K)}
    (ht : t.LivesOn s) :
    ∃ x, t.flatten = .ok x ∧ s.program t = do
      s.checkBounds
      return s.programFrom x := by
  obtain ⟨x, guess, hx, hcarry, hflatten⟩ := hs.exists_carried ht
  exact ⟨x, hx, program_of_carried hs.transcribed hcarry hflatten⟩

/-- Let a scheme with variables that were made for a problem be transcribed on a grid without an
    undefined point, and its bounds and the functions that it keeps be whatever they have become
    since. A trajectory that lives on this grid is refused by nothing but the checks of the bounds,
    and if these pass the backend starts at the values of the trajectory, element for element. The
    iterates that the scheme makes from its bound tables, while these have the sizes of the
    variables as a transcription leaves them, and the solution in any finite vector of its length
    live on the grid. So from a solution that a backend answered with a finite vector the scheme
    starts at that vector. -/
theorem program_starts_at_guess (hvariables : extentsFor p s.gridPoints = .ok s.extents)
    (h : transcribe p' s = .ok () s') (hgrid : s'.gridVector = .ok grid)
    (hdefined : ∀ x ∈ grid, x ≠ undefined) {r : Scheme (Extended K)}
    (hlater : s'.AgreesButConstraints r) :
    (∀ t : Trajectory (Extended K), t.LivesOn r →
      ∃ x, t.flatten = .ok x ∧ r.program t = do
        r.checkBounds
        return r.programFrom x) ∧
    s'.checkVariables = .ok () ∧
    (∀ problem : Problem (Extended K), r.checkVariables = .ok () →
      (∃ t, r.guessFromBounds problem = .ok t ∧ t.LivesOn r) ∧
      ∀ uniform a b, (∀ n x y, ∃ z, uniform n (finite x) (finite y) = finite z) →
        r.settings.unboundedRange = (finite a, finite b) →
          ∃ t, r.randomWithinBounds problem uniform = .ok t ∧ t.LivesOn r) ∧
    (∀ (problem : Problem (Extended K)) (x : Array K) stats, x.size = Layout.length r.extents →
      ∃ t, r.solutionOf problem ⟨x.map finite, stats⟩ = .ok t ∧ t.LivesOn r ∧
        t.flatten = .ok (x.map finite)) ∧
    ∀ problem backend guess solved, r.solve problem backend guess = .ok solved →
      ∃ answer, backend solved.program = .ok answer ∧
        ∀ x : Array K, answer.vector = x.map finite →
          r.program solved.solution = .ok { solved.program with start := answer.vector } := by
  obtain ⟨q, hs'⟩ := exists_onGrid hvariables h hgrid hdefined
  have hr := hs'.of_agreesButConstraints hlater
  refine ⟨fun t ht => hr.program_of_livesOn ht, checkVariables_of_transcribe h, ?_, ?_, ?_⟩
  · intro problem hsizes
    refine ⟨hr.exists_guessFromBounds hsizes problem, ?_⟩
    intro uniform a b huniform hrange
    exact hr.exists_randomWithinBounds huniform hrange hsizes problem
  · intro problem x stats hx
    exact hr.exists_solutionOf problem hx stats
  · intro problem backend guess solved hsolve
    obtain ⟨hprogram, answer, hanswer, hsolution⟩ := solve_eq_ok hsolve
    refine ⟨answer, hanswer, ?_⟩
    intro x hx
    obtain ⟨hchecks, hstart⟩ := program_eq_ok hr.transcribed hprogram
    -- an answer that was read has the length of a decision vector
    have hsize : x.size = Layout.length r.extents := by
      rw [← Array.size_map (f := finite), ← hx]
      exact size_of_solutionOf hsolution
    obtain ⟨t, ht, hlives, hflatten⟩ := hr.exists_solutionOf problem hsize answer.stats
    rw [← hx] at ht hflatten
    cases hsolution.symm.trans ht
    obtain ⟨y, hy, hagain⟩ := hr.program_of_livesOn hlives
    cases hflatten.symm.trans hy
    rw [hagain, hchecks, hstart]
    rfl

/-- A rule of its own for the slide, without any constraint. -/
def looseRule : Hooks (Extended ℚ) where
  quadrature := .list [.whole 0, .whole 1, .whole 0]
  kinematic := .list [.whole 1, .whole 0, .whole 1]
  directives := []

/-- The slide backwards in time, on three points that are not evenly spread. -/
def backwardSlide : Trajectory (Extended ℚ) :=
  .iterate
    [(.kind .finalTime, ⟨[1, 1], #[0].map finite, by simp⟩),
      (.kind .initialTime, ⟨[1, 1], #[1].map finite, by simp⟩),
      (.index .states (.whole 2), ⟨[1, 3], #[5, 7, 6].map finite, by simp⟩),
      (.kind .controls, ⟨[1, 3], #[1, 2, 3].map finite, by simp⟩),
      (.kind .multipliers, ⟨[0, 3], #[], rfl⟩), (.kind .derivatives, ⟨[0, 3], #[], rfl⟩),
      (.kind .slacks, ⟨[0, 3], #[], rfl⟩), (.kind .parameters, ⟨[0, 1], #[], rfl⟩)]
    (.vector (#[1, 3 / 4, 0].map finite)) {}

/-- The trajectory runs from one time to another on the grid of the transcribed scheme, and no bound
    is in its way. -/
def isOpenFor (t : Trajectory (Extended ℚ)) (initial final : ℚ) (grid : Array (Extended ℚ))
    (_ s' : Scheme (Extended ℚ)) : Bool :=
  s'.gridVector.toOption = some grid && s'.checkBounds.toOption = some () &&
    (t.first .initialTime).toOption = some (finite initial) &&
    (t.first .finalTime).toOption = some (finite final) &&
    (s'.createTimes (finite initial) (finite final)).toOption = some t.times.written &&
    match t.values.toTable with
    | .ok values => Kind.all.all fun k =>
      (values.find? k).map (·.shape) = (s'.extents.find? k).map (·.toList)
    | .error _ => false

theorem livesOn_of_isOpenFor {t : Trajectory (Extended ℚ)} {initial final : ℚ}
    {grid : Array (Extended ℚ)} {s s' : Scheme (Extended ℚ)}
    (h : isOpenFor t initial final grid s s') (hdistinct : t.values.Distinct) :
    t.LivesOn s' ∧ s'.gridVector = .ok grid ∧ s'.checkBounds = .ok () := by
  unfold isOpenFor at h
  simp only [Bool.and_eq_true, decide_eq_true_iff] at h
  obtain ⟨⟨⟨⟨⟨hgrid, hbounds⟩, hinitial⟩, hfinal⟩, htimes⟩, hvalues⟩ := h
  refine ⟨⟨hdistinct, ?_, initial, final, eq_ok_of_toOption hinitial, eq_ok_of_toOption hfinal,
    eq_ok_of_toOption htimes⟩, eq_ok_of_toOption hgrid, eq_ok_of_toOption hbounds⟩
  split at hvalues
  · next values htable =>
    rw [List.all_eq_true] at hvalues
    exact ⟨values, htable, fun k => of_decide_eq_true (hvalues k k.mem_all)⟩
  · cases hvalues

/-- The backend starts at the slide that runs backwards. -/
theorem program_starts_at_guess_slide :
    ∃ s s' program,
      custom (.standard none) slide looseRule (some (.vector (#[0, 1 / 4, 1].map finite))) 3 true =
        .ok s ∧
      transcribe slide s = .ok () s' ∧ s'.program backwardSlide = .ok program ∧
      program.start = #[1, 0, 5, 7, 6, 1, 2, 3].map finite := by
  have hpasses : transcribesTo slide
      (custom (.standard none) slide looseRule (some (.vector (#[0, 1 / 4, 1].map finite))) 3 true)
      (isOpenFor backwardSlide 1 0 (#[0, 1 / 4, 1].map finite)) := by
    decide +kernel
  obtain ⟨s, s', hs, hs', hcheck⟩ := exists_of_transcribesTo hpasses
  obtain ⟨hlives, hgrid, hbounds⟩ := livesOn_of_isOpenFor hcheck (by decide +kernel)
  have hvariables : extentsFor slide s.gridPoints = .ok s.extents := extents_of_custom hs
  obtain ⟨hguess, -⟩ := program_starts_at_guess hvariables hs' hgrid (by decide +kernel) (.refl s')
  obtain ⟨x, hx, hprogram⟩ := hguess backwardSlide hlives
  rw [hbounds] at hprogram
  have hvector : backwardSlide.flatten.toOption = some (#[1, 0, 5, 7, 6, 1, 2, 3].map finite) := by
    decide +kernel
  cases hx.symm.trans (eq_ok_of_toOption hvector)
  exact ⟨s, s', _, hs, hs', hprogram, rfl⟩

end Scheme
end Collocation
