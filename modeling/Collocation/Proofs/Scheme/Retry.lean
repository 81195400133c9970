import Collocation.Proofs.Scheme.Phases
import Collocation.Proofs.Scheme.Steps
import Collocation.Proofs.Scheme.Vectors

/-! # Transcribing again

  A transcription that fails is not undone. The blocks that were there stay where they are, and
  behind them stay those that were recorded before the failure. Everything else that was written
  is written again by the next transcription, which records after the old blocks what it records
  for a scheme that never failed. So two transcriptions give the same program exactly if the first
  one left no blocks, as it does unless it fails while constraints are written. -/

namespace Collocation

variable {α : Type} [Number α]

namespace Scheme

variable {p p' : Problem α} {s s₁ s₂ t t' : Scheme α} {fault : Fault α}

/-! ## What a transcription does not write -/

/-- The scheme with everything that a transcription of another one writes. -/
def redrafted (s t : Scheme α) : Scheme α :=
  { s with
    grid := t.grid, gridLocked := t.gridLocked, times := t.times, duration := t.duration,
    objective := t.objective, blocks := t.blocks, weights := t.weights, mask := t.mask,
    dynamics := t.dynamics, quadratureError := t.quadratureError }

/-- The schemes differ only in what a transcription writes, and have grids of the same elements. -/
structure SameFrame (s t : Scheme α) : Prop where
  rest : t = s.redrafted t
  grid : t.grid.map Tensor.written = s.grid.map Tensor.written

theorem SameFrame.refl (s : Scheme α) : SameFrame s s := ⟨rfl, rfl⟩

theorem SameFrame.symm (h : SameFrame s t) : SameFrame t s := by
  refine ⟨?_, h.grid.symm⟩
  rw [h.rest]
  rfl

theorem SameFrame.trans (h : SameFrame s s₁) (h' : SameFrame s₁ s₂) : SameFrame s s₂ := by
  refine ⟨?_, h'.grid.trans h.grid⟩
  rw [h'.rest, h.rest]
  rfl

theorem SameFrame.rule (h : SameFrame s t) : t.rule = s.rule := by
  rw [h.rest]
  rfl

theorem SameFrame.gridPoints (h : SameFrame s t) : t.gridPoints = s.gridPoints := by
  rw [h.rest]
  rfl

theorem SameFrame.extents (h : SameFrame s t) : t.extents = s.extents := by
  rw [h.rest]
  rfl

theorem SameFrame.side (h : SameFrame s t) (which : Side) : t.side which = s.side which := by
  rw [h.rest]
  rfl

theorem SameFrame.strays (h : SameFrame s t) (which : Side) : t.strays which = s.strays which := by
  rw [h.rest]
  rfl

theorem Later.sameFrame (h : Later p s t) : SameFrame s t := by
  constructor
  · rw [h.rest]
    rfl
  · rw [h.rest]
    rfl

/-! ## Preparing twice -/

theorem SameFrame.checkedGrid_eq (h : SameFrame s t) : t.checkedGrid = s.checkedGrid := by
  have hgrid := h.grid
  unfold checkedGrid
  rw [h.gridPoints, h.rule]
  cases hs : s.grid with
  | none =>
    rw [hs, Option.map_none, Option.map_eq_none_iff] at hgrid
    rw [hgrid]
  | some grid =>
    rw [hs, Option.map_some, Option.map_eq_some_iff] at hgrid
    obtain ⟨grid', ht, hwritten⟩ := hgrid
    rw [ht]
    simp only [hwritten]

/-- What a preparation finds in a scheme it finds in every scheme of the same frame. -/
theorem Draft.Of.of_sameFrame {d : Draft α} (hd : d.Of p t) (h : SameFrame s t) : d.Of p s := by
  have hgrid := h.checkedGrid_eq
  have hrest := h.rest
  rw [hd.points] at hgrid
  -- apart from the grid, nothing that was looked at is written by a transcription
  obtain ⟨huntouched, -, hcomplete, hinitial, hfinal, hduration, htimes, hweights, hmask,
    hobjective⟩ := hd
  rw [hrest] at huntouched hcomplete hinitial hfinal hweights hmask hobjective
  exact ⟨huntouched, hgrid.symm, hcomplete, hinitial, hfinal, hduration, htimes, hweights, hmask,
    hobjective⟩

/-- A second preparation writes what the first one would have written. -/
theorem prepare_again (h : SameFrame s t) (ht : prepare p t = .ok () t') :
    ∃ s', prepare p s = .ok () s' ∧ s'.blocks = s.blocks ∧ s'.dynamics = s.dynamics ∧
      s'.quadratureError = s.quadratureError ∧
      t' = s'.withHistory t.blocks t.dynamics t.quadratureError := by
  obtain ⟨d, hd, rfl⟩ := prepare_eq_ok_iff.mp ht
  refine ⟨d.write s, prepare_eq_ok_iff.mpr ⟨d, hd.of_sameFrame h, rfl⟩, rfl, rfl, rfl, ?_⟩
  rw [h.rest]
  rfl

/-! ## Transcribing twice -/

/-- Two schemes of one frame are transcribed to the same program but for the blocks in front. -/
theorem transcribe_again (h : SameFrame s t) (hs : s.Current p) (htc : t.Current p)
    (ht : transcribe p t = .ok () t') :
    ∃ s' new, transcribe p s = .ok () s' ∧ s'.blocks = s.blocks ++ new ∧
      t'.blocks = t.blocks ++ new ∧ t'.objective = s'.objective := by
  obtain ⟨t₁, t₂, hprepare, happly, rfl⟩ := transcribe_eq_ok ht
  obtain ⟨s₁, hs₁, hblocks, hdynamics, herror, rfl⟩ := prepare_again h hprepare
  have halike : Alike p s.blocks t.blocks s₁
      (s₁.withHistory t.blocks t.dynamics t.quadratureError) := by
    refine ⟨rfl, ⟨[], ?_, ?_⟩, ⟨?_, ?_⟩, ⟨htc.dynamics, htc.quadratureError⟩⟩
    · rw [hblocks, List.append_nil]
    · exact (List.append_nil _).symm
    · rw [hdynamics]
      exact hs.dynamics
    · rw [herror]
      exact hs.quadratureError
  -- so the rule ends in the same way for both, and writes the same blocks
  have hsame := steady_applyRule.same halike
  rw [happly] at hsame
  cases hs₂ : applyRule p s₁ with
  | error fault s₂ =>
    rw [hs₂] at hsame
    cases hsame
  | ok v s₂ =>
    rw [hs₂] at hsame
    cases hsame with
    | ok halike₂ =>
      obtain ⟨new, hnew, hnew'⟩ := halike₂.blocks
      refine ⟨{ s₂ with transcribed := true }, new, ?_, hnew, hnew', ?_⟩
      · unfold transcribe
        rw [run_ok_bind hs₁, run_ok_bind hs₂]
        rfl
      · show t₂.objective = s₂.objective
        rw [halike₂.rest]
        rfl

/-! ## After a failure -/

/-- Nothing is recorded and no function is built. -/
structure Drafted (s s' : Scheme α) : Prop extends SameFrame s s' where
  blocks : s'.blocks = s.blocks
  dynamics : s'.dynamics = s.dynamics
  quadratureError : s'.quadratureError = s.quadratureError

/-- However a preparation ends, it has recorded nothing. -/
theorem drafted_prepare (p : Problem α) (s : Scheme α) : Drafted s (stateOf (prepare p s)) := by
  have hrefl : Drafted s s := ⟨.refl s, rfl, rfl, rfl⟩
  unfold prepare
  rw [run_get_bind]
  by_cases htranscribed : s.transcribed
  · rw [if_pos htranscribed]
    exact hrefl
  rw [if_neg htranscribed]
  apply stateOf_attempt_bind hrefl
  intro points hpoints
  have hgrid : (some (Tensor.vector points)).map Tensor.written = s.grid.map Tensor.written := by
    rw [written_of_checkedGrid hpoints, Option.map_some, Tensor.written_vector]
  rw [run_set_bind]
  apply stateOf_attempt_bind ⟨⟨rfl, hgrid⟩, rfl, rfl, rfl⟩
  intro _ _
  refine stateOf_bind ?_ ?_
  · -- the times
    unfold setTimes
    rw [run_get_bind]
    apply stateOf_attempt_bind ⟨⟨rfl, hgrid⟩, rfl, rfl, rfl⟩
    intro initial _
    apply stateOf_attempt_bind ⟨⟨rfl, hgrid⟩, rfl, rfl, rfl⟩
    intro final _
    apply stateOf_attempt_bind ⟨⟨rfl, hgrid⟩, rfl, rfl, rfl⟩
    intro duration _
    rw [run_set_bind]
    apply stateOf_attempt_bind ⟨⟨rfl, hgrid⟩, rfl, rfl, rfl⟩
    intro points' _
    apply stateOf_attempt_bind ⟨⟨rfl, hgrid⟩, rfl, rfl, rfl⟩
    intro times _
    exact ⟨⟨rfl, hgrid⟩, rfl, rfl, rfl⟩
  · -- and what is found after them
    intro _ s₁ hset
    obtain ⟨_, _, _, _, _, -, -, -, -, -, rfl⟩ := setTimes_eq_ok_iff.mp hset
    rw [run_get_bind]
    apply stateOf_attempt_bind ⟨⟨rfl, hgrid⟩, rfl, rfl, rfl⟩
    intro weights _
    rw [run_modify_bind, run_get_bind]
    apply stateOf_attempt_bind ⟨⟨rfl, hgrid⟩, rfl, rfl, rfl⟩
    intro mask _
    rw [run_modify_bind, run_get_bind]
    apply stateOf_attempt_bind ⟨⟨rfl, hgrid⟩, rfl, rfl, rfl⟩
    intro objective _
    exact ⟨⟨rfl, hgrid⟩, rfl, rfl, rfl⟩

/-! ### Built-in rules without dynamics -/

theorem allDerivatives_eq_error (hs : s.dynamics = none) (hf : p.dynamicsFunction = .error fault)
    (hpoints : 0 < s.gridPoints) : allDerivatives p s = .error fault s := by
  have hdynamics : dynamicsOf p s = .error fault s := by
    unfold dynamicsOf
    rw [run_get_bind, hs, hf]
    rfl
  -- they are asked for at the first grid point
  obtain ⟨n, hn⟩ : ∃ n, s.gridPoints = n + 1 := ⟨s.gridPoints - 1, by omega⟩
  unfold allDerivatives
  rw [run_get_bind, hn, List.range_succ_eq_map, List.mapM_cons]
  exact run_error_bind (run_error_bind (run_error_bind hdynamics))

/-- A built-in rule builds the dynamics before it records anything. -/
theorem stateOf_applyRule (hs : s.dynamics = none) (hf : p.dynamicsFunction = .error fault)
    (hrule : ∀ hooks, s.rule ≠ .custom hooks) (hpoints : 0 < s.gridPoints) :
    stateOf (applyRule p s) = s := by
  have hfails := allDerivatives_eq_error hs hf hpoints
  unfold applyRule
  rw [run_get_bind]
  cases hr : s.rule with
  | trapezoidal mesh =>
    apply stateOf_attempt_bind (P := (· = s)) rfl
    intro grid _
    rw [run_error_bind hfails]
    rfl
  | hermiteSimpson mesh tieControls =>
    show stateOf ((allDerivatives p >>= _) s) = s
    rw [run_error_bind hfails]
    rfl
  | custom hooks => exact absurd hr (hrule hooks)

/-! ### The whole transcription -/

/-- A transcription that fails has only added. -/
theorem later_of_transcribe_error (h : transcribe p s = .error fault s₁) :
    SameFrame s s₁ ∧ s.blocks <+: s₁.blocks ∧
      Kept (fun f => p.dynamicsFunction = .ok f) s.dynamics s₁.dynamics ∧
      Kept (fun f => p.quadratureErrorFunction = .ok (some f)) s.quadratureError
        s₁.quadratureError := by
  have hdrafted := drafted_prepare p s
  rcases transcribe_eq_error h with hfails | ⟨s', hs', hfails⟩
  · rw [hfails] at hdrafted
    exact ⟨hdrafted.toSameFrame, hdrafted.blocks ▸ List.prefix_rfl, .inl hdrafted.dynamics,
      .inl hdrafted.quadratureError⟩
  · rw [hs'] at hdrafted
    -- the rule has only added to what the preparation left
    have hlater := steady_applyRule.later (p := p) s'
    rw [hfails] at hlater
    refine ⟨hdrafted.toSameFrame.trans hlater.sameFrame, ?_, ?_, ?_⟩
    · exact hdrafted.blocks ▸ hlater.blocks
    · exact hdrafted.dynamics ▸ hlater.dynamics
    · exact hdrafted.quadratureError ▸ hlater.quadratureError

/-- Before the constraints are written, a failure leaves no blocks. -/
theorem blocks_of_prepare_error (h : transcribe p s = .error fault s₁)
    (hprepare : ∀ s', prepare p s ≠ .ok () s') : s₁.blocks = s.blocks := by
  have hdrafted := drafted_prepare p s
  rcases transcribe_eq_error h with hfails | ⟨s', hs', -⟩
  · rw [hfails] at hdrafted
    exact hdrafted.blocks
  · exact absurd hs' (hprepare s')

/-- Without dynamics, a built-in rule leaves no blocks. -/
theorem blocks_of_dynamics_error (h : transcribe p s = .error fault s₁)
    (hrule : ∀ hooks, s.rule ≠ .custom hooks) (hnone : s.dynamics = none)
    (hdynamics : ∀ f, p.dynamicsFunction ≠ .ok f) : s₁.blocks = s.blocks := by
  have hdrafted := drafted_prepare p s
  rcases transcribe_eq_error h with hfails | ⟨s', hs', hfails⟩
  · rw [hfails] at hdrafted
    exact hdrafted.blocks
  · obtain ⟨d, hd, rfl⟩ := prepare_eq_ok_iff.mp hs'
    have hpoints : 0 < (d.write s).gridPoints := gridPoints_pos_of_checkedGrid (s := s) hd.points
    cases hf : p.dynamicsFunction with
    | ok f => exact absurd hf (hdynamics f)
    | error fault' =>
      have hstate := stateOf_applyRule (s := d.write s) hnone hf hrule hpoints
      rw [hfails] at hstate
      exact congrArg (·.blocks) hstate

/-- What a transcription that fails leaves behind, and what the next one makes of it. -/
theorem transcribe_failed (h : transcribe p s = .error fault s₁) :
    ∃ left, s₁.blocks = s.blocks ++ left ∧ s₁.transcribed = s.transcribed ∧
      ((∀ s', prepare p s ≠ .ok () s') → left = []) ∧
      ((∀ hooks, s.rule ≠ .custom hooks) → s.dynamics = none →
        (∀ f, p.dynamicsFunction ≠ .ok f) → left = []) ∧
      Kept (fun f => p.dynamicsFunction = .ok f) s.dynamics s₁.dynamics ∧
      Kept (fun f => p.quadratureErrorFunction = .ok (some f)) s.quadratureError
        s₁.quadratureError ∧
      ∀ p' s₀, SameFrame s s₀ → s₀.Current p' → s₁.Current p' →
        ((∃ s₂, transcribe p' s₁ = .ok () s₂) ↔ ∃ t, transcribe p' s₀ = .ok () t) ∧
        ∀ s₂, transcribe p' s₁ = .ok () s₂ →
          ∃ t new, transcribe p' s₀ = .ok () t ∧ t.blocks = s₀.blocks ++ new ∧
            s₂.blocks = s.blocks ++ left ++ new ∧ s₂.objective = t.objective := by
  obtain ⟨hframe, ⟨left, hleft⟩, hdynamics, herror⟩ := later_of_transcribe_error h
  have hempty : s₁.blocks = s.blocks → left = [] := by
    intro hsame
    simpa [hsame] using hleft
  refine ⟨left, hleft.symm, ?_, ?_, ?_, hdynamics, herror, ?_⟩
  · rw [hframe.rest]
    rfl
  · intro hprepare
    exact hempty (blocks_of_prepare_error h hprepare)
  · intro hrule hnone hfails
    exact hempty (blocks_of_dynamics_error h hrule hnone hfails)
  intro p' s₀ hs₀ hcurrent₀ hcurrent₁
  -- the scheme after the failure and the fresh one differ in what is written anew
  have hframe₀ : SameFrame s₀ s₁ := hs₀.symm.trans hframe
  refine ⟨⟨?_, ?_⟩, ?_⟩
  · rintro ⟨s₂, hs₂⟩
    obtain ⟨t, -, ht, -⟩ := transcribe_again hframe₀ hcurrent₀ hcurrent₁ hs₂
    exact ⟨t, ht⟩
  · rintro ⟨t, ht⟩
    obtain ⟨s₂, -, hs₂, -⟩ := transcribe_again hframe₀.symm hcurrent₁ hcurrent₀ ht
    exact ⟨s₂, hs₂⟩
  · intro s₂ hs₂
    obtain ⟨t, new, ht, hnew, hnew₂, hobjective⟩ :=
      transcribe_again hframe₀ hcurrent₀ hcurrent₁ hs₂
    refine ⟨t, new, ht, hnew, ?_, hobjective⟩
    rw [hnew₂, hleft]

/-! ## A failure that leaves blocks -/

/-- The slide with two bounds for its only path equation. -/
def jammedSlide : Problem (Extended ℚ) :=
  { slide with
    pathConstraints := [⟨"speed", .name "u", .list [.whole 0, .whole 0], .whole 2⟩] }

/-- A transcription fails and leaves so many equations; the transcriptions of another problem,
    with that scheme and with the one before the failure, end well with so many. -/
def retries (p p' : Problem α) (construction : Except (Fault α) (Scheme α))
    (left again fresh : Nat) : Bool :=
  match construction with
  | .error _ => false
  | .ok s =>
    match transcribe p s with
    | .ok _ _ => false
    | .error _ s₁ =>
      match transcribe p' s₁, transcribe p' s with
      | .ok _ s₂, .ok _ t =>
        s₁.equationCount = left && s₂.equationCount = again && t.equationCount = fresh
      | _, _ => false

theorem exists_of_retries {construction : Except (Fault α) (Scheme α)} {left again fresh : Nat}
    (h : retries p p' construction left again fresh) :
    ∃ s fault s₁ s₂ t, construction = .ok s ∧ transcribe p s = .error fault s₁ ∧
      transcribe p' s₁ = .ok () s₂ ∧ transcribe p' s = .ok () t ∧ s₁.equationCount = left ∧
      s₂.equationCount = again ∧ t.equationCount = fresh := by
  unfold retries at h
  split at h
  · cases h
  · next s =>
    split at h
    · cases h
    · next fault s₁ hs₁ =>
      split at h
      · next _ s₂ _ t hs₂ ht =>
        simp only [Bool.and_eq_true, decide_eq_true_eq] at h
        obtain ⟨⟨hleft, hagain⟩, hfresh⟩ := h
        exact ⟨s, fault, s₁, s₂, t, rfl, hs₁, hs₂, ht, hleft, hagain, hfresh⟩
      · cases h

theorem slide_retries :
    retries jammedSlide slide (trapezoidal (.standard none) slide (.whole 3)) 5 15 10 := by
  decide +kernel

/-- The defects and the kinematic equations of a failed transcription are there twice in the end. -/
theorem transcribe_slide_twice :
    ∃ s fault s₁ s₂ t, trapezoidal (.standard none) slide (.whole 3) = .ok s ∧
      transcribe jammedSlide s = .error fault s₁ ∧ s₁.blocks ≠ s.blocks ∧
      transcribe slide s₁ = .ok () s₂ ∧ transcribe slide s = .ok () t ∧
      s₂.equationCount = 15 ∧ t.equationCount = 10 := by
  obtain ⟨s, fault, s₁, s₂, t, hs, hs₁, hs₂, ht, hleft, hagain, hfresh⟩ :=
    exists_of_retries slide_retries
  refine ⟨s, fault, s₁, s₂, t, hs, hs₁, ?_, hs₂, ht, hagain, hfresh⟩
  intro hsame
  have hmesh : Mesh.ofLiteral (.whole 3) = .ok (evenPoints 3 : Array (Extended ℚ)) := rfl
  have hempty : s.blocks = [] := (fresh_trapezoidal hmesh hs).blocks
  rw [equationCount, hsame, hempty] at hleft
  cases hleft

theorem transcribe_failed_slide :
    ∃ s fault s₁ s₂ t left new, trapezoidal (.standard none) slide (.whole 3) = .ok s ∧
      transcribe jammedSlide s = .error fault s₁ ∧ s₁.blocks = s.blocks ++ left ∧
      transcribe slide s₁ = .ok () s₂ ∧ transcribe slide s = .ok () t ∧
      t.blocks = s.blocks ++ new ∧ s₂.blocks = s.blocks ++ left ++ new ∧
      s₂.objective = t.objective := by
  obtain ⟨s, fault, s₁, s₂, t, hs, hs₁, hs₂, ht, -, -, -⟩ := exists_of_retries slide_retries
  obtain ⟨left, hleft, -, -, -, hdynamics, herror, hagain⟩ := transcribe_failed hs₁
  have hmesh : Mesh.ofLiteral (.whole 3) = .ok (evenPoints 3 : Array (Extended ℚ)) := rfl
  have hfresh := fresh_trapezoidal hmesh hs
  rw [hfresh.dynamics] at hdynamics
  rw [hfresh.quadratureError] at herror
  -- nothing was built before the failure, and what was built in it is the same for both problems
  have hcurrent : s.Current slide := by
    constructor
    · intro f hf
      cases hfresh.dynamics.symm.trans hf
    · intro f hf
      cases hfresh.quadratureError.symm.trans hf
  have hcurrent₁ : s₁.Current slide := ⟨fun _ => hdynamics.of_none, fun _ => herror.of_none⟩
  obtain ⟨-, hsecond⟩ := hagain slide s (.refl s) hcurrent hcurrent₁
  obtain ⟨t', new, ht', hnew, hnew₂, hobjective⟩ := hsecond s₂ hs₂
  cases ht.symm.trans ht'
  exact ⟨s, fault, s₁, s₂, t, left, new, hs, hs₁, hleft, hs₂, ht, hnew, hnew₂, hobjective⟩

end Scheme
end Collocation
