import Collocation.Proofs.Scheme.AppendedBlocks
import Collocation.Proofs.Workspace.Steps

/-! # What actions leave alone

  Every action on a scheme writes a few of its fields, and however it ends, the other fields are as
  they were. So each command can make only a few things of a scheme, and what every command keeps is
  shown by going through these. -/

namespace Collocation

variable {α : Type}

namespace Scheme

/-- The schemes agree in everything but the grid. -/
def AgreesButGrid (s s' : Scheme α) : Prop :=
  ∃ grid gridLocked, s' = { s with grid := grid, gridLocked := gridLocked }

/-- The schemes agree in everything but the blocks. -/
def AgreesButBlocks (s s' : Scheme α) : Prop := ∃ blocks, s' = { s with blocks := blocks }

/-- The schemes agree in everything but the objective. -/
def AgreesButObjective (s s' : Scheme α) : Prop :=
  ∃ objective, s' = { s with objective := objective }

/-- The schemes agree in everything but the variables, and the second has none that the first has
    not. -/
def AgreesButDeleted (s s' : Scheme α) : Prop :=
  ∃ extents, s' = { s with extents := extents } ∧
    ∀ {k extent}, extents.find? k = some extent → s.extents.find? k = some extent

/-- The second scheme is on the grid points and under the rule of the first, and has no variables
    but those of the first. -/
structure Trims (s s' : Scheme α) : Prop where
  rule : s'.rule = s.rule
  gridPoints : s'.gridPoints = s.gridPoints
  extents : ∀ {k extent}, s'.extents.find? k = some extent → s.extents.find? k = some extent

variable {s t : Scheme α}

theorem AgreesButConstraints.trims (h : s.AgreesButConstraints t) : s.Trims t := by
  obtain ⟨_, _, _, _, _, _, _, rfl⟩ := h
  exact ⟨rfl, rfl, id⟩

theorem AgreesButBounds.trims (h : s.AgreesButBounds t) : s.Trims t :=
  h.agreesButConstraints.trims

theorem AgreesButFunctions.trims (h : s.AgreesButFunctions t) : s.Trims t := by
  obtain ⟨_, _, rfl⟩ := h
  exact ⟨rfl, rfl, id⟩

theorem AgreesButBlocks.trims (h : s.AgreesButBlocks t) : s.Trims t := by
  obtain ⟨_, rfl⟩ := h
  exact ⟨rfl, rfl, id⟩

theorem AgreesButObjective.trims (h : s.AgreesButObjective t) : s.Trims t := by
  obtain ⟨_, rfl⟩ := h
  exact ⟨rfl, rfl, id⟩

theorem AgreesButGrid.trims (h : s.AgreesButGrid t) : s.Trims t := by
  obtain ⟨_, _, rfl⟩ := h
  exact ⟨rfl, rfl, id⟩

theorem AgreesButDeleted.trims (h : s.AgreesButDeleted t) : s.Trims t := by
  obtain ⟨_, rfl, hdeleted⟩ := h
  exact ⟨rfl, rfl, hdeleted⟩

theorem agreesButDeleted_eraseVariables (key : Key α) (s : Scheme α) :
    s.AgreesButDeleted (stateOf (eraseVariables key s)) := by
  have hrefl : s.AgreesButDeleted s := ⟨_, rfl, id⟩
  unfold eraseVariables
  rw [run_get_bind]
  cases key.kind? with
  | none => exact hrefl
  | some k =>
    by_cases hmissing : (!s.extents.contains k) = true
    · simp only [if_pos hmissing]
      exact hrefl
    · simp only [if_neg hmissing]
      refine ⟨s.extents.erase k, rfl, ?_⟩
      intro k' extent hk'
      by_cases hk : k' = k
      · subst hk
        rw [Table.find?_erase_self] at hk'
        cases hk'
      · rwa [Table.find?_erase_ne _ hk] at hk'

variable [Number α] {p : Problem α}

/-! ## Bounds -/

/-- Writing into bounds puts arrays under their key and does nothing else. -/
theorem keeps_writeBounds_of {inv : Scheme α → Prop} {key : Key α}
    (hput : ∀ {t : Scheme α} which v, inv t → inv (t.putBound which key v))
    {rows cols : Selector α} {bounds : Bounds α} :
    Keeps inv (writeBounds key rows cols bounds) := by
  refine .read fun t ht => ?_
  apply stateOf_attempt_bind ht
  intro lower _
  apply stateOf_attempt_bind ht
  intro upper _
  apply stateOf_attempt_bind ht
  intro picked _
  apply stateOf_attempt_bind ht
  intro chosen _
  by_cases hvector : (!picked.isVector || !chosen.isVector) = true
  · rw [if_pos hvector]
    exact ht
  rw [if_neg hvector]
  -- a refused upper block leaves the lower one written
  change inv (stateOf ((modify _ >>= fun _ => attempt _ >>= fun _ => modify _) t))
  rw [run_modify_bind]
  apply stateOf_attempt_bind (hput _ _ ht)
  intro _ _
  exact hput _ _ (hput _ _ ht)

theorem keeps_writeBound_of {inv : Scheme α → Prop} {which : Side} {key : Key α}
    (hput : ∀ {t : Scheme α} v, inv t → inv (t.putBound which key v)) {index : List Int}
    {value : Literal α} : Keeps inv (writeBound which key index value) := by
  refine .read fun t ht => ?_
  apply stateOf_attempt_bind ht
  intro old _
  apply stateOf_attempt_bind ht
  intro written _
  exact hput _ ht

theorem keeps_writeBounds {key : Key α} {rows cols : Selector α} {bounds : Bounds α} :
    Keeps s.AgreesButBounds (writeBounds key rows cols bounds) :=
  keeps_writeBounds_of fun which v ht => ht.trans (agreesButBounds_putBound _ which key v)

theorem keeps_writeBound {which : Side} {key : Key α} {index : List Int} {value : Literal α} :
    Keeps s.AgreesButBounds (writeBound which key index value) :=
  keeps_writeBound_of fun v ht => ht.trans (agreesButBounds_putBound _ which key v)

theorem agreesButConstraints_release (which : Side) (key : Key α) (s : Scheme α) :
    s.AgreesButConstraints (s.release which key) := by
  unfold release
  cases key.kind? <;> exact ⟨_, _, _, _, _, _, _, rfl⟩

theorem agreesButConstraints_replaceBounds (which : Side) (key : Key α) (value : Option (Tensor α))
    (s : Scheme α) : s.AgreesButConstraints (stateOf (replaceBounds which key value s)) := by
  have hreleased := agreesButConstraints_release which key s
  unfold replaceBounds
  rw [run_get_bind]
  cases value with
  | some value =>
    exact hreleased.trans (agreesButBounds_putBound _ which key value).agreesButConstraints
  | none =>
    apply stateOf_attempt_bind (.refl s)
    intro _ _
    exact hreleased.trans (agreesButBounds_eraseBound _ which key).agreesButConstraints

/-! ## The grid -/

theorem keeps_setGridElement {index : Int} {value : Literal α} :
    Keeps s.AgreesButGrid (Workspace.setGridElement index value) := by
  refine .read fun t ht => ?_
  cases hgrid : t.grid with
  | none => exact ht
  | some grid =>
    by_cases hlocked : t.gridLocked
    · simp only [if_pos hlocked]
      exact ht
    · simp only [if_neg hlocked]
      apply stateOf_attempt_bind ht
      intro written _
      obtain ⟨_, _, rfl⟩ := ht
      exact ⟨_, _, rfl⟩

/-- The elements of a grid that is locked cannot be written. -/
theorem setGridElement_locked (h : s.gridLocked) (index : Int) (value : Literal α) :
    stateOf (Workspace.setGridElement index value s) = s := by
  unfold Workspace.setGridElement
  rw [run_get_bind]
  cases s.grid with
  | none => rfl
  | some grid =>
    simp only [if_pos h]
    rfl

/-! ## Equations and the objective -/

theorem keeps_append {lower upper : BoundVector α} {equations : Sized Kind α} :
    Keeps s.AgreesButBlocks (append lower upper equations) := by
  refine keeps_checkMutable.bind fun _ => ?_
  split
  · refine .modify ?_
    rintro t ⟨_, rfl⟩
    exact ⟨_, rfl⟩
  · exact .throw _

theorem keeps_appendBody {lower upper : BoundSource α} {body : Body α} :
    Keeps s.AgreesButBlocks (appendBody lower upper body) :=
  .read fun t ht =>
    ((Keeps.attempt _).bind fun _ => (Keeps.attempt _).bind fun _ => (Keeps.attempt _).bind fun _ =>
      keeps_checkMutable.bind fun _ => (Keeps.attempt _).bind fun _ =>
        (Keeps.attempt _).bind fun _ => keeps_append) t ht

theorem keeps_replaceObjective {body : Body α} :
    Keeps s.AgreesButObjective (replaceObjective body) := by
  refine .read fun t ht => ?_
  apply stateOf_attempt_bind ht
  intro objective _
  apply stateOf_bind (keeps_checkMutable t ht)
  intro _ _ _
  obtain ⟨_, rfl⟩ := ht
  exact ⟨_, rfl⟩

/-! ## Transcriptions -/

/-- However a transcription ends, it has written what transcriptions write and nothing else. -/
theorem sameFrame_transcribe (p : Problem α) (s : Scheme α) :
    SameFrame s { stateOf (transcribe p s) with transcribed := s.transcribed } := by
  cases h : transcribe p s with
  | error fault s₁ =>
    obtain ⟨hframe, -⟩ := later_of_transcribe_error h
    have hsame : { s₁ with transcribed := s.transcribed } = s₁ := by
      rw [hframe.rest]
      rfl
    rwa [stateOf, hsame]
  | ok _ s' =>
    obtain ⟨s₁, s₂, hprepare, happly, rfl⟩ := transcribe_eq_ok h
    have hdrafted := drafted_prepare p s
    rw [hprepare] at hdrafted
    have hframe : SameFrame s s₂ :=
      hdrafted.toSameFrame.trans (steady_applyRule.later_of_ok happly).sameFrame
    have hsame : { s₂ with transcribed := s.transcribed } = s₂ := by
      rw [hframe.rest]
      rfl
    rwa [stateOf, hsame]

/-! ## Every step -/

/-- What the step of a command can make of a scheme. -/
inductive Effect (p : Problem α) (s : Scheme α) : SchemeCommand α → Scheme α → Prop
  /-- The command only looks, or it is refused before it writes. -/
  | kept {command : SchemeCommand α} : Effect p s command s
  | regridded {grid : Literal α} {t : Scheme α} (h : s.AgreesButGrid t) :
      Effect p s (.setGrid grid) t
  | gridElement {index : Int} {value : Literal α} {t : Scheme α} (hunlocked : s.gridLocked = false)
      (h : s.AgreesButGrid t) : Effect p s (.setGridElement index value) t
  | transcribed : Effect p s .transcribe (stateOf (transcribe p s))
  | bounded {key : Literal α} {rows cols : Selector α} {args : Literal α} {key' : Key α}
      (hkey : Key.ofLiteral key = .ok key') {bounds : Bounds α}
      (hbounds : Workspace.readBounds args = .ok bounds) :
      Effect p s (.setBounds key rows cols args) (stateOf (writeBounds key' rows cols bounds s))
  | boundElement {side : Side} {key : Literal α} {row col : Int} {value : Literal α} {key' : Key α}
      (hkey : Key.ofLiteral key = .ok key') :
      Effect p s (.setBoundElement side key row col value)
        (stateOf (writeBound side key' [row, col] value s))
  | boundArray {side : Side} {key value : Literal α} (key' : Key α) (value' : Option (Tensor α)) :
      Effect p s (.replaceBounds side key value) (stateOf (replaceBounds side key' value' s))
  | deleted {key : Literal α} {t : Scheme α} (h : s.AgreesButDeleted t) :
      Effect p s (.deleteVariables key) t
  | appended {lower upper : BoundSource α} {body : Body α} :
      Effect p s (.addConstraints lower upper body) (stateOf (appendBody lower upper body s))
  | aimed {body : Body α} : Effect p s (.setObjective body) (stateOf (replaceObjective body s))
  /-- Functions of the problem that were asked for are kept. -/
  | evaluated {command : SchemeCommand α} {t : Scheme α} (h : s.AgreesButFunctions t) :
      Effect p s command t

theorem effect_step (command : SchemeCommand α) (p : Problem α) (s : Scheme α) :
    Effect p s command (stateOf (command.step p s)) := by
  cases command with
  | setGrid grid =>
    apply stateOf_attempt_bind .kept
    intro grid' _
    exact .regridded ⟨_, _, rfl⟩
  | setGridElement index value =>
    by_cases hlocked : s.gridLocked
    · simp only [SchemeCommand.step, setGridElement_locked hlocked]
      exact .kept
    · exact .gridElement (Bool.eq_false_iff.mpr hlocked) (keeps_setGridElement s ⟨_, _, rfl⟩)
  | transcribe => exact .transcribed
  | setBounds key rows cols bounds =>
    apply stateOf_attempt_bind .kept
    intro bounds' hbounds
    apply stateOf_attempt_bind .kept
    intro key' hkey
    exact .bounded hkey hbounds
  | setBoundElement side key row col value =>
    apply stateOf_attempt_bind .kept
    intro key' hkey
    exact .boundElement hkey
  | replaceBounds side key value =>
    apply stateOf_attempt_bind .kept
    intro value' _
    apply stateOf_attempt_bind .kept
    intro key' _
    exact .boundArray key' value'
  | deleteVariables key =>
    apply stateOf_attempt_bind .kept
    intro key' _
    exact .deleted (agreesButDeleted_eraseVariables key' s)
  | addConstraints lower upper equations => exact .appended
  | setObjective objective => exact .aimed
  | evaluateDynamics index channels withError x =>
    exact .evaluated (keeps_differentialEquations.bind (fun _ => .pure _) s ⟨_, _, rfl⟩)
  | _ => exact .kept

/-- No command gives a scheme variables that it did not have. -/
theorem Effect.trims {command : SchemeCommand α} (h : Effect p s command t) : s.Trims t := by
  cases h with
  | kept => exact ⟨rfl, rfl, id⟩
  | regridded h => exact h.trims
  | gridElement hunlocked h => exact h.trims
  | transcribed =>
    have hframe := sameFrame_transcribe p s
    have hextents : (stateOf (transcribe p s)).extents = s.extents := hframe.extents
    refine ⟨hframe.rule, hframe.gridPoints, ?_⟩
    intro k extent hk
    rwa [← hextents]
  | bounded hkey hbounds => exact (keeps_writeBounds s (.refl s)).trims
  | boundElement hkey => exact (keeps_writeBound s (.refl s)).trims
  | boundArray key' value' => exact (agreesButConstraints_replaceBounds _ _ _ s).trims
  | deleted h => exact h.trims
  | appended => exact (keeps_appendBody s ⟨_, rfl⟩).trims
  | aimed => exact (keeps_replaceObjective s ⟨_, rfl⟩).trims
  | evaluated h => exact h.trims

/-- Only the deletion of variables reaches the sizes of the variables. -/
theorem Effect.extents_eq {command : SchemeCommand α} (h : Effect p s command t)
    (hspares : ∀ key, command ≠ .deleteVariables key) : t.extents = s.extents := by
  cases h with
  | kept => rfl
  | regridded h | gridElement _ h =>
    obtain ⟨_, _, rfl⟩ := h
    rfl
  | transcribed => exact (sameFrame_transcribe p s).extents
  | bounded hkey hbounds =>
    obtain ⟨_, _, _, _, h⟩ := keeps_writeBounds s (.refl s)
    rw [h]
  | boundElement hkey =>
    obtain ⟨_, _, _, _, h⟩ := keeps_writeBound s (.refl s)
    rw [h]
  | boundArray key' value' =>
    obtain ⟨_, _, _, _, _, _, _, h⟩ := agreesButConstraints_replaceBounds _ _ _ s
    rw [h]
  | deleted h => exact absurd rfl (hspares _)
  | appended =>
    obtain ⟨_, h⟩ := keeps_appendBody s ⟨_, rfl⟩
    rw [h]
  | aimed =>
    obtain ⟨_, h⟩ := keeps_replaceObjective s ⟨_, rfl⟩
    rw [h]
  | evaluated h =>
    obtain ⟨_, _, rfl⟩ := h
    rfl

end Scheme
end Collocation
