import Collocation.Proofs.Faults
import Collocation.Proofs.Scheme.ElementBounds
import Collocation.Proofs.Scheme.Integral

/-! # Schemes that can be built

  A construction asks for symbols of the sizes that the problem and the grid have, and then enters
  the bounds of the problem into tables of these sizes. With one grid point or more every row and
  every column that a write selects is there, so the construction ends well wherever the sizes are
  accepted, and then every element has the bounds that the problem declares for it. If it does not
  end well, some size is too large, and the fault is no broken precondition. -/

namespace Collocation

open Extended

variable {α : Type} [Number α]

/-! ## Selections that lie inside -/

namespace Selector

/-- The selector means a vector of positions along an axis. -/
def Selects (sel : Selector α) (size : Nat) : Prop :=
  ∃ positions, sel.select size = .ok ⟨positions, true⟩ ∧ ∀ i ∈ positions, i < size

theorem selects_all (size : Nat) : (all : Selector α).Selects size := by
  refine ⟨slicePositions size none none 1, rfl, ?_⟩
  intro i hi
  simpa [slicePositions, sliceEnds, sliceCount] using hi

theorem selects_index {size i : Nat} (hi : i < size) (hindex : i < 0x8000000000000000) :
    (index i : Selector α).Selects size := by
  refine ⟨[i], select_index (wrapIndex_natCast hindex) (resolveIndex_natCast hi), ?_⟩
  intro j hj
  rwa [List.mem_singleton.mp hj]

theorem selects_first {size : Nat} (hsize : 0 < size) : (index 0 : Selector α).Selects size :=
  selects_index hsize (Nat.two_pow_pos 63)

theorem selects_last {size : Nat} (hsize : 0 < size) : (index (-1) : Selector α).Selects size := by
  refine ⟨[size - 1], select_index rfl (resolveIndex_last hsize), ?_⟩
  intro j hj
  rw [List.mem_singleton.mp hj]
  omega

end Selector

omit [Number α] in
/-- A block of rows and columns inside of a matrix is written. -/
theorem Tensor.checkBlock_of_lt {t : Tensor α} {e : Extent} (hshape : t.shape = e.toList)
    {rows cols : List Nat} (hrows : ∀ i ∈ rows, i < e.rows) (hcols : ∀ j ∈ cols, j < e.cols) :
    t.checkBlock rows cols = .ok () := by
  have hfind : rows.find? (e.rows ≤ ·) = none := by
    rw [List.find?_eq_none]
    intro i hi
    simpa using hrows i hi
  have hfind' : cols.find? (e.cols ≤ ·) = none := by
    rw [List.find?_eq_none]
    intro j hj
    simpa using hcols j hj
  unfold checkBlock
  rw [hshape]
  simp only [Extent.toList, hfind, hfind']
  split <;> rfl

namespace Scheme

variable {s s' : Scheme α} {p : Problem α} {Γ : Kind → Extent} {view : ElementView α}

/-! ## Writes that lie inside -/

/-- The write selects rows and columns of a matrix. -/
def BoundWrite.Within (w : BoundWrite α) (e : Extent) : Prop :=
  w.rows.Selects e.rows ∧ w.cols.Selects e.cols

theorem meets_writeBounds {w : BoundWrite α} (hs : s.HasBounds Γ view)
    (hw : w.Within (Γ w.kind)) :
    Meets s (writeBounds (.kind w.kind) w.rows w.cols w.bounds) (fun _ _ => True)
      fun _ => False := by
  choose t ht hshape _ using fun which => hs which w.kind
  obtain ⟨⟨rows, hrows, hrowsIn⟩, cols, hcols, hcolsIn⟩ := hw
  have hbound : ∀ which, s.bound which (.kind w.kind) = .ok (t which) := by
    intro which
    simp only [bound, Key.kind?, ht which]
  have haxis : (t .lower).axisSize 0 = .ok (Γ w.kind).rows ∧
      (t .lower).axisSize 1 = .ok (Γ w.kind).cols := by
    simp [Tensor.axisSize, hshape .lower, Extent.toList]
  unfold writeBounds
  refine .get ?_
  refine meets_attempt_of_ok (hbound .lower) ?_
  refine meets_attempt_of_ok (hbound .upper) ?_
  rw [haxis.1, haxis.2]
  refine meets_attempt_of_ok hrows ?_
  refine meets_attempt_of_ok hcols ?_
  rw [if_neg (by simp)]
  -- the block of the upper table lies at the same places
  refine .modify ?_
  exact meets_attempt_of_ok (Tensor.checkBlock_of_lt (hshape .upper) hrowsIn hcolsIn) trivial

/-- Writes that lie inside end well, one after the other. -/
theorem exists_run {ws : List (BoundWrite α)} (hs : s.HasBounds Γ view)
    (hws : ∀ w ∈ ws, w.Within (Γ w.kind)) :
    ∃ s', (ws.forM fun w => writeBounds (.kind w.kind) w.rows w.cols w.bounds) s = .ok () s' := by
  have hrun : Meets s (ws.forM fun w => writeBounds (.kind w.kind) w.rows w.cols w.bounds)
      (fun _ s' => ∃ view, s'.HasBounds Γ view) fun _ => False := by
    refine Meets.forM ⟨view, hs⟩ ?_
    rintro w hw s ⟨view, hs⟩
    refine (meets_writeBounds hs (hws w hw)).mono ?_
    intro _ s' hs' _
    exact ⟨_, hs.write hs'⟩
  obtain ⟨_, s', hs', -⟩ := hrun.exists_ok
  exact ⟨s', hs'⟩

/-! ## The sizes of a problem -/

/-- No symbol has the size of the decision variables of some kind. -/
def Oversized (p : Problem α) (gridPoints derivatives slacks : Nat) : Prop :=
  ∃ k, Problem.rowLimit < (kindExtent p gridPoints derivatives slacks k).rows ∨
    Problem.rowLimit < (kindExtent p gridPoints derivatives slacks k).cols

omit [Number α] in
theorem lt_of_mem_zipIdx {β : Type} {xs : List β} {x : β} {row : Nat} (h : (x, row) ∈ xs.zipIdx) :
    row < xs.length := by
  simpa using List.snd_lt_add_of_mem_zipIdx h

theorem within_kindWrites {kind : Kind} {cs : List (Component α)} {cols : Nat}
    (hrows : cs.length ≤ 0x8000000000000000) (hpos : 0 < cols) {w : BoundWrite α}
    (h : w ∈ kindWrites kind cs) :
    w.kind = kind ∧ w.Within ⟨cs.length, cols⟩ := by
  obtain ⟨⟨c, row⟩, hrow, h⟩ := List.mem_flatMap.mp h
  obtain ⟨hkind, hindex, hchoice⟩ := mem_componentWrites h
  refine ⟨hkind, ?_, ?_⟩
  · have hlt := lt_of_mem_zipIdx hrow
    rw [hindex]
    exact Selector.selects_index hlt (by omega)
  · rcases hchoice with hchoice | hchoice | hchoice
    · rw [hchoice]
      exact Selector.selects_all cols
    · rw [hchoice]
      exact Selector.selects_first hpos
    · rw [hchoice]
      exact Selector.selects_last hpos

/-- Every write of a problem lies inside of the matrices that it asks for. -/
theorem within_problemWrites {gridPoints derivatives slacks : Nat} (hp : p.Indexable)
    (hpos : 0 < gridPoints) {w : BoundWrite α} (h : w ∈ problemWrites p) :
    w.Within (kindExtent p gridPoints derivatives slacks w.kind) := by
  have hunit : (Selector.index 0 : Selector α).Selects 1 := Selector.selects_first Nat.one_pos
  unfold problemWrites at h
  simp only [List.mem_append, List.mem_cons, List.not_mem_nil, or_false, List.mem_map] at h
  rcases h with ((((((rfl | rfl) | h) | h) | h) | rfl) | ⟨⟨c, row⟩, hrow, rfl⟩)
  · exact ⟨hunit, hunit⟩
  · exact ⟨hunit, hunit⟩
  · obtain ⟨hkind, hin⟩ := within_kindWrites (hp .state) hpos h
    rwa [hkind]
  · obtain ⟨hkind, hin⟩ := within_kindWrites (hp .control) hpos h
    rwa [hkind]
  · obtain ⟨hkind, hin⟩ := within_kindWrites (hp .multiplier) hpos h
    rwa [hkind]
  · exact ⟨Selector.selects_all _, Selector.selects_all _⟩
  · have hlt := lt_of_mem_zipIdx hrow
    exact ⟨Selector.selects_index hlt (hlt.trans_le (hp .parameter)), hunit⟩

omit [Number α] in
/-- Whole counts within the limit give the sizes of all kinds. -/
theorem extentsFor_of_whole {gridPoints : Nat} {derivatives slacks : Int}
    (hderivatives : p.derivativeCount = .whole derivatives) (hslacks : p.slackCount = .whole slacks)
    (hsizes : ¬Oversized p gridPoints derivatives.toNat slacks.toNat) :
    extentsFor p gridPoints =
      .ok (.full (kindExtent p gridPoints derivatives.toNat slacks.toNat)) := by
  simp only [Oversized, not_exists, not_or, not_lt] at hsizes
  have hcount : ∀ n : Int, n.toNat ≤ Problem.rowLimit →
      (Problem.variableRowsOf (.whole n) : Except (Fault α) Nat) = .ok n.toNat := by
    intro n hn
    have hlimit : Problem.rowLimit < 0x8000000000000000 := by decide
    unfold Problem.variableRowsOf Problem.rowsOf
    simp only
    rw [if_neg (by omega), if_neg (by omega)]
  refine extentsFor_eq_ok_iff.mpr ⟨(hsizes .states).2, _, _, ?_, ?_, rfl⟩
  · rw [hderivatives]
    exact hcount derivatives (hsizes .derivatives).1
  · rw [hslacks]
    exact hcount slacks (hsizes .slacks).1

omit [Number α] in
/-- Components within the limit can be indexed. -/
theorem indexable_of_not_oversized {gridPoints derivatives slacks : Nat}
    (hsizes : ¬Oversized p gridPoints derivatives slacks) : p.Indexable := by
  simp only [Oversized, not_exists, not_or, not_lt] at hsizes
  have hlimit : Problem.rowLimit ≤ 0x8000000000000000 := by decide
  intro kind
  cases kind with
  | state => exact (hsizes .states).1.trans hlimit
  | control => exact (hsizes .controls).1.trans hlimit
  | multiplier => exact (hsizes .multipliers).1.trans hlimit
  | parameter => exact (hsizes .parameters).1.trans hlimit

/-- New tables hold all writes of a problem whose sizes are accepted. -/
theorem exists_createVariables {derivatives slacks : Nat} (hp : p.Indexable)
    (hpos : 0 < s.gridPoints) (hextents : extentsFor p s.gridPoints =
      .ok (.full (kindExtent p s.gridPoints derivatives slacks))) :
    ∃ s', createVariables p s = .ok () s' := by
  obtain ⟨s', hs'⟩ := exists_run
    (hasBounds_open (s := s) (kindExtent p s.gridPoints derivatives slacks))
    fun w hw => within_problemWrites hp hpos hw
  refine ⟨s', ?_⟩
  unfold createVariables
  rw [run_get_bind]
  apply run_attempt_bind_of_ok hextents
  rw [run_set_bind]
  exact hs'

/-! ## Bounds of a construction -/

/-- With one grid point or more, variables can be made for a problem exactly if the number of grid
    points and the counts of derivatives and slacks are accepted. Then the bounds of every element
    are those that the problem declares for it: at the last grid point the final bounds of its
    component if they are set, else at the first one the initial bounds if they are set, else those
    along the way, and those of its kind where the kind has no components. -/
theorem bounds_of_createVariables (hp : p.Indexable) (hpos : 0 < s.gridPoints) :
    ((∃ s', createVariables p s = .ok () s') ↔ s.gridPoints ≤ Problem.rowLimit ∧
      ∃ derivatives slacks, Problem.variableRowsOf p.derivativeCount = .ok derivatives ∧
        Problem.variableRowsOf p.slackCount = .ok slacks) ∧
    ∀ s', createVariables p s = .ok () s' → ∃ derivatives slacks,
      Problem.rowsOf p.derivativeCount = .ok derivatives ∧
      Problem.rowsOf p.slackCount = .ok slacks ∧ s'.gridPoints = s.gridPoints ∧
      s'.extents = .full (kindExtent p s.gridPoints derivatives slacks) ∧
      s'.HasBounds (kindExtent p s.gridPoints derivatives slacks)
        (p.elementBounds s.gridPoints) := by
  refine ⟨⟨?_, ?_⟩, fun s' h => hasBounds_of_createVariables hp h⟩
  · rintro ⟨s', h⟩
    obtain ⟨extents, hextents, -⟩ := createVariables_eq_ok h
    obtain ⟨hgrid, derivatives, slacks, hderivatives, hslacks, -⟩ :=
      extentsFor_eq_ok_iff.mp hextents
    exact ⟨hgrid, derivatives, slacks, hderivatives, hslacks⟩
  · rintro ⟨hgrid, derivatives, slacks, hderivatives, hslacks⟩
    exact exists_createVariables hp hpos
      (extentsFor_eq_ok_iff.mpr ⟨hgrid, derivatives, slacks, hderivatives, hslacks, rfl⟩)

/-- Components that are bounded at both ends, at one end, or along the way only. -/
def endedProblem : Problem (Extended ℚ) where
  name := "ended"
  initialTime := .between (.whole 0) (.whole 0)
  states :=
    [⟨"x", .between (.whole 0) (.whole 9), .between (.whole 1) (.whole 1),
        .between (.whole 2) (.whole 3)⟩,
      ⟨"y", .unset, .between (.whole 4) (.whole 4), .unset⟩,
      ⟨"z", .between (.whole (-5)) (.whole 5), .unset, .unset⟩]
  parameters := [⟨"m", .between (.whole 6) (.whole 7), .unset, .unset⟩]
  derivativeCount := .whole 1
  derivativeBounds := .between (.whole (-1)) (.whole 1)
  slackCount := .whole 1

/-- In an only column the final bounds come first, and no bounds at an end leave room for others. -/
theorem bounds_of_createVariables_ended :
    ∃ s', createVariables endedProblem
        (.start (.custom ⟨.null, .null, []⟩) (.standard none) 1 none) = .ok () s' ∧
      ∀ which : Side, ∃ states derivatives slacks, (s'.side which).find? .states = some states ∧
        states.shape = [3, 1] ∧ states.get 0 = which.of (finite 2, finite 3) ∧
        states.get 1 = which.of (finite 4, finite 4) ∧
        states.get 2 = which.of (finite (-5), finite 5) ∧
        (s'.side which).find? .derivatives = some derivatives ∧
        derivatives.get 0 = which.of (finite (-1), finite 1) ∧
        (s'.side which).find? .slacks = some slacks ∧
        slacks.get 0 = which.of (infinite true, infinite false) := by
  have hp : endedProblem.Indexable := by
    intro kind
    cases kind <;> decide
  obtain ⟨hiff, hbounds⟩ := bounds_of_createVariables (p := endedProblem)
    (s := .start (.custom ⟨.null, .null, []⟩) (.standard none) 1 none) hp (by decide)
  obtain ⟨s', hs'⟩ := hiff.mpr ⟨by decide, 1, 1, rfl, rfl⟩
  obtain ⟨derivatives, slacks, hderivatives, hslacks, -, -, htables⟩ := hbounds s' hs'
  cases hderivatives
  cases hslacks
  refine ⟨s', hs', fun which => ?_⟩
  obtain ⟨t, ht, hshape, hget⟩ := htables which .states
  obtain ⟨t', ht', -, hget'⟩ := htables which .derivatives
  obtain ⟨t'', ht'', -, hget''⟩ := htables which .slacks
  exact ⟨t, t', t'', ht, hshape, hget 0 (by decide) 0 (by decide), hget 1 (by decide) 0 (by decide),
    hget 2 (by decide) 0 (by decide), ht', hget' 0 (by decide) 0 (by decide), ht'',
    hget'' 0 (by decide) 0 (by decide)⟩

/-! ## Constructions that fail -/

omit [Number α] in
theorem keepsContract_resolveIndex (axis size : Nat) (i : Int) :
    FailsOnly Fault.KeepsContract (resolveIndex axis size i : Except (Fault α) Nat) := by
  unfold resolveIndex
  split_ifs
  · exact .ok _
  · exact .ok _
  · exact .error nofun

omit [Number α] in
theorem keepsContract_slicePart (l : Literal α) :
    FailsOnly Fault.KeepsContract (Selector.slicePart l) := by
  unfold Selector.slicePart
  split
  · exact .ok _
  · exact .ok _
  · exact .ok _
  · exact .error nofun

theorem keepsContract_select (sel : Selector α) (size : Nat) :
    FailsOnly Fault.KeepsContract (sel.select size) := by
  have hresolve := keepsContract_resolveIndex (α := α) 0 size
  have hpart := keepsContract_slicePart (α := α)
  unfold Selector.select
  split
  · refine FailsOnly.bind ?_ fun i _ => (hresolve i).bind fun _ _ => .ok _
    unfold wrapIndex
    split_ifs
    · exact .error nofun
    · exact .ok _
    · exact .ok _
  · refine (hpart _).bind fun step _ => ?_
    simp only
    split
    · exact .error nofun
    · exact (hpart _).bind fun _ _ => (hpart _).bind fun _ _ => .ok _
  · split
    · exact .ok _
    · exact .error nofun
  · refine (Literal.keepsContract_toTensorWith Literal.keepsContract_toIndex _).bind fun _ _ => ?_
    exact (FailsOnly.mapM fun i _ => hresolve i).bind fun _ _ => .ok _

omit [Number α] in
theorem keepsContract_axisSize (t : Tensor α) (axis : Nat) :
    FailsOnly Fault.KeepsContract (t.axisSize axis) := by
  unfold Tensor.axisSize
  split
  · exact .ok _
  · exact .error nofun

omit [Number α] in
theorem keepsContract_checkBlock (t : Tensor α) (rows cols : List Nat) :
    FailsOnly Fault.KeepsContract (t.checkBlock rows cols) := by
  unfold Tensor.checkBlock
  split
  · split
    · exact .ok _
    · split
      · exact .error nofun
      · exact .error nofun
      · exact .ok _
  · exact .error nofun

theorem keepsContract_writeBounds (w : BoundWrite α) (s : Scheme α) :
    Meets s (writeBounds (.kind w.kind) w.rows w.cols w.bounds) (fun _ _ => True)
      Fault.KeepsContract := by
  have hbound : ∀ which, FailsOnly Fault.KeepsContract (s.bound which (.kind w.kind)) := by
    intro which
    unfold bound
    simp only
    split
    · exact .ok _
    · exact .error nofun
  unfold writeBounds
  refine .get ?_
  refine meets_attempt_bind (hbound .lower) fun lower _ => ?_
  refine meets_attempt_bind (hbound .upper) fun upper _ => ?_
  refine meets_attempt_bind ((keepsContract_axisSize lower 0).bind fun _ _ => keepsContract_select _ _)
    fun rows _ => ?_
  refine meets_attempt_bind ((keepsContract_axisSize lower 1).bind fun _ _ => keepsContract_select _ _)
    fun cols _ => ?_
  by_cases hvector : (!rows.isVector || !cols.isVector) = true
  · rw [if_pos hvector]
    exact (nofun : Fault.KeepsContract .crossIndexDimension)
  · rw [if_neg hvector]
    refine .modify ?_
    exact meets_attempt_bind (keepsContract_checkBlock _ _ _) fun _ _ => trivial

/-- Making variables breaks no precondition. -/
theorem keepsContract_createVariables (p : Problem α) (s : Scheme α) :
    Meets s (createVariables p) (fun _ _ => True) Fault.KeepsContract := by
  have hextents : FailsOnly Fault.KeepsContract (extentsFor p s.gridPoints) :=
    (Problem.keepsContract_rowsOf _).bind fun _ _ =>
      (Problem.keepsContract_variableRowsOf _).bind fun _ _ =>
        (Problem.keepsContract_variableRowsOf _).bind fun _ _ => .ok _
  unfold createVariables
  refine .get ?_
  refine meets_attempt_bind hextents fun extents _ => ?_
  refine .set ?_
  exact Meets.forM trivial fun w _ s _ => keepsContract_writeBounds w s

end Scheme

namespace BuiltIn

variable {b : BuiltIn} {settings : Settings α} {p : Problem α} {literal : Literal α}
  {mesh : Array α}

theorem scheme_eq_built (hmesh : Mesh.ofLiteral literal = .ok mesh) :
    b.scheme settings p literal = Scheme.built (Scheme.createVariables p)
      (.start (b.rule mesh) settings (b.grid mesh).size (some (.vector (b.grid mesh)))) := by
  cases b with
  | trapezoidal => exact Scheme.trapezoidal_eq_built hmesh
  | hermiteSimpson tieControls => exact Scheme.hermiteSimpson_eq_built hmesh

/-- A construction fails only where some size is too large for a symbol. -/
theorem scheme_eq_error {derivatives slacks : Int} {fault : Fault α}
    (hmesh : Mesh.ofLiteral literal = .ok mesh) (htwo : 2 ≤ (b.grid mesh).size)
    (hderivatives : p.derivativeCount = .whole derivatives) (hslacks : p.slackCount = .whole slacks)
    (h : b.scheme settings p literal = .error fault) :
    fault.KeepsContract ∧
      Scheme.Oversized p (b.grid mesh).size derivatives.toNat slacks.toNat := by
  rw [scheme_eq_built hmesh] at h
  obtain ⟨s', hs'⟩ := Scheme.built_eq_error h
  refine ⟨(Scheme.keepsContract_createVariables p _).cause_of_error hs', ?_⟩
  by_contra hsizes
  have hpos : 0 < (Scheme.start (b.rule mesh) settings (b.grid mesh).size
      (some (.vector (b.grid mesh)))).gridPoints := Nat.zero_lt_of_lt htwo
  obtain ⟨s'', hs''⟩ := Scheme.exists_createVariables (Scheme.indexable_of_not_oversized hsizes)
    hpos (Scheme.extentsFor_of_whole hderivatives hslacks hsizes)
  cases hs'.symm.trans hs''

end BuiltIn
end Collocation
