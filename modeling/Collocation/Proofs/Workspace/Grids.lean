import Collocation.Proofs.Scheme.ValidGrid
import Collocation.Proofs.Workspace.Dimensions
import Collocation.Proofs.Workspace.Frozen

/-! # Grids of transcribed schemes

  A transcription checks the grid before it writes anything, and locks it. From then on only another
  grid that is put in its place can change it. So whatever is done in a workspace, a scheme that is
  transcribed has a valid grid, unless a point of it is undefined: no check notices that. -/

namespace Collocation

variable {α : Type} [Number α]

namespace Scheme

variable {p : Problem α} {s t : Scheme α}

/-- If the scheme is transcribed, its grid is one that is accepted, and it is locked. -/
def GridSettled (s : Scheme α) : Prop :=
  s.transcribed → s.gridLocked ∧ ∃ points, s.checkedGrid = .ok points

theorem GridSettled.transcribe (hs : s.GridSettled) :
    (stateOf (Scheme.transcribe p s)).GridSettled := by
  by_cases htranscribed : s.transcribed
  · rw [transcribe_frozen htranscribed]
    exact hs
  cases h : Scheme.transcribe p s with
  | error fault s' =>
    intro hs'
    change s'.transcribed at hs'
    rw [(later_of_transcribe_error h).1.rest] at hs'
    exact absurd hs' htranscribed
  | ok _ s' =>
    obtain ⟨s₁, s₂, hprepare, happly, rfl⟩ := transcribe_eq_ok h
    obtain ⟨d, hd, rfl⟩ := prepare_eq_ok_iff.mp hprepare
    have hdrafted := drafted_prepare p s
    rw [hprepare] at hdrafted
    have hlater := steady_applyRule.later_of_ok happly
    have hlocked : s₂.gridLocked := by
      rw [hlater.rest]
      rfl
    -- the grid that is written is the one that was accepted
    have hframe : SameFrame s s₂ := hdrafted.toSameFrame.trans hlater.sameFrame
    exact fun _ => ⟨hlocked, d.points, hframe.checkedGrid_eq.trans hd.points⟩

/-- Every step but another grid for a transcribed scheme leaves the grid settled. -/
theorem GridSettled.effect (hs : s.GridSettled) {command : SchemeCommand α}
    (h : Effect p s command t) (hgrid : ∀ grid, command = .setGrid grid → s.transcribed = false) :
    t.GridSettled := by
  cases h with
  | kept => exact hs
  | regridded h =>
    intro ht
    obtain ⟨_, _, rfl⟩ := h
    rw [hgrid _ rfl] at ht
    cases ht
  | gridElement hunlocked h =>
    intro ht
    obtain ⟨_, _, rfl⟩ := h
    rw [(hs ht).1] at hunlocked
    cases hunlocked
  | transcribed => exact hs.transcribe
  | bounded hkey hbounds =>
    obtain ⟨_, _, _, _, h⟩ := keeps_writeBounds s (.refl s)
    rw [h]
    exact hs
  | boundElement hkey =>
    obtain ⟨_, _, _, _, h⟩ := keeps_writeBound s (.refl s)
    rw [h]
    exact hs
  | boundArray key' value' =>
    obtain ⟨_, _, _, _, _, _, _, h⟩ := agreesButConstraints_replaceBounds _ key' value' s
    rw [h]
    exact hs
  | deleted h =>
    obtain ⟨_, rfl, -⟩ := h
    exact hs
  | appended =>
    obtain ⟨_, h⟩ := keeps_appendBody s ⟨_, rfl⟩
    rw [h]
    exact hs
  | aimed =>
    obtain ⟨_, h⟩ := keeps_replaceObjective s ⟨_, rfl⟩
    rw [h]
    exact hs
  | evaluated h =>
    obtain ⟨_, _, rfl⟩ := h
    exact hs

/-- A scheme that was just made is not transcribed. -/
theorem untranscribed_of_createScheme {settings : Settings α} {choice : SchemeChoice α}
    (h : Workspace.createScheme settings p choice = .ok s) : s.transcribed = false := by
  have hmade : ∀ {start : Scheme α}, start.transcribed = false →
      built (createVariables p) start = .ok s → s.transcribed = false := by
    intro start hstart hbuilt
    obtain ⟨extents, -, hagrees⟩ := createVariables_eq_ok (built_eq_ok hbuilt)
    obtain ⟨_, _, _, _, rfl⟩ := hagrees
    exact hstart
  cases choice with
  | trapezoidal mesh | hermiteSimpson mesh tieControls =>
    obtain ⟨points, -, h⟩ := bind_eq_ok h
    exact hmade rfl h
  | custom hooks grid gridPoints withVariables =>
    obtain ⟨grid', -, h⟩ := bind_eq_ok h
    obtain ⟨points, -, h⟩ := bind_eq_ok h
    unfold custom at h
    split_ifs at h
    · exact hmade rfl h
    · cases h
      rfl

end Scheme

/-! ## Meshes that are refused -/

/-- What is no mesh: a number below two, or defined points that are not valid. -/
inductive Mesh.Unfit : Literal α → Prop
  | few {n : Int} (h : n < 2) : Unfit (.whole n)
  | points {l : Literal α} {points : Array α} (hl : ∀ n, l ≠ .whole n)
      (hread : l.toVector = .ok points) (hdefined : AllDefined points) (h : ¬ValidMesh points) :
      Unfit l

theorem Mesh.Unfit.refused [LawfulDifference α] {l : Literal α} (h : Unfit l) :
    ∃ fault : Fault α, Mesh.ofLiteral l = .error fault ∧ fault.category = .value := by
  cases h with
  | @few n h =>
    refine ⟨.tooFewMeshPoints (toString n), ?_, rfl⟩
    rw [Mesh.ofLiteral, if_pos h]
  | @points _ points hl hread hdefined h =>
    unfold Mesh.ofLiteral
    split
    · next b => exact ⟨.tooFewMeshPoints (Literal.truthText b), rfl, rfl⟩
    · next n => exact absurd rfl (hl n)
    · rw [hread]
      cases hpoints : Mesh.ofPoints points with
      | error fault => exact ⟨fault, hpoints, category_of_ofPoints hpoints⟩
      | ok mesh => exact absurd ((ofPoints_eq_ok_iff hdefined).mp hpoints).2 h

namespace Workspace

variable {w w' : Workspace α} {name : String} {c : Command α}

/-! ## Runs -/

/-- The command puts another grid into the scheme under the name, which is transcribed. -/
def regrids (name : String) (w : Workspace α) : Command α → Bool
  | .scheme other (.setGrid _) =>
    other = name && (w.schemes.lookup name).any (·.scheme.transcribed)
  | _ => false

/-- No command on the way puts another grid into the scheme under the name once it is
    transcribed. -/
def leavesGrid (name : String) : List (Command α) → Workspace α → Bool
  | [], _ => true
  | c :: commands, w => !regrids name w c && leavesGrid name commands (stateOf (run c w))

/-- The scheme under the name, if there is one, has a settled grid. -/
def SettledUnder (name : String) (w : Workspace α) : Prop :=
  ∀ {owned}, w.schemes.lookup name = some owned → owned.scheme.GridSettled

theorem SettledUnder.step (hw : SettledUnder name w) (hc : regrids name w c = false)
    (h : Step w c w') : SettledUnder name w' := by
  intro owned hnamed
  rcases h.lookup hnamed with hkept | ⟨choice, s, -, hcreate, rfl⟩ | ⟨command, old, rfl, hold, rfl⟩
  · exact hw hkept
  · intro htranscribed
    rw [Scheme.untranscribed_of_createScheme hcreate] at htranscribed
    cases htranscribed
  · refine (hw hold).effect (Scheme.effect_step command _ _) ?_
    rintro grid rfl
    simpa [regrids, hold] using hc

/-- However commands end, the grid under a name is settled as long as they leave it. -/
theorem SettledUnder.after {commands : List (Command α)} (hw : SettledUnder name w)
    (hcommands : leavesGrid name commands w) : SettledUnder name (after commands w) := by
  induction commands generalizing w with
  | nil => exact hw
  | cons c commands ih =>
    rw [leavesGrid, Bool.and_eq_true, Bool.not_eq_true'] at hcommands
    exact ih (hw.step hcommands.1 (step_run c w)) hcommands.2

/-! ## Refused grids -/

/-- The command ends in the fault, and nothing is changed. -/
def Refuses (w : Workspace α) (c : Command α) (fault : Fault α) : Prop :=
  ∃ w', run c w = .error fault w' ∧ w.SameContents w'

/-- A transcription on a grid that is not accepted is refused. -/
theorem refuses_transcribe {owned : OwnedScheme α} (hnamed : w.schemes.lookup name = some owned)
    (h : ∀ points, owned.scheme.checkedGrid ≠ .ok points) :
    ∃ fault, w.Refuses (.scheme name .transcribe) fault ∧ (fault.category = .contract ∨
      fault.category = .index ∧ owned.scheme.gridVector = .ok #[] ∧
        owned.scheme.gridPoints = 0) := by
  have hrefuses : ∀ {fault}, Scheme.transcribe (w.problem owned.problem) owned.scheme =
      .error fault owned.scheme → w.Refuses (.scheme name .transcribe) fault := by
    intro fault htranscribe
    unfold Refuses run runScheme
    exact onScheme_eq_error hnamed (run_error_bind htranscribe)
  by_cases htranscribed : owned.scheme.transcribed
  · exact ⟨_, hrefuses (Scheme.transcribe_frozen htranscribed _), .inl rfl⟩
  · cases hgrid : owned.scheme.checkedGrid with
    | ok points => exact absurd hgrid (h points)
    | error fault =>
      have hopen : owned.scheme.transcribed = false := Bool.eq_false_iff.mpr htranscribed
      exact ⟨fault, hrefuses (Scheme.transcribe_of_checkedGrid hopen hgrid),
        Scheme.category_of_checkedGrid hgrid⟩

/-- A built-in scheme on what is no mesh is refused. -/
theorem refuses_create [LawfulDifference α] {l : Literal α} (h : Mesh.Unfit l) (b : BuiltIn) :
    ∃ fault : Fault α, Mesh.ofLiteral l = .error fault ∧ fault.category = .value ∧
      w.Refuses (.scheme name (.create (b.choice l))) fault := by
  obtain ⟨fault, hmesh, hcategory⟩ := h.refused
  refine ⟨fault, hmesh, hcategory, w, ?_, rfl, rfl, rfl, fun _ => rfl, rfl⟩
  have hcreate : createScheme w.settings w.currentProblem (b.choice l) = .error fault := by
    rw [BuiltIn.createScheme_choice]
    cases b <;> exact congrArg (· >>= _) hmesh
  unfold run runScheme
  simp only
  rw [run_get_bind, hcreate]
  rfl

variable [LawfulDifference α] in
/-- Let a workspace be the work of any commands, refused ones among them. A scheme that is
    transcribed in it has as many grid points as it declares, and they climb strictly within the
    unit interval, if none of them is undefined and no other grid was put into the scheme after its
    transcription. On any other grid without an undefined point a transcription is refused and
    changes nothing. The fault is a broken precondition, but for a grid of no points where none are
    declared. What is no mesh is refused for its value. -/
theorem transcribed_grids_valid (configured : Option String) (commands : List (Command α)) :
    (∀ name owned, (after commands (start configured)).schemes.lookup name = some owned →
      owned.scheme.GridDefined →
        (owned.scheme.transcribed → leavesGrid name commands (start configured) →
          owned.scheme.HasValidGrid) ∧
        (¬owned.scheme.HasValidGrid → ∃ fault,
          (after commands (start configured)).Refuses (.scheme name .transcribe) fault ∧
            (fault.category = .contract ∨ fault.category = .index ∧
              owned.scheme.gridVector = .ok #[] ∧ owned.scheme.gridPoints = 0))) ∧
    ∀ l : Literal α, Mesh.Unfit l → ∀ (name : String) (b : BuiltIn), ∃ fault : Fault α,
      Mesh.ofLiteral l = .error fault ∧ fault.category = .value ∧
        (after commands (start configured)).Refuses (.scheme name (.create (b.choice l))) fault := by
  refine ⟨fun name owned hnamed hdefined => ⟨fun htranscribed hleaves => ?_, fun hinvalid => ?_⟩,
    fun l hl name b => refuses_create hl b⟩
  · have hstart : SettledUnder name (start configured : Workspace α) := fun hnone => nomatch hnone
    obtain ⟨-, points, hchecked⟩ := hstart.after hleaves hnamed htranscribed
    exact (Scheme.hasValidGrid_iff hdefined).mpr ⟨points, hchecked⟩
  · apply refuses_transcribe hnamed
    intro points hchecked
    exact hinvalid ((Scheme.hasValidGrid_iff hdefined).mpr ⟨points, hchecked⟩)

/-! ## Grids of a scalar problem -/

open Extended

/-- A problem with one state and one control. -/
def declareScalar : List (Command (Extended ℚ)) :=
  [.problem (.addComponent .state "x" .null .null .null),
    .problem (.addComponent .control "u" .null .null .null),
    .problem (.setDynamics (.name "u"))]

/-- A scheme on an uneven mesh, and one of another rule whose grid does not climb. -/
def unevenSchemes : List (Command (Extended ℚ)) :=
  declareScalar ++
    [.scheme "s" (.create (.trapezoidal (.list [.whole 0, .real (finite (1 / 4)), .whole 1]))),
      .scheme "s" .transcribe,
      .scheme "b" (.create (.custom ⟨.null, .null, []⟩
        (.list [.whole 0, .whole 1, .real (finite (1 / 4))]) none true)),
      .scheme "b" .transcribe]

theorem transcribed_grids_valid_scalar :
    ∃ owned broken fault,
      (after unevenSchemes (start none)).schemes.lookup "s" = some owned ∧
      owned.scheme.GridDefined ∧ owned.scheme.transcribed ∧
      leavesGrid "s" unevenSchemes (start none) ∧ owned.scheme.HasValidGrid ∧
      (after unevenSchemes (start none)).schemes.lookup "b" = some broken ∧
      broken.scheme.GridDefined ∧ ¬broken.scheme.HasValidGrid ∧
      (after unevenSchemes (start none)).Refuses (.scheme "b" .transcribe) fault ∧
      fault.category = .contract ∧ Mesh.Unfit (.whole 1 : Literal (Extended ℚ)) ∧
      ∃ fault, (after unevenSchemes (start none)).Refuses
        (.scheme "s" (.create (BuiltIn.trapezoidal.choice (.whole 1)))) fault := by
  have hgood : ((after unevenSchemes (start none)).schemes.lookup "s").any fun owned =>
      owned.scheme.transcribed &&
        owned.scheme.gridVector.toOption = some (#[0, 1 / 4, 1].map finite) := by
    decide +kernel
  have hbad : ((after unevenSchemes (start none)).schemes.lookup "b").any fun owned =>
      owned.scheme.gridVector.toOption = some (#[0, 1, 1 / 4].map finite) := by
    decide +kernel
  obtain ⟨owned, hnamed, hscheme⟩ := (Option.any_eq_true _ _).mp hgood
  obtain ⟨broken, hbroken, hgrid⟩ := (Option.any_eq_true _ _).mp hbad
  rw [Bool.and_eq_true, decide_eq_true_iff] at hscheme
  have hpoints := eq_ok_of_toOption (of_decide_eq_true hgrid)
  have hdefined : owned.scheme.GridDefined :=
    Scheme.gridDefined_of_gridVector (eq_ok_of_toOption hscheme.2) (by decide +kernel)
  have hdefined' : broken.scheme.GridDefined :=
    Scheme.gridDefined_of_gridVector hpoints (by decide +kernel)
  have hinvalid : ¬broken.scheme.HasValidGrid := by
    rintro ⟨points, hvector, -, hvalid⟩
    cases hpoints.symm.trans hvector
    have hstep := hvalid.increases 1 (by simp)
    revert hstep
    decide +kernel
  have hleaves : leavesGrid "s" unevenSchemes (start none) := by decide +kernel
  have hunfit : Mesh.Unfit (.whole 1 : Literal (Extended ℚ)) := .few (by decide)
  obtain ⟨hschemes, hmeshes⟩ := transcribed_grids_valid none unevenSchemes
  obtain ⟨fault, hrefuses, hcategory⟩ := (hschemes "b" broken hbroken hdefined').2 hinvalid
  obtain ⟨fault', -, -, hrefuses'⟩ := hmeshes _ hunfit "s" .trapezoidal
  refine ⟨owned, broken, fault, hnamed, hdefined, hscheme.1, hleaves,
    (hschemes "s" owned hnamed hdefined).1 hscheme.1 hleaves, hbroken, hdefined', hinvalid,
    hrefuses, hcategory.resolve_right ?_, hunfit, fault', hrefuses'⟩
  rintro ⟨-, hempty, -⟩
  rw [hpoints, Except.ok.injEq] at hempty
  exact absurd hempty (by simp)

/-- An undefined point passes the check of the mesh and the check of the grid. -/
theorem undefined_point_transcribed :
    ∃ owned,
      (after (declareScalar ++
        [.scheme "s" (.create (.trapezoidal (.list [.whole 0, .real undefined, .whole 1]))),
          .scheme "s" .transcribe]) (start none)).schemes.lookup "s" = some owned ∧
      owned.scheme.transcribed ∧ ¬owned.scheme.HasValidGrid := by
  have hcheck : ((after (declareScalar ++
      [.scheme "s" (.create (.trapezoidal (.list [.whole 0, .real undefined, .whole 1]))),
        .scheme "s" .transcribe]) (start none)).schemes.lookup "s").any fun owned =>
      owned.scheme.transcribed &&
        owned.scheme.gridVector.toOption = some #[finite 0, undefined, finite 1] := by
    decide +kernel
  obtain ⟨owned, hnamed, hscheme⟩ := (Option.any_eq_true _ _).mp hcheck
  rw [Bool.and_eq_true, decide_eq_true_iff] at hscheme
  refine ⟨owned, hnamed, hscheme.1, ?_⟩
  rintro ⟨points, hvector, -, hvalid⟩
  cases (eq_ok_of_toOption hscheme.2).symm.trans hvector
  cases hvalid.increases 0 (by decide)

end Workspace
end Collocation
