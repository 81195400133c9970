import Collocation.Proofs.Scheme.Dimensions
import Collocation.Proofs.Scheme.Integral
import Collocation.Proofs.Scheme.SharedLayout
import Collocation.Proofs.Workspace.Frames

/-! # Dimensions over the life of a scheme

  A scheme has variables of the sizes that its problem declared when it was made, and keeps them as
  they are or loses them. What is declared later does not reach them. It meets them only when the
  scheme is transcribed, in the functions of the problem that are then called with their columns,
  so a scheme that has fallen behind its problem is refused unless calls make up for the difference:
  they repeat a single element and fill an empty column with zeros. -/

namespace Collocation

variable {α : Type} [Number α]

namespace BuiltIn

variable {b : BuiltIn} {settings : Settings α} {p : Problem α} {mesh : Literal α} {s : Scheme α}

/-- The choice of the rule on a mesh. -/
def choice (mesh : Literal α) : BuiltIn → SchemeChoice α
  | trapezoidal => .trapezoidal mesh
  | hermiteSimpson tieControls => .hermiteSimpson mesh tieControls

theorem createScheme_choice :
    Workspace.createScheme settings p (b.choice mesh) = b.scheme settings p mesh := by
  cases b <;> rfl

theorem onMesh {points : Array α} (htwo : 2 ≤ points.size) (hrule : s.rule = b.rule points)
    (hgridPoints : s.gridPoints = (b.grid points).size) : s.OnMesh := by
  cases b with
  | trapezoidal => exact .trapezoidal hrule (hgridPoints ▸ htwo)
  | hermiteSimpson tieControls => exact .hermiteSimpson hrule htwo

/-- Variables of certain sizes on a number of grid points suit a problem under a rule: the functions
    of the problem can be called with them, and the rule can append what it compares. -/
structure Suits (b : BuiltIn) (p : Problem α) (gridPoints : Nat) (Γ : Kind → Extent) : Prop where
  /-- Every kind has the columns that are declared, and the rows, unless it has a single row, which
      is repeated in calls, or none, for which there are zeros. -/
  kinds : ∃ derivatives slacks, Problem.rowsOf p.derivativeCount = .ok derivatives ∧
    Problem.rowsOf p.slackCount = .ok slacks ∧ ∀ k,
      (Γ k).cols = (Scheme.kindExtent p gridPoints derivatives slacks k).cols ∧
      Accepts (Scheme.kindExtent p gridPoints derivatives slacks k).rows (Γ k).rows
  /-- There are no zeros for states. -/
  states : (Γ .states).rows = 0 → p.states = []
  /-- Tied controls are not repeated. -/
  controls : b = hermiteSimpson true → p.controls ≠ [] → (Γ .controls).rows = p.controls.length

end BuiltIn

namespace Scheme

variable {s s₀ t u : Scheme α} {p p₀ : Problem α} {b : BuiltIn} {points : Array α}

omit [Number α] in
theorem Trims.trans (h : s.Trims t) (h' : t.Trims u) : s.Trims u :=
  ⟨h'.rule.trans h.rule, h'.gridPoints.trans h.gridPoints, fun hk => h.extents (h'.extents hk)⟩

omit [Number α] in
/-- Where variables of all kinds are left, none were deleted. -/
theorem Trims.extents_eq (h : s.Trims t) (ht : t.checkVariables = .ok ()) :
    t.extents = s.extents := by
  obtain ⟨Γ, hΓ, -⟩ := side_of_checkVariables ht
  apply Table.ext_find?
  intro k
  have hk : t.extents.find? k = some (Γ k) := by rw [hΓ, Table.find?_full]
  rw [hk, h.extents hk]

/-- Variables that were made for a problem keep their sizes, so they suit the problem that a
    transcription has passed. -/
theorem suits_of_transcribe (htwo : 2 ≤ points.size)
    (hs₀ : s₀.Fresh (b.rule points) (b.grid points) p₀) (ht : s₀.Trims t)
    (h : transcribe p t = .ok () s) :
    ∃ Γ, s.extents = .full Γ ∧ extentsFor p₀ s.gridPoints = .ok (.full Γ) ∧
      b.Suits p s.gridPoints Γ := by
  have hframe := sameFrame_transcribe p t
  rw [h] at hframe
  have hextents : s.extents = t.extents := hframe.extents
  have hgridPoints : s.gridPoints = (b.grid points).size :=
    hframe.gridPoints.trans (ht.gridPoints.trans hs₀.gridPoints)
  -- a scheme that has lost variables is not transcribed
  have hlast : t.Trims s := ⟨hframe.rule, hframe.gridPoints, fun hk => hextents ▸ hk⟩
  have hmade : s.extents = s₀.extents :=
    (ht.trans hlast).extents_eq (checkVariables_of_transcribe h)
  have hsizes : extentsFor p₀ s.gridPoints = .ok t.extents := by
    rw [hgridPoints, ← hextents, hmade]
    exact hs₀.extents
  obtain ⟨derivatives₀, slacks₀, -, -, hfull⟩ := extentsFor_eq_ok hsizes
  have hfind : ∀ k, t.extents.find? k =
      some (kindExtent p₀ s.gridPoints derivatives₀ slacks₀ k) := by
    intro k
    rw [hfull, Table.find?_full]
  have honMesh : t.OnMesh := BuiltIn.onMesh htwo (ht.rule.trans hs₀.rule)
    (ht.gridPoints.trans hs₀.gridPoints)
  have hparameters : ∀ e, t.extents.find? .parameters = some e → e.cols = 1 := by
    intro e he
    cases (hfind .parameters).symm.trans he
    rfl
  obtain ⟨derivatives, slacks, hderivatives, hslacks, haccepts, hstates, hcontrols⟩ :=
    accepts_of_transcribe honMesh hparameters h
  refine ⟨_, hextents.trans hfull, hfull ▸ hsizes,
    ⟨derivatives, slacks, hderivatives, hslacks, fun k => ⟨?_, ?_⟩⟩, hstates _ (hfind .states), ?_⟩
  · rw [kindExtent_eq, kindExtent_eq p]
  · have hrows : ∀ input : PointInput, input.kind? = some k →
        Accepts (kindExtent p s.gridPoints derivatives slacks k).rows
          (kindExtent p₀ s.gridPoints derivatives₀ slacks₀ k).rows := by
      intro input hk
      obtain ⟨e, he, hfits⟩ := haccepts input k hk
      cases (hfind k).symm.trans he
      rw [kindExtent_eq p]
      exact hfits
    cases k with
    | initialTime | finalTime => exact .inl rfl
    | states => exact hrows .states rfl
    | controls => exact hrows .controls rfl
    | multipliers => exact hrows .multipliers rfl
    | derivatives => exact hrows .derivatives rfl
    | slacks => exact hrows .slacks rfl
    | parameters => exact hrows .parameters rfl
  · rintro rfl hdeclared
    exact hcontrols points (ht.rule.trans hs₀.rule) hdeclared _ (hfind .controls)

end Scheme

namespace Workspace

variable {w w₀ w₁ : Workspace α} {name : String} {c : Command α} {commands : List (Command α)}
  {b : BuiltIn} {mesh : Literal α}

theorem respects_trims {s : Scheme α} (hc : recreates name c = false) :
    Respects name s.Trims c := by
  refine ⟨hc, ?_⟩
  rintro command - p t ht
  exact ht.trans (Scheme.effect_step command p t).trims

/-- Let a built-in scheme be made for the current problem, let any commands follow that put no
    other scheme under its name, refused ones among them, and let the scheme then be transcribed.
    Its variables have the sizes that its problem declared when the scheme was made, and they suit
    what the problem declares when the scheme is transcribed. -/
theorem transcribed_dimensions {reply₀ reply₁ : Reply α}
    (hcreate : run (.scheme name (.create (b.choice mesh))) w = .ok reply₀ w₀)
    (hcommands : ∀ c ∈ commands, recreates name c = false)
    (htranscribe : run (.scheme name .transcribe) (after commands w₀) = .ok reply₁ w₁) :
    ∃ s Γ, w₁.schemes.lookup name = some ⟨w.current, s⟩ ∧ s.extents = .full Γ ∧
      Scheme.extentsFor w.currentProblem s.gridPoints = .ok (.full Γ) ∧
      b.Suits (w₁.problem w.current) s.gridPoints Γ := by
  obtain ⟨s₀, hs₀, hnamed₀⟩ := created_of_run hcreate
  rw [BuiltIn.createScheme_choice] at hs₀
  obtain ⟨points, hpoints⟩ := BuiltIn.exists_mesh hs₀
  -- what follows keeps the rule and the grid and can only delete variables
  have hmade : UnderName name w.current s₀.Trims w₀ := ⟨_, hnamed₀, rfl, rfl, rfl, id⟩
  obtain ⟨⟨n, t⟩, hnamed, hn, htrims⟩ := hmade.after fun c hc => respects_trims (hcommands c hc)
  obtain ⟨owned, s, hnamed', hs, hproblems, hlookup⟩ := transcribed_of_run htranscribe
  cases hnamed.symm.trans hnamed'
  cases hn
  have hproblem : w₁.problem w.current = (after commands w₀).problem w.current := by
    rw [problem, hproblems, problem]
  obtain ⟨Γ, hΓ, hsizes, hsuits⟩ := Scheme.suits_of_transcribe (Mesh.two_le_size hpoints)
    (BuiltIn.fresh hpoints hs₀) htrims hs
  exact ⟨s, Γ, hlookup, hΓ, hsizes, hproblem ▸ hsuits⟩

/-! ## Schemes that fall behind -/

/-- A problem with one state and one control. -/
def scalarWorkspace : Workspace (Extended ℚ) :=
  after [.problem (.addComponent .state "x" .null .null .null),
    .problem (.addComponent .control "u" .null .null .null),
    .problem (.setDynamics (.name "u"))] (start none)

/-- Another state, and dynamics for both. -/
def secondState : List (Command (Extended ℚ)) :=
  [.problem (.addComponent .state "y" .null .null .null),
    .problem (.setDynamics (.stacked [.name "u", .name "u"]))]

/-- Under tied controls the problem still has the control that the scheme was made with, though it
    has another state. -/
theorem transcribed_dimensions_scalar :
    ∃ reply₀ w₀ reply₁ w₁ s Γ,
      run (.scheme "s" (.create (.hermiteSimpson (.whole 2) true))) scalarWorkspace =
        .ok reply₀ w₀ ∧
      (∀ c ∈ secondState, recreates "s" c = false) ∧
      run (.scheme "s" .transcribe) (after secondState w₀) = .ok reply₁ w₁ ∧
      w₁.schemes.lookup "s" = some ⟨0, s⟩ ∧ s.extents = .full Γ ∧
      (w₁.problem 0).controls.length = 1 ∧ (Γ .controls).rows = 1 := by
  have hmade : endsIn (fun w₀ => endsIn (fun w₁ => decide ((w₁.problem 0).controls.length = 1))
        (run (.scheme "s" .transcribe) (after secondState w₀)))
      (run (.scheme "s" (.create (.hermiteSimpson (.whole 2) true))) scalarWorkspace) := by
    decide +kernel
  obtain ⟨reply₀, w₀, hcreate, htranscribed⟩ := exists_of_endsIn hmade
  obtain ⟨reply₁, w₁, htranscribe, hcontrols⟩ := exists_of_endsIn htranscribed
  have hcount : (w₁.problem 0).controls.length = 1 := of_decide_eq_true hcontrols
  have hcommands : ∀ c ∈ secondState, recreates "s" c = false := by decide
  obtain ⟨s, Γ, hlookup, hΓ, -, hsuits⟩ :=
    transcribed_dimensions (b := .hermiteSimpson true) hcreate hcommands htranscribe
  refine ⟨reply₀, w₀, reply₁, w₁, s, Γ, hcreate, hcommands, htranscribe, hlookup, hΓ, hcount, ?_⟩
  rw [← hcount]
  refine hsuits.controls rfl ?_
  intro hnone
  change (w₁.problem 0).controls = [] at hnone
  rw [hnone] at hcount
  cases hcount

/-- A scheme with a single state passes its transcription although its problem declares two then. -/
theorem single_state_for_two :
    ∃ reply w owned,
      run (.scheme "s" .transcribe)
        (after (.scheme "s" (.create (.trapezoidal (.whole 3))) :: secondState)
          scalarWorkspace) = .ok reply w ∧
      w.schemes.lookup "s" = some owned ∧ owned.scheme.transcribed ∧
      owned.scheme.extents.find? .states = some ⟨1, 3⟩ ∧
      (w.problem owned.problem).states.length = 2 := by
  have hcheck : endsIn
      (fun w => (w.schemes.lookup "s").any fun owned => owned.scheme.transcribed &&
        decide (owned.scheme.extents.find? .states = some ⟨1, 3⟩) &&
        decide ((w.problem owned.problem).states.length = 2))
      (run (.scheme "s" .transcribe)
        (after (.scheme "s" (.create (.trapezoidal (.whole 3))) :: secondState)
          scalarWorkspace)) := by
    decide +kernel
  obtain ⟨reply, w, hrun, hends⟩ := exists_of_endsIn hcheck
  obtain ⟨owned, hnamed, hscheme⟩ := (Option.any_eq_true _ _).mp hends
  simp only [Bool.and_eq_true, decide_eq_true_iff] at hscheme
  obtain ⟨⟨htranscribed, hstates⟩, hdeclared⟩ := hscheme
  exact ⟨reply, w, owned, hrun, hnamed, htranscribed, hstates, hdeclared⟩

end Workspace
end Collocation
