import Collocation.Proofs.Scheme.BackendBounds
import Collocation.Proofs.Scheme.OrderedTables
import Collocation.Proofs.Workspace.Frames

/-! # Declared bounds

  Bounds that are declared to a problem or written into a scheme as bounds are in order, because no
  others can be constructed. So they stay in order in the tables of every scheme, and as a built-in
  rule appends no constraint whose bounds cross, a scheme with such a rule is never refused for its
  bounds. Only writes past this, of single elements, of whole arrays or of equations with bounds of
  their own, can make it infeasible. -/

namespace Collocation

variable {α : Type} [Number α] [LawfulComparison α]

/-! ## Problems -/

theorem Workspace.inOrder_of_readBounds {args : Literal α} {b : Bounds α}
    (h : readBounds args = .ok b) : b.InOrder := by
  unfold readBounds at h
  split at h
  · cases h
    exact Bounds.inOrder_unset
  · exact Bounds.inOrder_of_ofArguments h
  · cases h

theorem Workspace.inOrder_of_readEndBounds {kind : ComponentKind} {initial final : Literal α}
    {ends : Bounds α × Bounds α} (h : readEndBounds kind initial final = .ok ends) :
    ends.1.InOrder ∧ ends.2.InOrder := by
  unfold readEndBounds at h
  split at h
  · cases h
    exact ⟨Bounds.inOrder_unset, Bounds.inOrder_unset⟩
  · obtain ⟨first, hfirst, h⟩ := bind_eq_ok h
    obtain ⟨last, hlast, h⟩ := bind_eq_ok h
    cases h
    exact ⟨inOrder_of_readBounds hfirst, inOrder_of_readBounds hlast⟩

namespace Problem

variable {p p' : Problem α}

theorem boundsInOrder_undeclared (name : String) : BoundsInOrder { name := name : Problem α } := by
  refine ⟨Bounds.inOrder_unset, Bounds.inOrder_unset, Bounds.inOrder_unset, ?_⟩
  intro kind c hc
  cases kind <;> cases hc

omit [LawfulComparison α] in
theorem BoundsInOrder.addComponent (hp : p.BoundsInOrder) {kind : ComponentKind} {c : Component α}
    (hc : c.BoundsInOrder) (h : p.addComponent kind c = .ok p') : p'.BoundsInOrder := by
  unfold Problem.addComponent at h
  split at h
  · cases h
  · cases h
    have hall : ∀ d ∈ p.components kind ++ [c], d.BoundsInOrder := by
      intro d hd
      rcases List.mem_append.mp hd with hd | hd
      · exact hp.components kind d hd
      · rw [List.mem_singleton.mp hd]
        exact hc
    refine ⟨?_, ?_, ?_, ?_⟩
    · cases kind <;> exact hp.initialTime
    · cases kind <;> exact hp.finalTime
    · cases kind <;> exact hp.derivatives
    · intro other d hd
      by_cases hother : other = kind
      · subst hother
        refine hall d ?_
        cases other <;> exact hd
      · refine hp.components other d ?_
        cases kind <;> cases other <;> first | exact hd | exact absurd rfl hother

/-- No declaration brings bounds into a problem that are not in order. -/
theorem BoundsInOrder.change (hp : p.BoundsInOrder) {command : ProblemCommand α}
    (h : command.change p = .ok p') : p'.BoundsInOrder := by
  cases command with
  | setTimes initial final =>
    obtain ⟨first, hfirst, h⟩ := bind_eq_ok h
    obtain ⟨last, hlast, h⟩ := bind_eq_ok h
    cases h
    exact ⟨Workspace.inOrder_of_readBounds hfirst, Workspace.inOrder_of_readBounds hlast,
      hp.derivatives, hp.components⟩
  | addComponent kind name bounds initial final =>
    obtain ⟨bounds', hbounds, h⟩ := bind_eq_ok h
    obtain ⟨ends, hends, h⟩ := bind_eq_ok h
    obtain ⟨hfirst, hlast⟩ := Workspace.inOrder_of_readEndBounds hends
    exact hp.addComponent ⟨Workspace.inOrder_of_readBounds hbounds, hfirst, hlast⟩ h
  | setDerivatives count bounds =>
    obtain ⟨bounds', hbounds, h⟩ := bind_eq_ok h
    obtain ⟨_, -, h⟩ := bind_eq_ok h
    cases h
    exact ⟨hp.initialTime, hp.finalTime, Workspace.inOrder_of_readBounds hbounds, hp.components⟩
  | setSlacks count =>
    obtain ⟨_, -, h⟩ := bind_eq_ok h
    cases h
    exact ⟨hp.initialTime, hp.finalTime, hp.derivatives, hp.components⟩
  | addCost kind cost =>
    cases h
    cases kind <;> exact ⟨hp.initialTime, hp.finalTime, hp.derivatives, hp.components⟩
  | addConstraint family c =>
    cases h
    cases family <;> exact ⟨hp.initialTime, hp.finalTime, hp.derivatives, hp.components⟩
  | editConstraint family index edit =>
    obtain ⟨_, -, h⟩ := bind_eq_ok h
    cases h
    cases family <;> exact ⟨hp.initialTime, hp.finalTime, hp.derivatives, hp.components⟩
  | _ =>
    cases h
    exact ⟨hp.initialTime, hp.finalTime, hp.derivatives, hp.components⟩

end Problem

/-! ## Schemes -/

namespace Scheme

variable {p : Problem α} {s t : Scheme α}

omit [LawfulComparison α] in
/-- The bounds of the variables are in order, and under a built-in rule those of the constraints
    do not cross. -/
structure BoundsOrdered (s : Scheme α) : Prop where
  tables : s.TablesOrdered
  blocks : (∀ hooks, s.rule ≠ .custom hooks) → s.BlocksOrdered

omit [LawfulComparison α] in
theorem BoundsOrdered.of_same (h : s.BoundsOrdered) (hside : ∀ which, t.side which = s.side which)
    (hstrays : ∀ which, t.strays which = s.strays which) (hrule : t.rule = s.rule)
    (hblocks : t.blocks = s.blocks) : t.BoundsOrdered := by
  refine ⟨h.tables.of_sides hside hstrays, ?_⟩
  rw [hrule]
  exact fun hbuiltIn => (h.blocks hbuiltIn).of_blocks hblocks

theorem boundsOrdered_of_createVariables {rule : Rule α} {settings : Settings α}
    {gridPoints : Nat} {grid : Option (Tensor α)} (hp : p.BoundsInOrder)
    (h : createVariables p (.start rule settings gridPoints grid) = .ok () s) :
    s.BoundsOrdered := by
  refine ⟨tablesOrdered_createVariables hp (tablesOrdered_start _ _ _ _) h, fun _ => ?_⟩
  obtain ⟨_, -, _, _, _, _, rfl⟩ := createVariables_eq_ok h
  exact nofun

/-- Whatever a scheme is made of. -/
theorem boundsOrdered_of_createScheme {settings : Settings α} {choice : SchemeChoice α}
    (hp : p.BoundsInOrder) (h : Workspace.createScheme settings p choice = .ok s) :
    s.BoundsOrdered := by
  cases choice with
  | trapezoidal mesh =>
    obtain ⟨points, -, h⟩ := bind_eq_ok h
    exact boundsOrdered_of_createVariables hp (built_eq_ok h)
  | hermiteSimpson mesh tieControls =>
    obtain ⟨points, -, h⟩ := bind_eq_ok h
    exact boundsOrdered_of_createVariables hp (built_eq_ok h)
  | custom hooks grid gridPoints withVariables =>
    obtain ⟨grid', -, h⟩ := bind_eq_ok h
    obtain ⟨points, -, h⟩ := bind_eq_ok h
    unfold custom at h
    split at h
    · exact boundsOrdered_of_createVariables hp (built_eq_ok h)
    · cases h
      exact ⟨tablesOrdered_start _ _ _ _, fun hrule => absurd rfl (hrule hooks)⟩

end Scheme

namespace Workspace

/-- The command writes no bounds but declared ones: neither single elements or whole arrays of
    bounds nor equations with bounds of their own. -/
def declaresBounds : Command α → Bool
  | .scheme _ (.setBoundElement ..) | .scheme _ (.replaceBounds ..)
  | .scheme _ (.addConstraints ..) => false
  | _ => true

open Scheme in
/-- Every step of such a command keeps the bounds in order. -/
theorem keeps_boundsOrdered {name : String} {command : SchemeCommand α} {p : Problem α}
    (hcommand : declaresBounds (.scheme name command)) :
    Keeps BoundsOrdered (command.step p) := by
  intro s hs
  have heffect := effect_step command p s
  generalize stateOf (command.step p s) = t at heffect ⊢
  cases heffect with
  | kept => exact hs
  | regridded h | gridElement hunlocked h =>
    obtain ⟨_, _, rfl⟩ := h
    exact hs.of_same (fun _ => rfl) (fun _ => rfl) rfl rfl
  | transcribed =>
    have hframe := sameFrame_transcribe p s
    refine ⟨hs.tables.of_sides hframe.side hframe.strays, fun hrule => ?_⟩
    have hbuiltIn : ∀ hooks, s.rule ≠ .custom hooks := hframe.rule ▸ hrule
    exact (hs.blocks hbuiltIn).transcribe hbuiltIn
  | @bounded _ rows cols _ key' hkey bounds hread =>
    have htables : TablesOrdered (stateOf (writeBounds key' rows cols bounds s)) :=
      tablesOrdered_writeBounds (inOrder_of_readBounds hread) s hs.tables
    have hbounds : s.AgreesButBounds (stateOf (writeBounds key' rows cols bounds s)) :=
      keeps_writeBounds s (.refl s)
    refine ⟨htables, ?_⟩
    obtain ⟨_, _, _, _, h⟩ := hbounds
    rw [h]
    exact hs.blocks
  | boundElement => cases hcommand
  | boundArray => cases hcommand
  | deleted h =>
    obtain ⟨_, rfl, -⟩ := h
    exact hs.of_same (fun _ => rfl) (fun _ => rfl) rfl rfl
  | appended => cases hcommand
  | @aimed body =>
    have hobjective : s.AgreesButObjective (stateOf (replaceObjective body s)) :=
      keeps_replaceObjective s ⟨_, rfl⟩
    obtain ⟨_, h⟩ := hobjective
    rw [h]
    exact hs.of_same (fun _ => rfl) (fun _ => rfl) rfl rfl
  | evaluated h =>
    obtain ⟨_, _, rfl⟩ := h
    exact hs.of_same (fun _ => rfl) (fun _ => rfl) rfl rfl

/-- Declared bounds stay in order. -/
theorem preserved_boundsOrdered :
    Preserved (fun c : Command α => declaresBounds c) Problem.BoundsInOrder Scheme.BoundsOrdered where
  undeclared := Problem.boundsInOrder_undeclared
  declared _ hp hchange := hp.change hchange
  created hp hcreate := Scheme.boundsOrdered_of_createScheme hp hcreate
  worked hcommand _ := keeps_boundsOrdered hcommand

variable {commands : List (Command α)} {configured : Option String} {name : String}
  {owned : OwnedScheme α}

/-- Let a workspace be the work of commands, refused ones among them, that write no bounds but
    declared ones, before or after transcriptions. In the tables of each of its schemes every lower
    bound is at most the upper bound at its place, and neither is undefined. A scheme with a
    built-in rule passes the checks of its bounds, whatever bounds of constraints it was transcribed
    with, so nothing but the backend itself can report that bounds exclude every value. -/
theorem declared_bounds_feasible (hcommands : ∀ c ∈ commands, declaresBounds c)
    (hnamed : (after commands (start configured)).schemes.lookup name = some owned) :
    owned.scheme.TablesOrdered ∧
    (∀ k lower upper, owned.scheme.lower.find? k = some lower →
      owned.scheme.upper.find? k = some upper → lower.shape = upper.shape ∧
        ∀ i < lower.size, Number.atMost (lower.get i) (upper.get i) ∧
          Number.isUndefined (lower.get i) = false ∧ Number.isUndefined (upper.get i) = false) ∧
    ((∀ hooks, owned.scheme.rule ≠ .custom hooks) → owned.scheme.checkBounds = .ok () ∧
      ∀ p (backend : Backend α) guess fault,
        owned.scheme.solve p backend guess = .error fault → fault.category = .infeasible →
          ∃ program, owned.scheme.program guess = .ok program ∧
            backend program = .error (.other fault)) := by
  have hordered : owned.scheme.BoundsOrdered :=
    ((Holds.start preserved_boundsOrdered configured).after preserved_boundsOrdered
      hcommands).schemes hnamed
  refine ⟨hordered.tables, fun k lower upper hlower hupper => ?_, fun hbuiltIn => ?_⟩
  · obtain ⟨hnone, -⟩ | ⟨_, _, hlower', hupper', hbrackets⟩ := hordered.tables.tables k
    · rw [hnone] at hlower
      cases hlower
    cases hlower.symm.trans hlower'
    cases hupper.symm.trans hupper'
    obtain ⟨e, hlowerShape, hupperShape⟩ := hbrackets.shape
    refine ⟨hlowerShape.trans hupperShape.symm, fun i hi => ?_⟩
    have hatMost := hbrackets.atMost i hi
    exact ⟨hatMost, LawfulComparison.defined_of_atMost hatMost⟩
  · have hchecks : owned.scheme.checkBounds = .ok () :=
      Scheme.checkBounds_of_ordered hordered.tables.strays hordered.tables.ordered
        (hordered.blocks hbuiltIn).ordered
    refine ⟨hchecks, fun p backend guess fault hsolve hfault => ?_⟩
    rcases Scheme.checkBounds_of_solve_eq_error hsolve hfault with hrefused | hbackend
    · rw [hchecks] at hrefused
      cases hrefused
    · exact hbackend

open Extended

/-- A slide between declared bounds, with other ones written before and after its transcription. Its
    speed has no lower bound, and crossed bounds are refused on the way. -/
def fencedSlideCommands : List (Command (Extended ℚ)) :=
  [.problem (.setTimes (.list [.whole 0]) (.list [.whole 1, .whole 2])),
    .problem (.addComponent .state "x" (.list [.whole 0, .whole 3]) (.list [.whole 0]) .null),
    .problem (.addComponent .control "u" .null .null .null),
    .problem (.setDynamics (.name "u")),
    .problem (.addConstraint .path ⟨"speed", .name "u", .null, .whole 2⟩),
    .scheme "s" (.create (.trapezoidal (.whole 3))),
    .scheme "s" (.setBounds (.text "states") .all (.index (-1)) (.list [.whole 1, .whole 2])),
    .scheme "s" (.setBounds (.text "states") .all .all (.list [.whole 2, .whole 1])),
    .scheme "s" .transcribe,
    .scheme "s" (.setBounds (.text "controls") (.index 0) .all (.list [.whole 1]))]

theorem declared_bounds_feasible_slide :
    ∃ owned, (∀ c ∈ fencedSlideCommands, declaresBounds c) ∧
      (after fencedSlideCommands (start none)).schemes.lookup "s" = some owned ∧
      owned.scheme.transcribed ∧
      Layout.flatten owned.scheme.lower = #[0, 1, 0, 0, 1, 1, 1, 1].map finite ∧
      Layout.flatten owned.scheme.upper = #[0, 2, 0, 3, 2, 1, 1, 1].map finite ∧
      owned.scheme.checkBounds = .ok () := by
  have hcheck : ((after fencedSlideCommands (start none)).schemes.lookup "s").any fun owned =>
      owned.scheme.transcribed &&
        Layout.flatten owned.scheme.lower = #[0, 1, 0, 0, 1, 1, 1, 1].map finite &&
        Layout.flatten owned.scheme.upper = #[0, 2, 0, 3, 2, 1, 1, 1].map finite &&
        owned.scheme.rule.schemeName = "TrapezoidalScheme" := by
    decide +kernel
  obtain ⟨owned, hnamed, hscheme⟩ := (Option.any_eq_true _ _).mp hcheck
  simp only [Bool.and_eq_true, decide_eq_true_iff] at hscheme
  obtain ⟨⟨⟨htranscribed, hlower⟩, hupper⟩, hrule⟩ := hscheme
  have hcommands : ∀ c ∈ fencedSlideCommands, declaresBounds c := by decide
  have hbuiltIn : ∀ hooks, owned.scheme.rule ≠ .custom hooks := by
    intro hooks hcustom
    rw [hcustom] at hrule
    exact absurd hrule (by simp [Rule.schemeName])
  obtain ⟨-, -, hfeasible⟩ := declared_bounds_feasible hcommands hnamed
  exact ⟨owned, hcommands, hnamed, htranscribed, hlower, hupper, (hfeasible hbuiltIn).1⟩

end Workspace
end Collocation
