import Collocation.Proofs.Scheme.ElementBounds
import Collocation.Proofs.Scheme.NamedRows
import Collocation.Proofs.Workspace.Dimensions
import Collocation.Proofs.Workspace.Frozen
import Collocation.Proofs.Workspace.Roster

/-! # Declarations and schemes

  The names of the components, their rows, their bounds and their numbers in the decision vector are
  kept apart, and yet they stay matched. In the tables of a scheme that is made after declarations
  the row of a component has its bounds, and in a solution its name stands for the numbers of its
  row, as long as no component is declared since. -/

namespace Collocation

variable {α : Type}

/-- The element in a row and a column of a matrix. -/
def Tensor.element? [Inhabited α] (t : Tensor α) (i j : Nat) : Option α :=
  match t.shape with
  | [rows, cols] => if i < rows ∧ j < cols then some (t.get (i + rows * j)) else none
  | _ => none

/-- The kind of decision variables. -/
def ComponentKind.kind : ComponentKind → Kind
  | state => .states
  | control => .controls
  | multiplier => .multipliers
  | parameter => .parameters

variable [Number α]

/-! ## Bounds -/

namespace Scheme

variable {s t : Scheme α} {p : Problem α} {Γ : Kind → Extent} {view : ElementView α}

/-- The lower and the upper bound in a row and a column of a kind. -/
def boundsAt (s : Scheme α) (k : Kind) (i j : Nat) : Option (α × α) := do
  let lower ← s.lower.find? k
  let upper ← s.upper.find? k
  return (← lower.element? i j, ← upper.element? i j)

/-- On so many grid points every row of both tables has the bounds of its component, in all of its
    columns and in no others. -/
structure BoundsDeclared (s : Scheme α) (r : Roster α) (N : Nat) : Prop where
  alongGrid : ∀ kind, kind ≠ .parameter → ∀ i c, (r kind)[i]? = some c → ∀ j,
    s.boundsAt kind.kind i j = if j < N then some (c.boundsOn N j).toPair else none
  parameters : ∀ i c, (r .parameter)[i]? = some c → ∀ j,
    s.boundsAt .parameters i j = if j = 0 then some c.bounds.toPair else none

theorem HasBounds.boundsAt (hs : s.HasBounds Γ view) (k : Kind) (i j : Nat) :
    s.boundsAt k i j =
      if i < (Γ k).rows ∧ j < (Γ k).cols then some (view k i j).toPair else none := by
  obtain ⟨lower, hlower, hlowerShape, hlowerGet⟩ := hs .lower k
  obtain ⟨upper, hupper, hupperShape, hupperGet⟩ := hs .upper k
  change s.lower.find? k = some lower at hlower
  change s.upper.find? k = some upper at hupper
  by_cases hin : i < (Γ k).rows ∧ j < (Γ k).cols
  · simp [Scheme.boundsAt, hlower, hupper, Tensor.element?, hlowerShape, hupperShape,
      Extent.toList, hin, hlowerGet i hin.1 j hin.2, hupperGet i hin.1 j hin.2, Side.of]
  · simp [Scheme.boundsAt, hlower, hupper, Tensor.element?, hupperShape, Extent.toList, hin]

theorem HasBounds.boundsDeclared {N derivatives slacks : Nat}
    (hs : s.HasBounds (kindExtent p N derivatives slacks) (p.elementBounds N)) :
    s.BoundsDeclared p.components N := by
  constructor
  · intro kind hkind i c hc j
    obtain ⟨hi, rfl⟩ := List.getElem?_eq_some_iff.mp hc
    rw [hs.boundsAt]
    cases kind with
    | state | control | multiplier =>
      simp only [Problem.components] at hi
      simp [ComponentKind.kind, kindExtent, Problem.elementBounds, Problem.components, hi]
    | parameter => exact absurd rfl hkind
  · intro i c hc j
    obtain ⟨hi, rfl⟩ := List.getElem?_eq_some_iff.mp hc
    simp only [Problem.components] at hi
    rw [hs.boundsAt]
    simp [kindExtent, Problem.elementBounds, Problem.components, hi]

end Scheme

/-! ## Solutions -/

/-- The name of every component stands for its numbers in a decision vector on so many grid points:
    behind the two end times come the states, the controls and the multipliers, each of these column
    by column, and the parameters come last. -/
structure Trajectory.Decodes (t : Trajectory α) (r : Roster α) (N : Nat) (x : Array α) : Prop where
  states : ∀ i c, (r .state)[i]? = some c → t.namedRow .states .states c.name =
    .ok (.vector (Array.ofFn fun k : Fin N =>
      x.getD (2 + k * (r .state).length + i) default))
  controls : ∀ j c, (r .control)[j]? = some c → t.namedRow .controls .controls c.name =
    .ok (.vector (Array.ofFn fun k : Fin N =>
      x.getD (2 + (r .state).length * N + k * (r .control).length + j) default))
  multipliers : ∀ j c, (r .multiplier)[j]? = some c →
    t.namedRow .multipliers .multipliers c.name =
      .ok (.vector (Array.ofFn fun k : Fin N =>
        x.getD (2 + (r .state).length * N + (r .control).length * N +
          k * (r .multiplier).length + j) default))
  parameters : ∀ j c, (r .parameter)[j]? = some c → t.namedParameter c.name =
    .ok (x.getD (x.size - (r .parameter).length + j) default)

namespace Scheme

variable {s t : Scheme α} {p p' : Problem α} {answer : Answer α} {u : Trajectory α}
  {N derivatives slacks : Nat}

omit [Number α] in
theorem offset_states :
    Layout.offset (.full (kindExtent p N derivatives slacks)) .states = 2 := by
  simp [Layout.offset_full, Kind.all, Kind.index, kindExtent, Extent.unit]

omit [Number α] in
theorem offset_controls : Layout.offset (.full (kindExtent p N derivatives slacks)) .controls =
    2 + p.states.length * N := by
  simp [Layout.offset_full, Kind.all, Kind.index, kindExtent, Extent.unit]
  omega

omit [Number α] in
theorem offset_multipliers :
    Layout.offset (.full (kindExtent p N derivatives slacks)) .multipliers =
      2 + p.states.length * N + p.controls.length * N := by
  simp [Layout.offset_full, Kind.all, Kind.index, kindExtent, Extent.unit]
  omega

theorem decodes_of_solutionOf (hextents : s.extents = .full (kindExtent p N derivatives slacks))
    (hp : p.Indexable) (hdistinct : Roster.Distinct p.components) (hnames : p'.names = p.names)
    (h : s.solutionOf p' answer = .ok u) : u.Decodes p.components N answer.vector := by
  have hindex : ∀ {kind : ComponentKind} {i : Nat}, i < (p.components kind).length →
      i < 0x8000000000000000 := fun {kind i} hi => Nat.lt_of_lt_of_le hi (hp kind)
  have hname : ∀ {cs : List (Component α)} {i : Nat} {c : Component α}, cs[i]? = some c →
      (cs.map (·.name))[i]? = some c.name := by
    intro cs i c hc
    rw [List.getElem?_map, hc]
    rfl
  -- the problem is asked for its names only when the vector is read
  have hlist : ∀ list, p'.names.get list = p.names.get list := by
    intro list
    rw [hnames]
  constructor
  · intro i c hc
    obtain ⟨hi, -⟩ := List.getElem?_eq_some_iff.mp hc
    have hrow := namedRow_of_solutionOf (k := .states) hextents h (hlist .states)
      (hdistinct .state) (hname hc) hi (hindex hi)
    rwa [offset_states] at hrow
  · intro j c hc
    obtain ⟨hj, -⟩ := List.getElem?_eq_some_iff.mp hc
    have hrow := namedRow_of_solutionOf (k := .controls) hextents h (hlist .controls)
      (hdistinct .control) (hname hc) hj (hindex hj)
    rwa [offset_controls] at hrow
  · intro j c hc
    obtain ⟨hj, -⟩ := List.getElem?_eq_some_iff.mp hc
    have hrow := namedRow_of_solutionOf (k := .multipliers) hextents h (hlist .multipliers)
      (hdistinct .multiplier) (hname hc) hj (hindex hj)
    rwa [offset_multipliers] at hrow
  · intro j c hc
    obtain ⟨hj, -⟩ := List.getElem?_eq_some_iff.mp hc
    exact namedParameter_of_solutionOf hextents h (hlist .parameters) (hdistinct .parameter)
      (hname hc) rfl hj (hindex hj)

/-- Every vector of the scheme's length is read as a solution, if the scheme has a grid, and is
    decoded under the names of a roster. -/
def DecodesVectors (s : Scheme α) (p : Problem α) (r : Roster α) (N : Nat) : Prop :=
  ∀ x stats, x.size = Layout.length s.extents →
    (s.grid.isSome → ∃ t, s.solutionOf p ⟨x, stats⟩ = .ok t) ∧
    ∀ t, s.solutionOf p ⟨x, stats⟩ = .ok t → t.Decodes r N x

theorem decodesVectors (hextents : s.extents = .full (kindExtent p N derivatives slacks))
    (hp : p.Indexable) (hdistinct : Roster.Distinct p.components) (hnames : p'.names = p.names) :
    s.DecodesVectors p' p.components N := by
  refine fun x stats hsize => ⟨fun hgrid => ?_, fun t ht => ?_⟩
  · obtain ⟨grid, hgrid⟩ := Option.isSome_iff_exists.mp hgrid
    have hvector : s.gridVector = .ok grid.written := by rw [gridVector, hgrid]
    exact exists_solutionOf_of_grid hextents rfl rfl hvector hsize p'
  · exact decodes_of_solutionOf hextents hp hdistinct hnames ht

end Scheme

/-! ## Schemes of a workspace -/

/-- The choice comes with decision variables. -/
def SchemeChoice.hasVariables : SchemeChoice α → Bool
  | .trapezoidal _ | .hermiteSimpson _ _ => true
  | .custom _ _ _ withVariables => withVariables

theorem Scheme.createVariables_of_createScheme {settings : Settings α} {choice : SchemeChoice α}
    {p : Problem α} {s : Scheme α} (h : Workspace.createScheme settings p choice = .ok s)
    (hvariables : choice.hasVariables) :
    ∃ rule gridPoints grid,
      createVariables p (.start rule settings gridPoints grid) = .ok () s := by
  cases choice with
  | trapezoidal mesh | hermiteSimpson mesh tieControls =>
    obtain ⟨points, -, h⟩ := bind_eq_ok h
    exact ⟨_, _, _, built_eq_ok h⟩
  | custom hooks grid gridPoints withVariables =>
    obtain ⟨grid', -, h⟩ := bind_eq_ok h
    obtain ⟨points, -, h⟩ := bind_eq_ok h
    change withVariables = true at hvariables
    unfold custom at h
    rw [if_pos hvariables] at h
    exact ⟨_, _, _, built_eq_ok h⟩

namespace Workspace

variable {w w₀ : Workspace α} {name : String}

theorem respects_extents {s : Scheme α} {c : Command α} (hc : spares name c) :
    Respects name (fun t => t.extents = s.extents) c := by
  refine ⟨(respects_frozen (s := s) hc).stays, ?_⟩
  rintro command rfl p t ht
  refine ((Scheme.effect_step command p t).extents_eq ?_).trans ht
  rintro key rfl
  exact of_decide_eq_true hc rfl

/-- Let components be declared in any order, other commands and refused ones among them. The current
    problem has the components that were accepted, no two of a kind under one name, and a refused
    declaration changes nothing. Let a scheme with variables be made for the problem, no list of
    components being longer than an index can count. In its tables the row of each component has the
    bounds that were declared for it, and with a built-in rule it has a grid. As long as no other
    scheme is put under its name, no variables of it are deleted and the names of its problem stay
    as they are, every vector of its length is read as a solution if there is a grid, and the name
    of each component stands for its numbers there. -/
theorem declarations_stay_matched (configured : Option String) (commands : List (Command α))
    (hw : w = after commands (start configured)) :
    w.currentProblem.components = declared commands ∧ (declared commands).Distinct ∧
    (∀ kind name bounds initial final fault w',
      run (addComponent kind name bounds initial final) w = .error fault w' → w' = w) ∧
    ((∀ kind, (declared commands kind).length ≤ 0x8000000000000000) →
      ∀ name choice reply w₀, choice.hasVariables →
        run (.scheme name (.create choice)) w = .ok reply w₀ →
          ∃ s, w₀.schemes.lookup name = some ⟨w.current, s⟩ ∧
            s.BoundsDeclared (declared commands) s.gridPoints ∧
            (∀ (b : BuiltIn) mesh, choice = b.choice mesh → s.grid.isSome) ∧
            ∀ later, (∀ c ∈ later, spares name c) →
              ((after later w₀).problem w.current).names = w.currentProblem.names →
                ∃ t, (after later w₀).schemes.lookup name = some ⟨w.current, t⟩ ∧
                  t.extents = s.extents ∧
                  t.DecodesVectors ((after later w₀).problem w.current) (declared commands)
                    s.gridPoints) := by
  have hcomponents : w.currentProblem.components = declared commands := by
    rw [hw, components_after]
  have hdistinct := distinct_declared commands
  refine ⟨hcomponents, hdistinct, fun kind name bounds initial final fault w' h =>
    eq_of_addComponent_refused h, fun hcount name choice reply w₀ hvariables hcreate => ?_⟩
  have hindexable : w.currentProblem.Indexable := fun kind => hcomponents ▸ hcount kind
  obtain ⟨s, hs, hnamed⟩ := created_of_run hcreate
  obtain ⟨rule, gridPoints, grid, hmade⟩ := Scheme.createVariables_of_createScheme hs hvariables
  obtain ⟨derivatives, slacks, -, -, hgridPoints, hextents, hbounds⟩ :=
    Scheme.hasBounds_of_createVariables hindexable hmade
  change s.gridPoints = gridPoints at hgridPoints
  subst hgridPoints
  refine ⟨s, hnamed, hcomponents ▸ hbounds.boundsDeclared, ?_, fun later hlater hnames => ?_⟩
  · rintro b mesh rfl
    rw [BuiltIn.createScheme_choice] at hs
    obtain ⟨points, hpoints⟩ := BuiltIn.exists_mesh hs
    rw [(BuiltIn.fresh hpoints hs).grid]
    rfl
  -- later commands may write bounds and grids, but the variables keep their sizes
  have hbefore : UnderName name w.current (fun t => t.extents = s.extents) w₀ :=
    ⟨_, hnamed, rfl, rfl⟩
  obtain ⟨⟨n, t⟩, hlookup, rfl, ht⟩ :=
    hbefore.after fun c hc => respects_extents (hlater c hc)
  refine ⟨t, hlookup, ht, ?_⟩
  rw [← hcomponents] at hdistinct ⊢
  exact Scheme.decodesVectors (ht.trans hextents) hindexable hdistinct hnames

open Extended

/-- Two states, a control and a parameter. Another state of a name that is taken is refused, and so
    is a parameter between crossed bounds. -/
def declareCart : List (Command (Extended ℚ)) :=
  [addComponent .state "x" (.list [.whole 0, .whole 3]) (.list [.whole 0]) .null,
    addComponent .control "u" .null .null .null,
    addComponent .state "x" .null .null .null,
    addComponent .parameter "m" (.list [.whole 2, .whole 1]) .null .null,
    addComponent .parameter "m" (.list [.whole 1, .whole 2]) .null .null,
    addComponent .state "v" .null .null (.list [.whole 1])]

/-- What is done to a scheme for the cart before it is solved. -/
def prepareCart : List (Command (Extended ℚ)) :=
  [.problem (.setDynamics (.stacked [.name "u", .name "u"])), .scheme "s" .transcribe]

theorem declarations_stay_matched_cart :
    ∃ fault reply w₀ s t u,
      run (addComponent .state "x" .null .null .null) (after declareCart (start none)) =
        .error fault (after declareCart (start none)) ∧
      run (.scheme "s" (.create (.trapezoidal (.whole 2)))) (after declareCart (start none)) =
        .ok reply w₀ ∧
      w₀.schemes.lookup "s" = some ⟨0, s⟩ ∧
      s.boundsAt .states 1 1 = some (finite 1, finite 1) ∧
      (after prepareCart w₀).schemes.lookup "s" = some ⟨0, t⟩ ∧
      t.solutionOf ((after prepareCart w₀).problem 0)
        ⟨#[0, 1, 10, 11, 20, 21, 5, 6, 7].map finite, []⟩ = .ok u ∧
      u.namedRow .states .states "v" = .ok (.vector (#[11, 21].map finite)) ∧
      u.namedRow .controls .controls "u" = .ok (.vector (#[5, 6].map finite)) ∧
      u.namedParameter "m" = .ok (finite 7) := by
  have hmade : endsIn
      (fun w₀ => ((after prepareCart w₀).problem 0).names =
          (after declareCart (start none)).currentProblem.names &&
        ((w₀.schemes.lookup "s").any fun owned => owned.scheme.gridPoints = 2 &&
          Layout.length owned.scheme.extents = 9) &&
        ((after prepareCart w₀).schemes.lookup "s").any fun owned => owned.scheme.grid.isSome)
      (run (.scheme "s" (.create (.trapezoidal (.whole 2))))
        (after declareCart (start none))) := by
    decide +kernel
  have hstate : ((declared declareCart .state)[1]?).any fun c => c.name = "v" &&
      (c.boundsOn 2 1).toPair = (finite 1, finite 1) := by
    decide +kernel
  have hcontrol : ((declared declareCart .control)[0]?).any fun c => c.name = "u" := by
    decide +kernel
  have hparameter : ((declared declareCart .parameter)[0]?).any fun c => c.name = "m" := by
    decide +kernel
  have hcount : ∀ kind, (declared declareCart kind).length ≤ 0x8000000000000000 := by
    intro kind
    cases kind <;> decide +kernel
  have hspares : ∀ c ∈ prepareCart, spares "s" c := by decide
  obtain ⟨-, -, hunchanged, hschemes⟩ := declarations_stay_matched none declareCart rfl
  obtain ⟨fault, w', hrefused⟩ : ∃ fault w', run (addComponent .state "x" .null .null .null)
      (after declareCart (start none)) = .error fault w' := by
    rw [run_addComponent]
    exact ⟨_, _, rfl⟩
  cases hunchanged _ _ _ _ _ _ _ hrefused
  -- the scheme right after it was made
  obtain ⟨reply, w₀, hcreate, hends⟩ := exists_of_endsIn hmade
  simp only [Bool.and_eq_true, decide_eq_true_iff] at hends
  obtain ⟨⟨hnames, hbefore⟩, hafter⟩ := hends
  obtain ⟨s, hnamed, hbounds, -, hvectors⟩ := hschemes hcount "s" _ _ _ rfl hcreate
  obtain ⟨owned, howned, hsizes⟩ := (Option.any_eq_true _ _).mp hbefore
  cases hnamed.symm.trans howned
  simp only [Bool.and_eq_true, decide_eq_true_iff] at hsizes
  -- the scheme when it is solved
  obtain ⟨t, hnamed', hextents, hdecodes⟩ := hvectors prepareCart hspares hnames
  obtain ⟨owned', howned', hgrid⟩ := (Option.any_eq_true _ _).mp hafter
  cases hnamed'.symm.trans howned'
  obtain ⟨hexists, hall⟩ := hdecodes (#[0, 1, 10, 11, 20, 21, 5, 6, 7].map finite) []
    (by simp [hextents, hsizes.2])
  obtain ⟨u, hu⟩ := hexists hgrid
  have hdecoded := hall u hu
  rw [hsizes.1] at hdecoded hbounds
  obtain ⟨v, hv, hvname⟩ := (Option.any_eq_true _ _).mp hstate
  obtain ⟨c, hc, hcname⟩ := (Option.any_eq_true _ _).mp hcontrol
  obtain ⟨m, hm, hmname⟩ := (Option.any_eq_true _ _).mp hparameter
  simp only [Bool.and_eq_true, decide_eq_true_iff] at hvname hcname hmname
  refine ⟨fault, reply, w₀, s, t, u, hrefused, hcreate, hnamed, ?_, hnamed', hu, ?_, ?_, ?_⟩
  · rw [← hvname.2]
    exact hbounds.alongGrid .state (by decide) 1 v hv 1
  · rw [← hvname.1, hdecoded.states 1 v hv]
    refine congrArg (Except.ok ∘ Tensor.vector) ?_
    decide +kernel
  · rw [← hcname, hdecoded.controls 0 c hc]
    refine congrArg (Except.ok ∘ Tensor.vector) ?_
    decide +kernel
  · rw [← hmname, hdecoded.parameters 0 m hm]
    exact congrArg Except.ok (by decide +kernel)

end Workspace
end Collocation
