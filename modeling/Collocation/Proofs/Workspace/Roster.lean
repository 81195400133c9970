import Collocation.Proofs.Workspace.Steps

/-! # Declared components

  Components are declared one after the other, and a declaration that is refused changes nothing. So
  what the current problem has of a kind are the components that were declared for it and accepted,
  in their order, whatever else was done in between; and no two of them have one name. -/

namespace Collocation

variable {α : Type}

/-! ## Rosters -/

/-- The components of each kind in the order of their declarations. -/
abbrev Roster (α : Type) := ComponentKind → List (Component α)

namespace Roster

variable {r : Roster α}

/-- A component is entered behind those of its kind, unless one of them has its name. -/
def enlist (r : Roster α) (kind : ComponentKind) (c : Component α) : Roster α := fun other =>
  if other = kind ∧ c.name ∉ (r other).map (·.name) then r other ++ [c] else r other

/-- The components of a kind have names of their own. -/
def Distinct (r : Roster α) : Prop := ∀ kind, ((r kind).map (·.name)).Nodup

theorem distinct_empty : Distinct (fun _ => [] : Roster α) := fun _ => List.nodup_nil

theorem Distinct.enlist (hr : r.Distinct) (kind : ComponentKind) (c : Component α) :
    (r.enlist kind c).Distinct := by
  intro other
  unfold Roster.enlist
  by_cases hentered : other = kind ∧ c.name ∉ (r other).map (·.name)
  · rw [if_pos hentered, List.map_append, List.map_singleton]
    refine List.nodup_append.mpr ⟨hr other, by simp, ?_⟩
    rintro name hname _ hsingle rfl
    exact hentered.2 (List.mem_singleton.mp hsingle ▸ hname)
  · rw [if_neg hentered]
    exact hr other

end Roster

namespace Problem

variable {p p' : Problem α} {kind : ComponentKind} {c : Component α}

theorem components_setComponents (p : Problem α) (kind : ComponentKind) (cs : List (Component α))
    (other : ComponentKind) :
    (p.setComponents kind cs).components other =
      if other = kind then cs else p.components other := by
  cases kind <;> cases other <;> rfl

theorem components_congr (hstates : p'.states = p.states) (hcontrols : p'.controls = p.controls)
    (hmultipliers : p'.multipliers = p.multipliers) (hparameters : p'.parameters = p.parameters) :
    p'.components = p.components := by
  funext kind
  cases kind with
  | state => exact hstates
  | control => exact hcontrols
  | multiplier => exact hmultipliers
  | parameter => exact hparameters

theorem components_of_addComponent (h : p.addComponent kind c = .ok p') :
    p'.components = Roster.enlist p.components kind c := by
  unfold addComponent at h
  by_cases htaken : (p.components kind).any fun other => other.name = c.name
  · rw [if_pos htaken] at h
    cases h
  · rw [if_neg htaken] at h
    cases h
    funext other
    rw [components_setComponents, Roster.enlist]
    by_cases hkind : other = kind
    · subst hkind
      have hfresh : c.name ∉ (p.components other).map (·.name) := by simpa using htaken
      rw [if_pos rfl, if_pos ⟨rfl, hfresh⟩]
    · rw [if_neg hkind, if_neg fun hentered => hkind hentered.1]

theorem enlist_of_addComponent {fault : Fault α} (h : p.addComponent kind c = .error fault) :
    Roster.enlist p.components kind c = p.components := by
  unfold addComponent at h
  by_cases htaken : (p.components kind).any fun other => other.name = c.name
  · funext other
    rw [Roster.enlist, if_neg]
    rintro ⟨rfl, hfresh⟩
    simp only [List.any_eq_true, decide_eq_true_iff] at htaken
    obtain ⟨taken, hmem, hname⟩ := htaken
    exact hfresh (hname ▸ List.mem_map_of_mem hmem)
  · rw [if_neg htaken] at h
    cases h

end Problem

variable [Number α]

/-- The component that is declared by a call, unless its bounds are refused. -/
def readComponent (kind : ComponentKind) (name : String) (bounds initial final : Literal α) :
    Except (Fault α) (Component α) := do
  let bounds ← Workspace.readBounds bounds
  let (initial, final) ← Workspace.readEndBounds kind initial final
  return ⟨name, bounds, initial, final⟩

/-- The components of the current problem after a command. A new problem has none. -/
def Roster.step (r : Roster α) : Command α → Roster α
  | .newProblem _ => fun _ => []
  | .problem (.addComponent kind name bounds initial final) =>
    match readComponent kind name bounds initial final with
    | .ok c => r.enlist kind c
    | .error _ => r
  | _ => r

theorem Roster.step_addComponent (r : Roster α) (kind : ComponentKind) (name : String)
    (bounds initial final : Literal α) :
    r.step (.problem (.addComponent kind name bounds initial final)) =
      match readComponent kind name bounds initial final with
      | .ok c => r.enlist kind c
      | .error _ => r := rfl

/-- The components that commands declare for the problem that is the current one after them. -/
def declared (commands : List (Command α)) : Roster α := commands.foldl Roster.step fun _ => []

theorem Roster.Distinct.step {r : Roster α} (hr : r.Distinct) (c : Command α) :
    (r.step c).Distinct := by
  unfold Roster.step
  split
  · exact distinct_empty
  · split
    · exact hr.enlist _ _
    · exact hr
  · exact hr

theorem Roster.Distinct.foldl {r : Roster α} (hr : r.Distinct) (commands : List (Command α)) :
    Distinct (commands.foldl Roster.step r) := by
  induction commands generalizing r with
  | nil => exact hr
  | cons c commands ih => exact ih (hr.step c)

/-- However names are declared, none is declared twice for a kind. -/
theorem distinct_declared (commands : List (Command α)) : (declared commands).Distinct :=
  Roster.distinct_empty.foldl commands

namespace Workspace

variable {w w' : Workspace α} {kind : ComponentKind} {name : String}
  {bounds initial final : Literal α}

/-! ## One declaration -/

/-- The call that declares a component. -/
abbrev addComponent (kind : ComponentKind) (name : String) (bounds initial final : Literal α) :
    Command α := .problem (.addComponent kind name bounds initial final)

/-- The workspace with another problem in the place of the current one. -/
def withCurrent (w : Workspace α) (p : Problem α) : Workspace α :=
  { w with problems := w.problems.setIfInBounds w.current p }

omit [Number α] in
theorem currentProblem_withCurrent (hw : w.current < w.problems.size) (p : Problem α) :
    (w.withCurrent p).currentProblem = p := by
  simp [withCurrent, currentProblem, problem, Array.getD_eq_getD_getElem?, hw]

omit [Number α] in
theorem run_declare (w : Workspace α) (change : Problem α → Except (Fault α) (Problem α)) :
    declare change w =
      match change w.currentProblem with
      | .ok p => .ok (.dimensions (w.withCurrent p).currentProblem) (w.withCurrent p)
      | .error fault => .error fault w := by
  unfold declare changeProblem
  cases h : change w.currentProblem with
  | error fault =>
    apply run_error_bind
    rw [run_get_bind, h]
    rfl
  | ok p =>
    apply run_ok_bind
    rw [run_get_bind, h]
    rfl

/-- A declaration changes the current problem, or it is refused and changes nothing. -/
theorem run_addComponent (w : Workspace α) (kind : ComponentKind) (name : String)
    (bounds initial final : Literal α) :
    run (addComponent kind name bounds initial final) w =
      match readComponent kind name bounds initial final >>= w.currentProblem.addComponent kind with
      | .ok p => .ok (.dimensions (w.withCurrent p).currentProblem) (w.withCurrent p)
      | .error fault => .error fault w := by
  unfold run runProblem readComponent
  simp only
  rw [run_get_bind]
  cases readBounds bounds with
  | error fault => rfl
  | ok bounds' =>
    cases readEndBounds kind initial final with
    | error fault => rfl
    | ok ends => exact run_declare w _

theorem eq_of_addComponent_refused {fault : Fault α}
    (h : run (addComponent kind name bounds initial final) w = .error fault w') : w' = w := by
  rw [run_addComponent] at h
  cases hadd : readComponent kind name bounds initial final >>=
      w.currentProblem.addComponent kind with
  | ok p =>
    rw [hadd] at h
    cases h
  | error fault =>
    rw [hadd] at h
    cases h
    rfl

/-- After a declaration the components are those of the roster. -/
theorem components_addComponent (hw : w.current < w.problems.size) (kind : ComponentKind)
    (name : String) (bounds initial final : Literal α) :
    (stateOf (run (addComponent kind name bounds initial final) w)).currentProblem.components =
      Roster.step w.currentProblem.components (addComponent kind name bounds initial final) := by
  rw [run_addComponent, Roster.step_addComponent]
  cases readComponent kind name bounds initial final with
  | error fault => rfl
  | ok c =>
    show Problem.components (currentProblem (stateOf
      (match w.currentProblem.addComponent kind c with
      | .ok p => .ok (Reply.dimensions (w.withCurrent p).currentProblem) (w.withCurrent p)
      | .error fault => .error fault w))) = Roster.enlist w.currentProblem.components kind c
    cases hadd : w.currentProblem.addComponent kind c with
    | error fault => exact (Problem.enlist_of_addComponent hadd).symm
    | ok p =>
      show (w.withCurrent p).currentProblem.components = _
      rw [currentProblem_withCurrent hw, Problem.components_of_addComponent hadd]

/-! ## Every command -/

variable {c : Command α}

omit [Number α] in
theorem SameWork.currentProblem_eq (h : SameWork w w') : w'.currentProblem = w.currentProblem := by
  rw [currentProblem, problem, h.problems, h.current, currentProblem, problem]

/-- The current problem is one of the problems. -/
theorem Step.current_lt (h : Step w c w') (hw : w.current < w.problems.size) :
    w'.current < w'.problems.size := by
  cases h with
  | newProblem h =>
    rw [h.problems, h.current]
    simp
  | declared hchange h =>
    rw [h.problems, h.current]
    simpa using hw
  | kept h | created hcreate h | worked hnamed h =>
    rw [h.problems, h.current]
    exact hw

/-- Commands on the current problem keep its components, apart from declarations. -/
theorem components_of_change {p p' : Problem α} {command : ProblemCommand α}
    (h : command.change p = .ok p')
    (hother : ∀ kind name bounds initial final,
      command ≠ .addComponent kind name bounds initial final) : p'.components = p.components := by
  cases command with
  | addComponent kind name bounds initial final => exact absurd rfl (hother _ _ _ _ _)
  | setTimes initial final =>
    obtain ⟨_, -, h⟩ := bind_eq_ok h
    obtain ⟨_, -, h⟩ := bind_eq_ok h
    cases h
    exact Problem.components_congr rfl rfl rfl rfl
  | setDerivatives count bounds =>
    obtain ⟨_, -, h⟩ := bind_eq_ok h
    obtain ⟨_, -, h⟩ := bind_eq_ok h
    cases h
    exact Problem.components_congr rfl rfl rfl rfl
  | setSlacks count =>
    obtain ⟨_, -, h⟩ := bind_eq_ok h
    cases h
    exact Problem.components_congr rfl rfl rfl rfl
  | editConstraint family index edit =>
    obtain ⟨_, -, h⟩ := bind_eq_ok h
    cases h
    cases family <;> exact Problem.components_congr rfl rfl rfl rfl
  | addConstraint family constraint | addCost family cost =>
    cases h
    cases family <;> exact Problem.components_congr rfl rfl rfl rfl
  | _ =>
    cases h
    exact Problem.components_congr rfl rfl rfl rfl

/-- After every command the current problem has the components that the roster has then. -/
theorem components_run (hw : w.current < w.problems.size) (c : Command α) :
    (stateOf (run c w)).currentProblem.components = Roster.step w.currentProblem.components c := by
  have hstep := step_run c w
  cases c with
  | newProblem name =>
    have hnew : (stateOf (run (.newProblem name) w)).currentProblem =
        { name := name.getD "problem" } := by
      show (w.problems.push { name := name.getD "problem" }).getD w.problems.size _ = _
      simp [Array.getD_eq_getD_getElem?]
    rw [hnew]
    funext kind
    cases kind <;> rfl
  | problem command =>
    cases command with
    | addComponent kind name bounds initial final =>
      exact components_addComponent hw kind name bounds initial final
    | _ =>
      cases hstep with
      | kept h =>
        rw [h.currentProblem_eq]
        rfl
      | declared hchange h =>
        rw [h.currentProblem_eq]
        show (w.withCurrent _).currentProblem.components = _
        rw [currentProblem_withCurrent hw, components_of_change hchange (by simp)]
        rfl
  | settings configured fields | trajectory name command =>
    cases hstep with
    | kept h =>
      rw [h.currentProblem_eq]
      rfl
  | scheme name command =>
    cases hstep with
    | kept h | created hcreate h | worked hnamed h =>
      rw [h.currentProblem_eq]
      rfl

theorem components_foldl (hw : w.current < w.problems.size) (commands : List (Command α)) :
    (after commands w).currentProblem.components =
      commands.foldl Roster.step w.currentProblem.components := by
  induction commands generalizing w with
  | nil => rfl
  | cons c commands ih =>
    rw [after, ih ((step_run c w).current_lt hw), components_run hw, List.foldl_cons]

/-- The current problem has the components that were declared for it. -/
theorem components_after (configured : Option String) (commands : List (Command α)) :
    (after commands (start configured)).currentProblem.components = declared commands := by
  have hnone : (start configured : Workspace α).currentProblem.components = fun _ => [] := by
    funext kind
    cases kind <;> rfl
  rw [components_foldl (by simp [start]), hnone, declared]

end Workspace
end Collocation
