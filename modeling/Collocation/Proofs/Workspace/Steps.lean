import Collocation.Proofs.Invariants
import Collocation.Workspace.Run

/-! # Steps of a workspace

  What a command can do to the problems and to the schemes of a workspace. It changes the current
  problem, or makes a new one; it makes a scheme for the current problem, or runs one step on the
  scheme that it names; or it leaves problems and schemes alone, as every command does that is
  refused before it writes. A property of all problems and all schemes that each of these steps
  keeps holds after every sequence of commands. -/

namespace Collocation

variable {α β : Type}

/-! ## Problems and schemes left alone -/

namespace Workspace

variable {w w' w₁ : Workspace α} {name : String}

/-- The workspaces have the same problems and the same schemes. -/
structure SameWork (w w' : Workspace α) : Prop where
  problems : w'.problems = w.problems
  current : w'.current = w.current
  schemes : w'.schemes = w.schemes

theorem SameWork.refl (w : Workspace α) : SameWork w w := ⟨rfl, rfl, rfl⟩

theorem SameWork.trans (h : SameWork w w₁) (h' : SameWork w₁ w') : SameWork w w' :=
  ⟨h'.problems.trans h.problems, h'.current.trans h.current, h'.schemes.trans h.schemes⟩

theorem keeps_trajectory : Keeps (SameWork w) (trajectory name) :=
  .read fun _ h => Keeps.attempt _ _ h

theorem keeps_putTrajectory {t : Trajectory α} : Keeps (SameWork w) (putTrajectory name t) :=
  .modify fun _ h => ⟨h.problems, h.current, h.schemes⟩

theorem keeps_scheme : Keeps (SameWork w) (scheme name) := by
  refine .read fun w₁ h => ?_
  exact (Keeps.attempt _).bind (fun _ => .pure _) w₁ h

theorem keeps_enterTrajectory {t : Trajectory α} : Keeps (SameWork w) (enterTrajectory name t) :=
  keeps_putTrajectory.bind fun _ => .attempt _

theorem keeps_changeTrajectory {change : Trajectory α → Except (Fault α) (Trajectory α)} :
    Keeps (SameWork w) (changeTrajectory name change) :=
  keeps_trajectory.bind fun _ => (Keeps.attempt _).bind fun _ => keeps_enterTrajectory

end Workspace

variable [Number α]

/-! ## What a command changes -/

/-- The current problem as a command declares it, unless the command is refused. -/
def ProblemCommand.change (p : Problem α) : ProblemCommand α → Except (Fault α) (Problem α)
  | .setTimes initial final => do
    let initial ← Workspace.readBounds initial
    let final ← Workspace.readBounds final
    return { p with initialTime := initial, finalTime := final }
  | .addComponent kind name bounds initial final => do
    let bounds ← Workspace.readBounds bounds
    let (initial, final) ← Workspace.readEndBounds kind initial final
    p.addComponent kind ⟨name, bounds, initial, final⟩
  | .setDerivatives count bounds => do
    let bounds ← Workspace.readBounds bounds
    p.setDerivatives count bounds
  | .setSlacks count => p.setSlacks count
  | .setDynamics body => .ok { p with dynamics := some body }
  | .setQuadratureError body count =>
    .ok { p with quadratureError := some body, quadratureErrorCount := count }
  | .addCost kind cost => .ok (p.addCost kind cost)
  | .addConstraint family c => .ok (p.addConstraint family c)
  | .editConstraint family index edit => p.editConstraint family index edit.apply
  | _ => .ok p

/-- What a command does to a scheme for a problem; most commands only look at it. -/
def SchemeCommand.step (p : Problem α) : SchemeCommand α → Building α Unit
  | .setGrid grid => do
    let grid ← attempt (Workspace.readArray grid)
    modify fun s => { s with grid := grid, gridLocked := false }
  | .setGridElement index value => Workspace.setGridElement index value
  | .transcribe => Scheme.transcribe p
  | .setBounds key rows cols bounds => do
    let bounds ← attempt (Workspace.readBounds bounds)
    Scheme.writeBounds (← attempt (Key.ofLiteral key)) rows cols bounds
  | .setBoundElement side key row col value => do
    Scheme.writeBound side (← attempt (Key.ofLiteral key)) [row, col] value
  | .replaceBounds side key value => do
    let value ← attempt (Workspace.readArray value)
    Scheme.replaceBounds side (← attempt (Key.ofLiteral key)) value
  | .deleteVariables key => do
    Scheme.eraseVariables (← attempt (Key.ofLiteral key))
  | .addConstraints lower upper equations => Scheme.appendBody lower upper equations
  | .setObjective objective => Scheme.replaceObjective objective
  | .evaluateDynamics index channels withError _ => do
    let _ ← Scheme.differentialEquations p index channels withError
  | _ => pure ()

namespace Workspace

variable {w w' w₁ : Workspace α} {c : Command α} {name : String}

/-- What a command does to the problems and schemes of a workspace. -/
inductive Step (w : Workspace α) : Command α → Workspace α → Prop
  /-- Problems and schemes are left alone. -/
  | kept {c : Command α} {w' : Workspace α} (h : SameWork w w') : Step w c w'
  | newProblem {name : Option String} {w' : Workspace α}
      (h : SameWork { w with
        problems := w.problems.push { name := name.getD "problem" },
        current := w.problems.size } w') :
      Step w (.newProblem name) w'
  | declared {command : ProblemCommand α} {p : Problem α} {w' : Workspace α}
      (hchange : command.change w.currentProblem = .ok p)
      (h : SameWork { w with problems := w.problems.setIfInBounds w.current p } w') :
      Step w (.problem command) w'
  | created {name : String} {choice : SchemeChoice α} {s : Scheme α} {w' : Workspace α}
      (hcreate : createScheme w.settings w.currentProblem choice = .ok s)
      (h : SameWork { w with schemes := enter w.schemes name ⟨w.current, s⟩ } w') :
      Step w (.scheme name (.create choice)) w'
  /-- A step runs on the scheme of a name, for the scheme's own problem. -/
  | worked {name : String} {command : SchemeCommand α} {owned : OwnedScheme α}
      {w' : Workspace α} (hnamed : w.schemes.lookup name = some owned)
      (h : SameWork { w with
        schemes := enter w.schemes name { owned with
          scheme := stateOf (command.step (w.problem owned.problem) owned.scheme) } } w') :
      Step w (.scheme name command) w'

theorem Step.trans_sameWork (h : Step w c w₁) (h' : SameWork w₁ w') : Step w c w' := by
  cases h with
  | kept h => exact .kept (h.trans h')
  | newProblem h => exact .newProblem (h.trans h')
  | declared hchange h => exact .declared hchange (h.trans h')
  | created hcreate h => exact .created hcreate (h.trans h')
  | worked hnamed h => exact .worked hnamed (h.trans h')

/-- What follows a step and keeps problems and schemes does not matter to it. -/
theorem Step.bind {a : Session α β} {γ : Type} {f : β → Session α γ}
    (h : Step w c (stateOf (a w))) (hf : ∀ v w₁, Keeps (SameWork w₁) (f v)) :
    Step w c (stateOf ((a >>= f) w)) := by
  apply stateOf_bind h
  intro v w₁ hw₁
  rw [hw₁] at h
  exact h.trans_sameWork (hf v w₁ w₁ (.refl w₁))

/-! ## Commands that keep problems and schemes -/

theorem keeps_readVector {x : VectorSource α} : Keeps (SameWork w) (readVector x) := by
  cases x with
  | elements l => exact .attempt _
  | trajectory name => exact keeps_trajectory.bind fun _ => .attempt _

theorem keeps_readColumns {x : VectorSource α} : Keeps (SameWork w) (readColumns x) := by
  cases x with
  | elements l =>
    refine (Keeps.attempt l.toTensor).bind fun t => ?_
    split
    · exact .pure _
    · exact .throw _
  | trajectory name =>
    exact keeps_trajectory.bind fun _ => (Keeps.attempt _).bind fun _ => .pure _

theorem keeps_readTimes {times : TimesSource α} : Keeps (SameWork w) (readTimes times) := by
  cases times with
  | elements l => exact .attempt _
  | trajectory name => exact keeps_trajectory.bind fun _ => .pure _

theorem keeps_runTrajectory (command : TrajectoryCommand α) :
    Keeps (SameWork w) (runTrajectory name command) := by
  cases command with
  | create choice => exact (Keeps.attempt _).bind fun _ => keeps_enterTrajectory
  | «show» => exact keeps_trajectory.bind fun _ => .attempt _
  | copy target =>
    exact keeps_trajectory.bind fun _ => (Keeps.attempt _).bind fun _ => keeps_enterTrajectory
  | resample times target =>
    exact keeps_readTimes.bind fun _ => keeps_trajectory.bind fun _ =>
      (Keeps.attempt _).bind fun _ => keeps_enterTrajectory
  | read what => exact keeps_trajectory.bind fun _ => .attempt _
  | setElement key index value => exact keeps_changeTrajectory
  | setTime index value => exact keeps_changeTrajectory
  | setVariable key value => exact keeps_changeTrajectory
  | setNames which value => exact keeps_changeTrajectory
  | appendName which value => exact keeps_changeTrajectory
  | flatten => exact keeps_trajectory.bind fun _ => (Keeps.attempt _).bind fun _ => .pure _

/-! ## Commands on problems -/

/-- A change of the current problem, and what is shown after it. -/
theorem step_changeProblem {command : ProblemCommand α}
    {change : Problem α → Except (Fault α) (Problem α)} {γ : Type} {f : PUnit → Session α γ}
    (hchange : command.change w.currentProblem = change w.currentProblem)
    (hf : ∀ v w₁, Keeps (SameWork w₁) (f v)) :
    Step w (.problem command) (stateOf ((changeProblem change >>= f) w)) := by
  refine Step.bind ?_ hf
  unfold changeProblem
  rw [run_get_bind]
  apply stateOf_attempt_bind (.kept (.refl w))
  intro p hp
  exact .declared (hchange.trans hp) (.refl _)

theorem step_runProblem (command : ProblemCommand α) :
    Step w (.problem command) (stateOf (runProblem command w)) := by
  have hkept : Step w (.problem command) w := .kept (.refl w)
  have hdone : ∀ (v : PUnit) w₁, Keeps (SameWork w₁) (pure .done : Session α (Reply α)) :=
    fun _ _ => .pure _
  have hshown : ∀ (v : PUnit) w₁, Keeps (SameWork w₁)
      (do return .dimensions (← get).currentProblem : Session α (Reply α)) :=
    fun _ _ => .read fun _ h => h
  unfold runProblem
  rw [run_get_bind]
  cases command with
  | setTimes initial final =>
    apply stateOf_attempt_bind hkept
    intro initial' hinitial
    apply stateOf_attempt_bind hkept
    intro final' hfinal
    refine step_changeProblem ?_ hdone
    simp only [ProblemCommand.change, hinitial, hfinal]
    rfl
  | addComponent kind name bounds initial final =>
    apply stateOf_attempt_bind hkept
    intro bounds' hbounds
    apply stateOf_attempt_bind hkept
    intro ends hends
    refine step_changeProblem ?_ hshown
    simp only [ProblemCommand.change, hbounds, hends]
    rfl
  | setDerivatives count bounds =>
    apply stateOf_attempt_bind hkept
    intro bounds' hbounds
    refine step_changeProblem ?_ hshown
    simp only [ProblemCommand.change, hbounds]
    rfl
  | setSlacks count => exact step_changeProblem rfl hshown
  | setDynamics body => exact step_changeProblem rfl hdone
  | setQuadratureError body count => exact step_changeProblem rfl hshown
  | addCost kind cost => exact step_changeProblem rfl hdone
  | addConstraint family c => exact step_changeProblem rfl hshown
  | editConstraint family index edit => exact step_changeProblem rfl hdone
  | showDimensions => exact hkept
  | countPathEquations =>
    exact .kept ((Keeps.attempt _).bind (fun _ => .pure _) w (.refl w))
  | evaluate what args => exact .kept (Keeps.attempt _ w (.refl w))
  | constraintBounds family index size =>
    exact .kept ((Keeps.attempt _).bind (fun _ => .attempt _) w (.refl w))
  | createTrajectory trajectoryClass stats target =>
    exact .kept ((Keeps.attempt _).bind (fun _ => keeps_enterTrajectory) w (.refl w))

/-! ## Commands on schemes -/

omit [Number α] in
theorem lookup_of_named {entries : List (String × β)} {v : β}
    (h : named (α := α) entries name = .ok v) : entries.lookup name = some v := by
  unfold named at h
  split at h
  · next hv =>
    cases h
    exact hv
  · cases h

/-- An action on a scheme that ends where a command's step ends. -/
theorem step_onScheme {command : SchemeCommand α} {action : Problem α → Building α β}
    (h : ∀ p s, stateOf (action p s) = stateOf (command.step p s)) :
    Step w (.scheme name command) (stateOf (onScheme name action w)) := by
  unfold onScheme
  rw [run_get_bind]
  apply stateOf_attempt_bind (.kept (.refl w))
  intro owned howned
  have hnamed := lookup_of_named howned
  have hend := h (w.problem owned.problem) owned.scheme
  -- the scheme is entered again, as it was left, also where the action has failed
  cases hs : action (w.problem owned.problem) owned.scheme with
  | ok v s =>
    rw [hs] at hend
    refine .worked hnamed ?_
    rw [← hend]
    exact .refl _
  | error fault s =>
    rw [hs] at hend
    refine .worked hnamed ?_
    rw [← hend]
    exact .refl _

theorem step_runScheme (command : SchemeCommand α) :
    Step w (.scheme name command) (stateOf (runScheme name command w)) := by
  -- most commands look at the scheme and enter trajectories at most
  have hkept : ∀ {γ : Type} {f : Problem α × Scheme α → Session α γ},
      (∀ v, Keeps (SameWork w) (f v)) →
        Step w (.scheme name command) (stateOf ((scheme name >>= f) w)) :=
    fun hf => .kept ((keeps_scheme.bind hf) w (.refl w))
  have hreply : ∀ {δ : Type} {result : Except (Fault α) δ} {reply : δ → Reply α},
      Keeps (SameWork w) (do return reply (← attempt result) : Session α (Reply α)) :=
    (Keeps.attempt _).bind fun _ => .pure _
  cases command with
  | create choice =>
    unfold runScheme
    simp only
    rw [run_get_bind]
    apply stateOf_attempt_bind (.kept (.refl w))
    intro s hs
    exact .created hs (.refl _)
  | setGrid grid =>
    unfold runScheme
    refine step_onScheme fun p s => ?_
    apply stateOf_attempt_bind_congr
    intro grid' _
    rfl
  | setGridElement index value =>
    refine step_onScheme fun p s => stateOf_bind_of_reads ?_
    intro _ s
    unfold showGrid
    rw [run_get_bind]
    exact stateOf_bind_of_reads (fun _ _ => rfl) |>.trans (stateOf_attempt _ _)
  | showMesh => exact hkept fun _ => hreply
  | transcribe =>
    refine step_onScheme fun p s => stateOf_bind_of_reads ?_
    intro _ s
    rw [run_get_bind]
    exact stateOf_bind_of_reads (fun _ _ => rfl) |>.trans (stateOf_attempt _ _)
  | showStatus => exact hkept fun _ => .pure _
  | showQuadrature => exact hkept fun _ => hreply
  | showKinematic => exact hkept fun _ => hreply
  | createTimes initial final symbolic => exact hkept fun _ => hreply
  | showBounds key => exact hkept fun _ => .attempt _
  | setBounds key rows cols bounds =>
    unfold runScheme
    refine step_onScheme fun p s => ?_
    apply stateOf_attempt_bind_congr
    intro bounds' _
    apply stateOf_attempt_bind_congr
    intro key' _
    refine stateOf_bind_of_reads fun _ s => ?_
    rw [run_get_bind]
    exact stateOf_attempt _ _
  | setBoundElement side key row col value =>
    unfold runScheme
    refine step_onScheme fun p s => ?_
    apply stateOf_attempt_bind_congr
    intro key' _
    refine stateOf_bind_of_reads fun _ s => ?_
    rw [run_get_bind]
    exact stateOf_attempt _ _
  | replaceBounds side key value =>
    unfold runScheme
    refine step_onScheme fun p s => ?_
    apply stateOf_attempt_bind_congr
    intro value' _
    apply stateOf_attempt_bind_congr
    intro key' _
    exact stateOf_bind_of_reads fun _ _ => rfl
  | deleteVariables key =>
    unfold runScheme
    refine step_onScheme fun p s => ?_
    apply stateOf_attempt_bind_congr
    intro key' _
    exact stateOf_bind_of_reads fun _ _ => rfl
  | guess target =>
    exact hkept fun _ => (Keeps.attempt _).bind fun _ => keeps_enterTrajectory
  | random fractions target =>
    exact .kept (((Keeps.attempt _).bind fun _ => keeps_scheme.bind fun _ =>
      (Keeps.attempt _).bind fun _ => keeps_enterTrajectory) w (.refl w))
  | addConstraints lower upper equations =>
    exact step_onScheme fun p s => stateOf_bind_of_reads fun _ _ => rfl
  | setObjective objective =>
    exact step_onScheme fun p s => stateOf_bind_of_reads fun _ _ => rfl
  | evaluateObjective x =>
    exact hkept fun _ => (Keeps.attempt _).bind fun _ => keeps_readColumns.bind fun _ => hreply
  | showConstraints x =>
    apply hkept
    intro _
    cases x with
    | none => exact .pure _
    | some x =>
      exact (Keeps.attempt _).bind fun _ => keeps_readColumns.bind fun _ => hreply
  | evaluateDynamics index channels withError x =>
    apply Step.bind
    · exact step_onScheme fun p s => (stateOf_bind_of_reads fun _ _ => rfl).symm
    · intro _ w₁
      exact keeps_scheme.bind fun _ => (Keeps.attempt _).bind fun _ =>
        keeps_readColumns.bind fun _ => (Keeps.attempt _).bind fun _ =>
          (Keeps.attempt _).bind fun _ => .pure _
  | expand x => exact hkept fun _ => keeps_readVector.bind fun _ => hreply
  | solve guess target script =>
    exact hkept fun _ => keeps_trajectory.bind fun _ => (Keeps.attempt _).bind fun _ =>
      keeps_putTrajectory.bind fun _ => (Keeps.attempt _).bind fun _ =>
        (Keeps.attempt _).bind fun _ => hreply

/-! ## Every command -/

/-- However a command ends, it has taken one of the steps. -/
theorem step_run (c : Command α) (w : Workspace α) : Step w c (stateOf (run c w)) := by
  cases c with
  | newProblem name => exact .newProblem (.refl _)
  | settings configured fields =>
    apply stateOf_attempt_bind (.kept (.refl w))
    intro settings _
    exact .kept ⟨rfl, rfl, rfl⟩
  | problem command => exact step_runProblem command
  | scheme name command => exact step_runScheme command
  | trajectory name command => exact .kept (keeps_runTrajectory command w (.refl w))

/-! ## Entries -/

omit [Number α] in
theorem lookup_enter (entries : List (String × β)) (name other : String) (v : β) :
    (enter entries name v).lookup other = if other = name then some v else entries.lookup other := by
  unfold enter
  by_cases h : other = name
  · rw [if_pos h, h, List.lookup_cons_self]
  · have hskip : ∀ rest : List (String × β),
        ((name, v) :: rest).lookup other = rest.lookup other := by
      intro rest
      rw [List.lookup_cons, beq_eq_false_iff_ne.mpr h]
    rw [if_neg h, hskip]
    -- the entries that are taken out are not looked up
    induction entries with
    | nil => rfl
    | cons entry entries ih =>
      by_cases hentry : entry.1 = name
      · have hne : (other == entry.1) = false := beq_eq_false_iff_ne.mpr fun he => h (he.trans hentry)
        rw [List.filter_cons_of_neg (by simp [hentry]), List.lookup_cons, hne]
        exact ih
      · rw [List.filter_cons_of_pos (by simp [hentry]), List.lookup_cons, List.lookup_cons]
        split
        · rfl
        · exact ih

/-! ## Schemes under names -/

/-- The scheme under a name was there before the step, or the step has made it, or it has worked on
    the one that was there. -/
theorem Step.lookup (h : Step w c w') {owned : OwnedScheme α}
    (hnamed : w'.schemes.lookup name = some owned) :
    w.schemes.lookup name = some owned ∨
    (∃ choice s, c = .scheme name (.create choice) ∧
      createScheme w.settings w.currentProblem choice = .ok s ∧ owned = ⟨w.current, s⟩) ∨
    ∃ command old, c = .scheme name command ∧ w.schemes.lookup name = some old ∧
      owned = { old with
        scheme := stateOf (command.step (w.problem old.problem) old.scheme) } := by
  cases h with
  | kept h => exact .inl (h.schemes ▸ hnamed)
  | newProblem h => exact .inl (h.schemes ▸ hnamed)
  | declared hchange h => exact .inl (h.schemes ▸ hnamed)
  | @created other choice s _ hcreate h =>
    rw [h.schemes, lookup_enter] at hnamed
    split_ifs at hnamed with hname
    · cases hnamed
      subst hname
      exact .inr (.inl ⟨choice, s, rfl, hcreate, rfl⟩)
    · exact .inl hnamed
  | @worked other command old _ hold h =>
    rw [h.schemes, lookup_enter] at hnamed
    split_ifs at hnamed with hname
    · cases hnamed
      subst hname
      exact .inr (.inr ⟨command, old, rfl, hold, rfl⟩)
    · exact .inl hnamed

/-! ## Results -/

/-- A construction that ends well enters the scheme for the current problem. -/
theorem created_of_run {choice : SchemeChoice α} {reply : Reply α}
    (h : run (.scheme name (.create choice)) w = .ok reply w') :
    ∃ s, createScheme w.settings w.currentProblem choice = .ok s ∧
      w'.schemes.lookup name = some ⟨w.current, s⟩ := by
  unfold run runScheme at h
  simp only at h
  rw [run_get_bind] at h
  obtain ⟨s, hs, h⟩ := run_attempt_bind_eq_ok h
  cases h
  exact ⟨s, hs, by rw [lookup_enter, if_pos rfl]⟩

/-- A transcription that ends well was one of the scheme under the name. -/
theorem transcribed_of_run {reply : Reply α}
    (h : run (.scheme name .transcribe) w = .ok reply w') :
    ∃ owned s, w.schemes.lookup name = some owned ∧
      Scheme.transcribe (w.problem owned.problem) owned.scheme = .ok () s ∧
      w'.problems = w.problems ∧
      w'.schemes.lookup name = some { owned with scheme := s } := by
  unfold run runScheme onScheme at h
  simp only at h
  rw [run_get_bind] at h
  obtain ⟨owned, howned, h⟩ := run_attempt_bind_eq_ok h
  have hnamed := lookup_of_named howned
  cases hs : Scheme.transcribe (w.problem owned.problem) owned.scheme with
  | error fault s =>
    rw [run_error_bind hs] at h
    cases h
  | ok v s =>
    rw [run_ok_bind hs, run_get_bind] at h
    cases hgrid : s.gridVector with
    | error fault =>
      rw [hgrid] at h
      cases h
    | ok grid =>
      rw [hgrid] at h
      cases h
      exact ⟨owned, s, hnamed, hs, rfl, by rw [lookup_enter, if_pos rfl]⟩

/-- The command ends well, in a workspace that passes a check. -/
def endsIn (check : Workspace α → Bool) :
    EStateM.Result (Fault α) (Workspace α) (Reply α) → Bool
  | .ok _ w => check w
  | .error _ _ => false

omit [Number α] in
theorem exists_of_endsIn {check : Workspace α → Bool}
    {result : EStateM.Result (Fault α) (Workspace α) (Reply α)} (h : endsIn check result) :
    ∃ reply w, result = .ok reply w ∧ check w := by
  cases result with
  | ok reply w => exact ⟨reply, w, rfl, h⟩
  | error fault w => cases h

/-! ## Runs -/

/-- The workspace after commands, whether or not they are refused. -/
def after : List (Command α) → Workspace α → Workspace α
  | [], w => w
  | c :: commands, w => after commands (stateOf (run c w))

/-- Answers to later commands are those of the workspace after the earlier ones. -/
theorem runAll_append (commands later : List (Command α)) (w : Workspace α) :
    runAll (commands ++ later) w = runAll commands w ++ runAll later (after commands w) := by
  induction commands generalizing w with
  | nil => rfl
  | cons c commands ih =>
    cases hc : run c w with
    | ok reply w₁ => simp only [List.cons_append, runAll, after, hc, stateOf, ih]
    | error fault w₁ => simp only [List.cons_append, runAll, after, hc, stateOf, ih]

/-! ### One scheme -/

/-- Under the name there is a scheme of a problem, and it has a property. -/
def UnderName (name : String) (n : Nat) (Q : Scheme α → Prop) (w : Workspace α) : Prop :=
  ∃ owned, w.schemes.lookup name = some owned ∧ owned.problem = n ∧ Q owned.scheme

omit [Number α] in
/-- The command puts another scheme under the name. -/
def recreates (name : String) : Command α → Bool
  | .scheme other (.create _) => other = name
  | _ => false

/-- The command leaves the scheme under the name in its place, and what it does to it keeps the
    property. -/
structure Respects (name : String) (Q : Scheme α → Prop) (c : Command α) : Prop where
  stays : recreates name c = false
  keeps : ∀ command, c = .scheme name command → ∀ p, Keeps Q (command.step p)

variable {n : Nat} {Q : Scheme α → Prop}

theorem UnderName.step (hw : UnderName name n Q w) (hc : Respects name Q c) (h : Step w c w') :
    UnderName name n Q w' := by
  obtain ⟨owned, hnamed, hproblem, hQ⟩ := hw
  cases h with
  | kept h => exact ⟨owned, h.schemes ▸ hnamed, hproblem, hQ⟩
  | newProblem h => exact ⟨owned, h.schemes ▸ hnamed, hproblem, hQ⟩
  | declared hchange h => exact ⟨owned, h.schemes ▸ hnamed, hproblem, hQ⟩
  | created hcreate h =>
    refine ⟨owned, ?_, hproblem, hQ⟩
    have hother : name ≠ _ := Ne.symm (of_decide_eq_false hc.stays)
    rw [h.schemes, lookup_enter, if_neg hother]
    exact hnamed
  | @worked other command owned' _ hother h =>
    -- another scheme may have been worked on
    by_cases hname : name = other
    · subst hname
      cases hnamed.symm.trans hother
      have hkept := hc.keeps command rfl (w.problem owned.problem) owned.scheme hQ
      refine ⟨⟨owned.problem, stateOf (command.step (w.problem owned.problem) owned.scheme)⟩, ?_,
        hproblem, hkept⟩
      rw [h.schemes, lookup_enter, if_pos rfl]
    · refine ⟨owned, ?_, hproblem, hQ⟩
      rw [h.schemes, lookup_enter, if_neg hname]
      exact hnamed

theorem UnderName.after {commands : List (Command α)} (hw : UnderName name n Q w)
    (hcommands : ∀ c ∈ commands, Respects name Q c) : UnderName name n Q (after commands w) := by
  induction commands generalizing w with
  | nil => exact hw
  | cons c commands ih =>
    have hfirst := hw.step (hcommands c List.mem_cons_self) (step_run c w)
    exact ih hfirst fun c' hc' => hcommands c' (List.mem_cons_of_mem c hc')

/-! ### All problems and schemes -/

/-- Every problem has a property, and so has every scheme. -/
structure Holds (P : Problem α → Prop) (Q : Scheme α → Prop) (w : Workspace α) : Prop where
  problems : ∀ i, P (w.problem i)
  schemes : ∀ {name owned}, w.schemes.lookup name = some owned → Q owned.scheme

/-- What commands of a class declare, make and do keeps the properties. -/
structure Preserved (allowed : Command α → Prop) (P : Problem α → Prop) (Q : Scheme α → Prop) :
    Prop where
  undeclared : ∀ name, P { name := name }
  declared : ∀ {command p p'}, allowed (.problem command) → P p → command.change p = .ok p' → P p'
  created : ∀ {settings p choice s}, P p → createScheme settings p choice = .ok s → Q s
  worked : ∀ {name command p}, allowed (.scheme name command) → P p → Keeps Q (command.step p)

variable {allowed : Command α → Prop} {P : Problem α → Prop}

omit [Number α] in
theorem Holds.of_sameWork (hw : Holds P Q w) (h : SameWork w w') : Holds P Q w' := by
  constructor
  · intro i
    have hi : w'.problem i = w.problem i := by rw [problem, h.problems, problem]
    rw [hi]
    exact hw.problems i
  · intro name owned hnamed
    rw [h.schemes] at hnamed
    exact hw.schemes hnamed

omit [Number α] in
theorem Holds.enter {n : Nat} {s : Scheme α} (hw : Holds P Q w) (hs : Q s) :
    Holds P Q { w with schemes := enter w.schemes name ⟨n, s⟩ } := by
  refine ⟨hw.problems, ?_⟩
  intro other owned hnamed
  rw [lookup_enter] at hnamed
  split_ifs at hnamed
  · cases hnamed
    exact hs
  · exact hw.schemes hnamed

/-- A step keeps what the class of its command keeps. -/
theorem Holds.step (hpres : Preserved allowed P Q) (hc : allowed c) (hw : Holds P Q w)
    (h : Step w c w') : Holds P Q w' := by
  cases h with
  | kept h => exact hw.of_sameWork h
  | newProblem h =>
    refine Holds.of_sameWork (w := { w with problems := w.problems.push _, current := _ })
      ⟨fun i => ?_, hw.schemes⟩ h
    have hi := hw.problems i
    unfold problem at hi ⊢
    rw [Array.getD_eq_getD_getElem?] at hi ⊢
    rw [Array.getElem?_push]
    split_ifs
    · exact hpres.undeclared _
    · exact hi
  | @declared command p _ hchange h =>
    have hp : P p := hpres.declared hc (hw.problems w.current) hchange
    refine Holds.of_sameWork (w := { w with problems := w.problems.setIfInBounds _ _ })
      ⟨fun i => ?_, hw.schemes⟩ h
    have hi := hw.problems i
    unfold problem at hi ⊢
    rw [Array.getD_eq_getD_getElem?] at hi ⊢
    rw [Array.getElem?_setIfInBounds]
    split_ifs
    · exact hp
    · exact hpres.undeclared _
    · exact hi
  | created hcreate h =>
    exact (hw.enter (hpres.created (hw.problems w.current) hcreate)).of_sameWork h
  | @worked _ _ owned _ hnamed h =>
    have hstep := hpres.worked hc (hw.problems owned.problem)
    exact (hw.enter (hstep _ (hw.schemes hnamed))).of_sameWork h

/-- A run keeps what the class of its commands keeps. -/
theorem Holds.after {commands : List (Command α)} (hpres : Preserved allowed P Q)
    (hcommands : ∀ c ∈ commands, allowed c) (hw : Holds P Q w) : Holds P Q (after commands w) := by
  induction commands generalizing w with
  | nil => exact hw
  | cons c commands ih =>
    have hfirst := hw.step hpres (hcommands c List.mem_cons_self) (step_run c w)
    exact ih (fun c' hc' => hcommands c' (List.mem_cons_of_mem c hc')) hfirst

/-- A workspace without schemes whose only problem declares nothing. -/
theorem Holds.start (hpres : Preserved allowed P Q) (configured : Option String) :
    Holds P Q (start configured) := by
  refine ⟨fun i => ?_, fun hnamed => nomatch hnamed⟩
  cases i with
  | zero => exact hpres.undeclared _
  | succ i => exact hpres.undeclared _

end Workspace
end Collocation
