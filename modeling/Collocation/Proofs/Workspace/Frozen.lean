import Collocation.Proofs.Scheme.SharedLayout
import Collocation.Proofs.Scheme.WarmStart
import Collocation.Proofs.Workspace.SharedArrays

/-! # Frozen programs

  A scheme is closed by its transcription. What would change its program is refused from then on,
  and everything else that is done to the scheme, to its problem or beside them does not reach the
  variables, the equations and the objective. So whatever commands follow, the objective and the
  constraints have the values at every decision vector that they had right after the
  transcription.

  The bounds of the constraints stay as well, with one exception: a rule may bound its equations by
  an array of the scheme, and elements that are written into this array go into the program. -/

namespace Collocation

variable {α : Type} [Number α]

namespace Scheme

/-! ## Closed schemes -/

/-- A block without its bounds. -/
def Block.content (b : Block α) : Expr Kind α × Nat := (b.equations, b.size)

/-- The second scheme is closed and has the variables, the equations and the objective of the
    first. -/
structure FrozenAs (s s' : Scheme α) : Prop where
  transcribed : s'.transcribed = true
  extents : s'.extents = s.extents
  contents : s'.blocks.map Block.content = s.blocks.map Block.content
  objective : s'.objective = s.objective

variable {p : Problem α} {s s' t : Scheme α}

omit [Number α] in
theorem AgreesButBounds.frozenAs (h : t.AgreesButBounds s') (ht : s.FrozenAs t) :
    s.FrozenAs s' := by
  obtain ⟨_, _, _, _, rfl⟩ := h
  exact ⟨ht.transcribed, ht.extents, ht.contents, ht.objective⟩

omit [Number α] in
theorem AgreesButFunctions.frozenAs (h : t.AgreesButFunctions s') (ht : s.FrozenAs t) :
    s.FrozenAs s' := by
  obtain ⟨_, _, rfl⟩ := h
  exact ⟨ht.transcribed, ht.extents, ht.contents, ht.objective⟩

omit [Number α] in
theorem AgreesButGrid.frozenAs (h : t.AgreesButGrid s') (ht : s.FrozenAs t) : s.FrozenAs s' := by
  obtain ⟨_, _, rfl⟩ := h
  exact ⟨ht.transcribed, ht.extents, ht.contents, ht.objective⟩

/-- An array that is given up leaves its content as bounds with the same equations. -/
theorem FrozenAs.replaceBounds (ht : s.FrozenAs t) (which : Side) (key : Key α)
    (value : Option (Tensor α)) : s.FrozenAs (stateOf (replaceBounds which key value t)) := by
  have hreleased : s.FrozenAs (t.release which key) := by
    unfold release
    cases key.kind? with
    | none => exact ht
    | some k =>
      refine ⟨ht.transcribed, ht.extents, ?_, ht.objective⟩
      rw [← ht.contents, List.map_map]
      rfl
  unfold Scheme.replaceBounds
  rw [run_get_bind]
  cases value with
  | some value => exact (agreesButBounds_putBound _ which key value).frozenAs hreleased
  | none =>
    apply stateOf_attempt_bind ht
    intro _ _
    exact (agreesButBounds_eraseBound _ which key).frozenAs hreleased

/-! ## What a closed scheme refuses -/

omit [Number α] in
theorem checkMutable_frozen (h : t.transcribed = true) :
    (checkMutable : Building α Unit) t = .error .frozen t := by
  unfold checkMutable
  rw [run_get_bind, if_pos h]
  rfl

theorem append_frozen (h : t.transcribed = true) (lower upper : BoundVector α)
    (equations : Sized Kind α) : append lower upper equations t = .error .frozen t :=
  run_error_bind (checkMutable_frozen h)

/-- Arrays are looked up, and equations and an objective are built, before the scheme is asked
    whether it is closed. -/
theorem appendBody_frozen (h : t.transcribed = true) {lower upper : BoundSource α}
    {low high : Literal α} (hlower : t.handOver lower = .ok low)
    (hupper : t.handOver upper = .ok high) {body : Body α} {e : Sized Kind α}
    (hbody : t.buildBody body = .ok e) : appendBody lower upper body t = .error .frozen t := by
  unfold appendBody
  rw [run_get_bind]
  apply run_attempt_bind_of_ok hlower
  apply run_attempt_bind_of_ok hupper
  apply run_attempt_bind_of_ok hbody
  exact run_error_bind (checkMutable_frozen h)

theorem replaceObjective_frozen (h : t.transcribed = true) {body : Body α} {e : Sized Kind α}
    (hbody : t.buildBody body = .ok e) : replaceObjective body t = .error .frozen t := by
  unfold replaceObjective
  rw [run_get_bind]
  apply run_attempt_bind_of_ok hbody
  exact run_error_bind (checkMutable_frozen h)

theorem transcribe_frozen (h : t.transcribed = true) (p : Problem α) :
    transcribe p t = .error (.alreadyTranscribed t.rule.schemeName) t := by
  have hprepare : prepare p t = .error (.alreadyTranscribed t.rule.schemeName) t := by
    unfold prepare
    rw [run_get_bind, if_pos h]
    rfl
  exact run_error_bind hprepare

/-! ## One step -/

theorem appendBody_of_transcribed (h : t.transcribed = true) {lower upper : BoundSource α}
    {body : Body α} : stateOf (appendBody lower upper body t) = t := by
  unfold appendBody
  rw [run_get_bind]
  apply stateOf_attempt_bind (P := (· = t)) rfl
  intro low _
  apply stateOf_attempt_bind (P := (· = t)) rfl
  intro high _
  apply stateOf_attempt_bind (P := (· = t)) rfl
  intro e _
  rw [run_error_bind (checkMutable_frozen h)]
  rfl

theorem replaceObjective_of_transcribed (h : t.transcribed = true) {body : Body α} :
    stateOf (replaceObjective body t) = t := by
  unfold replaceObjective
  rw [run_get_bind]
  apply stateOf_attempt_bind (P := (· = t)) rfl
  intro e _
  rw [run_error_bind (checkMutable_frozen h)]
  rfl

/-- No step but the deletion of variables reaches the program of a closed scheme. -/
theorem FrozenAs.effect (ht : s.FrozenAs t) {command : SchemeCommand α} (h : Effect p t command s')
    (hspares : ∀ key, command ≠ .deleteVariables key) : s.FrozenAs s' := by
  cases h with
  | kept => exact ht
  | regridded h => exact h.frozenAs ht
  | gridElement hunlocked h => exact h.frozenAs ht
  | transcribed =>
    rw [transcribe_frozen ht.transcribed]
    exact ht
  | bounded hkey hbounds => exact (keeps_writeBounds t (.refl t)).frozenAs ht
  | boundElement hkey => exact (keeps_writeBound t (.refl t)).frozenAs ht
  | boundArray key' value' => exact ht.replaceBounds _ key' value'
  | deleted h => exact absurd rfl (hspares _)
  | appended =>
    rw [appendBody_of_transcribed ht.transcribed]
    exact ht
  | aimed =>
    rw [replaceObjective_of_transcribed ht.transcribed]
    exact ht
  | evaluated h => exact h.frozenAs ht

end Scheme

/-- The literal stands for the kind where a key is expected. -/
def Literal.names (k : Kind) (key : Literal α) : Bool :=
  match Key.ofLiteral key with
  | .ok key => key.kind? = some k
  | .error _ => false

/-- The command writes elements into the array of bounds. -/
def SchemeCommand.writesInto (a : BoundArray) : SchemeCommand α → Bool
  | .setBounds key _ _ _ => key.names a.kind
  | .setBoundElement side key _ _ _ => side = a.side && key.names a.kind
  | _ => false

namespace Scheme

variable {p : Problem α} {s s' t : Scheme α}

/-- Nor does a step reach the bounds of the constraints, unless it writes into an array that blocks
    of the scheme share. -/
theorem BoundedAs.effect (ht : s.FrozenAs t) (hbounds : s.BoundedAs t) {command : SchemeCommand α}
    (h : Effect p t command s') (hwrites : ∀ a, s.Shares a → command.writesInto a = false) :
    s.BoundedAs s' := by
  have hunwritten : ∀ a, t.Shares a → command.writesInto a = false :=
    fun a ha => hwrites a (hbounds.shared a ha)
  have hsame : t.blocks = s'.blocks → t.lower = s'.lower → t.upper = s'.upper → t.BoundedAs s' := by
    intro hblocks hlower hupper
    refine boundedAs_of_arrays hblocks.symm fun a _ => ?_
    unfold array?
    cases a.side
    · exact congrArg (·.find? a.kind) hlower.symm
    · exact congrArg (·.find? a.kind) hupper.symm
  refine hbounds.trans ?_
  cases h with
  | kept => exact .refl _
  | regridded h | gridElement hunlocked h =>
    obtain ⟨_, _, rfl⟩ := h
    exact hsame rfl rfl rfl
  | transcribed =>
    rw [transcribe_frozen ht.transcribed]
    exact .refl t
  | bounded hkey hread =>
    refine boundedAs_writeBounds fun a ha hkind => ?_
    exact absurd (hunwritten a ha) (by simp [SchemeCommand.writesInto, Literal.names, hkey, hkind])
  | boundElement hkey =>
    refine boundedAs_writeBound fun a ha hside hkind => ?_
    exact absurd (hunwritten a ha)
      (by simp [SchemeCommand.writesInto, Literal.names, hkey, hkind, hside])
  | boundArray key' value' => exact boundedAs_replaceBounds _ key' value'
  | deleted h =>
    obtain ⟨_, rfl, -⟩ := h
    exact hsame rfl rfl rfl
  | appended =>
    rw [appendBody_of_transcribed ht.transcribed]
    exact .refl t
  | aimed =>
    rw [replaceObjective_of_transcribed ht.transcribed]
    exact .refl t
  | evaluated h =>
    obtain ⟨_, _, rfl⟩ := h
    exact hsame rfl rfl rfl

/-! ## Values -/

omit [Number α] in
theorem FrozenAs.checkSymbols (h : s.FrozenAs t) (es : List (Expr Kind α)) :
    t.checkSymbols es = s.checkSymbols es := by
  unfold Scheme.checkSymbols
  rw [h.extents]

theorem FrozenAs.environments (h : s.FrozenAs t) (x : Matrix α) :
    t.environments x = s.environments x := by
  unfold Scheme.environments
  rw [h.extents]

theorem FrozenAs.evaluateObjective (h : s.FrozenAs t) (x : Matrix α) :
    t.evaluate t.objective x = s.evaluate s.objective x := by
  unfold evaluate
  rw [h.checkSymbols, h.environments, h.objective]

theorem FrozenAs.evaluateConstraints (h : s.FrozenAs t) (x : Matrix α) :
    t.evaluateConstraints x = s.evaluateConstraints x := by
  -- neither looks at more of a block than its content
  have hequations : t.equations = s.equations := by
    have heq : ∀ r : Scheme α, r.equations =
        ((r.blocks.map Block.content).filter fun c => c.2 ≠ 0).map (·.1) := by
      intro r
      rw [equations, List.filter_map, List.map_map]
      rfl
    rw [heq, heq, h.contents]
  have hvalues : t.constraintValues = s.constraintValues := by
    have heq : ∀ (r : Scheme α) env, r.constraintValues env =
        (r.blocks.map Block.content).foldl (fun acc c => acc ++ (c.1.eval env).data) #[] := by
      intro r env
      rw [constraintValues, List.foldl_map]
      rfl
    funext env
    rw [heq, heq, h.contents]
  unfold Scheme.evaluateConstraints
  rw [h.checkSymbols, h.environments, hequations, hvalues]

theorem BoundedAs.constraintBounds (h : s.BoundedAs t) :
    t.constraintLower = s.constraintLower ∧ t.constraintUpper = s.constraintUpper := by
  rw [constraintLower_eq, constraintUpper_eq, h.bounds, ← constraintLower_eq, ← constraintUpper_eq]
  exact ⟨rfl, rfl⟩

end Scheme

namespace Workspace

/-! ## Refused commands -/

/-- Nothing that can be looked up differs. -/
structure SameContents (w w' : Workspace α) : Prop where
  problems : w'.problems = w.problems
  current : w'.current = w.current
  settings : w'.settings = w.settings
  schemes : ∀ name, w'.schemes.lookup name = w.schemes.lookup name
  trajectories : w'.trajectories = w.trajectories

/-- The command breaks a precondition: it ends in the fault and changes nothing. -/
def BreaksContract (w : Workspace α) (c : Command α) (fault : Fault α) : Prop :=
  fault.category = .contract ∧ ∃ w', run c w = .error fault w' ∧ w.SameContents w'

variable {w w₀ : Workspace α} {name : String} {owned : OwnedScheme α} {fault : Fault α}

omit [Number α] in
theorem onScheme_eq_error {β : Type} {action : Problem α → Building α β}
    (hnamed : w.schemes.lookup name = some owned)
    (h : action (w.problem owned.problem) owned.scheme = .error fault owned.scheme) :
    ∃ w', onScheme name action w = .error fault w' ∧ w.SameContents w' := by
  refine ⟨{ w with schemes := enter w.schemes name owned }, ?_, ⟨rfl, rfl, rfl, ?_, rfl⟩⟩
  · unfold onScheme
    rw [run_get_bind]
    apply run_attempt_bind_of_ok (v := owned)
    · rw [named, hnamed]
    · rw [h]
      rfl
  · intro other
    rw [lookup_enter]
    split_ifs with hother
    · rw [hother, hnamed]
    · rfl

/-- What would change the program of the scheme under a name is refused, and nothing is changed. -/
structure Closed (w : Workspace α) (name : String) (s : Scheme α) : Prop where
  append : ∀ lower upper equations, Scheme.append lower upper equations s = .error .frozen s
  addConstraints : ∀ lower upper body low high e, s.handOver lower = .ok low →
    s.handOver upper = .ok high → s.buildBody body = .ok e →
    w.BreaksContract (.scheme name (.addConstraints lower upper body)) .frozen
  setObjective : ∀ body e, s.buildBody body = .ok e →
    w.BreaksContract (.scheme name (.setObjective body)) .frozen
  transcribe :
    w.BreaksContract (.scheme name .transcribe) (.alreadyTranscribed s.rule.schemeName)

theorem closed_of_transcribed (hnamed : w.schemes.lookup name = some owned)
    (h : owned.scheme.transcribed = true) : w.Closed name owned.scheme := by
  refine ⟨fun lower upper equations => Scheme.append_frozen h lower upper equations, ?_, ?_, ?_⟩
  · intro lower upper body low high e hlower hupper hbody
    refine ⟨rfl, ?_⟩
    unfold run runScheme
    apply onScheme_eq_error hnamed
    exact run_error_bind (Scheme.appendBody_frozen h hlower hupper hbody)
  · intro body e hbody
    refine ⟨rfl, ?_⟩
    unfold run runScheme
    apply onScheme_eq_error hnamed
    exact run_error_bind (Scheme.replaceObjective_frozen h hbody)
  · refine ⟨rfl, ?_⟩
    unfold run runScheme
    apply onScheme_eq_error hnamed
    exact run_error_bind (Scheme.transcribe_frozen h _)

/-! ## Runs -/

/-- The command neither puts another scheme under a name nor deletes variables of the one there. -/
def spares (name : String) : Command α → Bool
  | .scheme other (.create _) | .scheme other (.deleteVariables _) => other ≠ name
  | _ => true

variable {c : Command α} {commands : List (Command α)}

theorem respects_frozen {s : Scheme α} (hc : spares name c) : Respects name s.FrozenAs c := by
  refine ⟨?_, ?_⟩
  · unfold recreates
    split
    · next other choice => exact decide_eq_false (of_decide_eq_true hc)
    · rfl
  · rintro command rfl p t ht
    refine ht.effect (Scheme.effect_step command p t) ?_
    rintro key rfl
    exact of_decide_eq_true hc rfl

/-- The command writes elements into the array of bounds of the scheme under the name. -/
def writesInto (name : String) (a : BoundArray) : Command α → Bool
  | .scheme other command => other = name && command.writesInto a
  | _ => false

/-- What keeps the bounds of the constraints besides the rest of the program. -/
theorem respects_bounded {s : Scheme α} (hc : spares name c)
    (hwrites : ∀ a, s.Shares a → writesInto name a c = false) :
    Respects name (fun t => s.FrozenAs t ∧ s.BoundedAs t) c := by
  have hfrozen : Respects name s.FrozenAs c := respects_frozen hc
  refine ⟨hfrozen.stays, ?_⟩
  rintro command rfl p t ⟨ht, hbounds⟩
  refine ⟨hfrozen.keeps command rfl p t ht,
    hbounds.effect ht (Scheme.effect_step command p t) fun a ha => ?_⟩
  simpa [writesInto] using hwrites a ha

/-- Once a scheme is transcribed its program is frozen, but for arrays of the scheme that its blocks
    share. Let commands follow, in any order and whether or not they are refused, that neither put
    another scheme under its name nor delete its variables. The scheme under the name belongs to the
    same problem, and the constraints and the objective have the value at every decision vector that
    they had right after the transcription. The constraints keep their bounds as well if no command
    writes elements into an array that blocks share; they share none but those that they shared
    before the transcription and those that the rule hands over. Then as before, what would change
    the program is refused as a broken precondition and changes nothing. -/
theorem program_frozen {reply : Reply α} (h : run (.scheme name .transcribe) w = .ok reply w₀)
    (hcommands : ∀ c ∈ commands, spares name c) :
    ∃ before first later, w.schemes.lookup name = some before ∧
      w₀.schemes.lookup name = some first ∧
      (after commands w₀).schemes.lookup name = some later ∧ later.problem = first.problem ∧
      (∀ x : Matrix α,
        later.scheme.evaluateConstraints x = first.scheme.evaluateConstraints x ∧
        later.scheme.evaluate later.scheme.objective x =
          first.scheme.evaluate first.scheme.objective x) ∧
      (∀ x : Array α, x.size = Layout.length first.scheme.extents →
        ∃ g f, later.scheme.evaluateConstraints (.column x) = .ok g ∧
          later.scheme.evaluate later.scheme.objective (.column x) = .ok f) ∧
      ((∀ a, first.scheme.Shares a → ∀ c ∈ commands, writesInto name a c = false) →
        later.scheme.constraintLower = first.scheme.constraintLower ∧
        later.scheme.constraintUpper = first.scheme.constraintUpper) ∧
      (∀ a, first.scheme.Shares a → before.scheme.Shares a ∨ before.scheme.rule.HandsOver a) ∧
      (after commands w₀).Closed name later.scheme := by
  obtain ⟨owned, s, hbefore, htranscribe, -, hfirst⟩ := transcribed_of_run h
  have htranscribed : s.transcribed = true := by
    obtain ⟨_, _, -, -, rfl⟩ := Scheme.transcribe_eq_ok htranscribe
    rfl
  have hstart : s.FrozenAs s := ⟨htranscribed, rfl, rfl, rfl⟩
  have hunder : UnderName name owned.problem s.FrozenAs w₀ := ⟨_, hfirst, rfl, hstart⟩
  obtain ⟨later, hlater, hproblem, hfrozen⟩ :=
    hunder.after fun c hc => respects_frozen (hcommands c hc)
  obtain ⟨Γ, hextents, -⟩ :=
    Scheme.side_of_checkVariables (Scheme.checkVariables_of_transcribe htranscribe)
  refine ⟨_, _, later, hbefore, hfirst, hlater, hproblem, ?_, ?_, ?_, ?_,
    closed_of_transcribed hlater hfrozen.transcribed⟩
  · intro x
    exact ⟨hfrozen.evaluateConstraints x, hfrozen.evaluateObjective x⟩
  · intro x hx
    exact ⟨_, _,
      (hfrozen.evaluateConstraints _).trans (Scheme.evaluateConstraints_eq hextents hx),
      (hfrozen.evaluateObjective _).trans (Scheme.evaluate_eq hextents hx _)⟩
  · intro hwrites
    have hunder' : UnderName name owned.problem (fun t => s.FrozenAs t ∧ s.BoundedAs t) w₀ :=
      ⟨_, hfirst, rfl, hstart, .refl s⟩
    obtain ⟨later', hlater', -, -, hbounds⟩ := hunder'.after fun c hc =>
      respects_bounded (hcommands c hc) fun a ha => hwrites a ha c hc
    cases hlater.symm.trans hlater'
    exact hbounds.constraintBounds
  · intro a ha
    refine Scheme.shares_of_transcribe (p := w.problem owned.problem) ?_
    rw [htranscribe]
    exact ha

/-! ## An edited slide -/

open Extended

/-- The slide as the only problem. -/
def slideWorkspace : Workspace (Extended ℚ) := { start none with problems := #[Scheme.slide] }

/-- Declarations, refused changes of the program, bounds, a guess and an attempt to solve. -/
def slideEdits : List (Command (Extended ℚ)) :=
  [.problem (.addComponent .state "v" .null .null .null),
    .problem (.editConstraint .path 0 ⟨none, none, some (.whole 3), none⟩),
    .problem (.addCost .endpoint ⟨.name "tf", .whole 3⟩),
    .scheme "s" (.addConstraints (.written (.whole 0)) (.array ⟨.upper, .states⟩) (.name "states")),
    .scheme "s" (.setObjective (.name "final_time")),
    .scheme "s" .transcribe,
    .scheme "s" (.setBounds (.text "states") .all .all (.list [.whole 0, .whole 1])),
    .scheme "s" (.evaluateDynamics (.whole 0) .null false (.elements (.list []))),
    .scheme "s" (.guess "g"),
    .scheme "s" (.solve "g" "solution" ⟨.start, [], some (.run "stopped")⟩)]

theorem program_frozen_slide :
    ∃ reply w₀ first later fault,
      run (.scheme "s" .transcribe)
        (after [.scheme "s" (.create (.trapezoidal (.whole 3)))] slideWorkspace) = .ok reply w₀ ∧
      (∀ c ∈ slideEdits, spares "s" c) ∧
      w₀.schemes.lookup "s" = some first ∧ (after slideEdits w₀).schemes.lookup "s" = some later ∧
      later.scheme.evaluateConstraints (.column (#[0, 1, 0, 1 / 2, 1, 1, 1, 1].map finite)) =
        .ok (#[0, 0, 0, 1 / 2, 1, 1, 1, 1, 0, 1].map finite) ∧
      (∀ a, first.scheme.Shares a → ∀ c ∈ slideEdits, writesInto "s" a c = false) ∧
      later.scheme.constraintUpper = first.scheme.constraintUpper ∧
      (after slideEdits w₀).BreaksContract (.scheme "s" .transcribe) fault := by
  have hcheck : endsIn
      (fun w => (w.schemes.lookup "s").any fun owned => decide ((owned.scheme.evaluateConstraints
        (.column (#[0, 1, 0, 1 / 2, 1, 1, 1, 1].map finite))).toOption =
          some (#[0, 0, 0, 1 / 2, 1, 1, 1, 1, 0, 1].map finite)) &&
            owned.scheme.blocks.all fun b => b.lower.array.isNone && b.upper.array.isNone)
      (run (.scheme "s" .transcribe)
        (after [.scheme "s" (.create (.trapezoidal (.whole 3)))] slideWorkspace)) := by
    decide +kernel
  obtain ⟨reply, w₀, hrun, hends⟩ := exists_of_endsIn hcheck
  obtain ⟨owned, hnamed, hscheme⟩ := (Option.any_eq_true _ _).mp hends
  rw [Bool.and_eq_true, decide_eq_true_iff, List.all_eq_true] at hscheme
  have hspares : ∀ c ∈ slideEdits, spares "s" c := by decide
  obtain ⟨-, first, later, -, hfirst, hlater, -, hvalues, -, hbounds, -, hclosed⟩ :=
    program_frozen hrun hspares
  cases hnamed.symm.trans hfirst
  -- the blocks of a built-in rule share nothing
  have hwrites : ∀ a, owned.scheme.Shares a → ∀ c ∈ slideEdits, writesInto "s" a c = false := by
    rintro a ⟨b, hb, hshares⟩
    have hown := hscheme.2 b hb
    rw [Bool.and_eq_true, Option.isNone_iff_eq_none, Option.isNone_iff_eq_none] at hown
    rw [hown.1, hown.2] at hshares
    simp at hshares
  refine ⟨reply, w₀, owned, later, _, hrun, hspares, hnamed, hlater, ?_, hwrites,
    (hbounds hwrites).2, hclosed.transcribe⟩
  rw [(hvalues _).1]
  exact eq_ok_of_toOption hscheme.1

/-! ## A slide within shared bounds -/

/-- The slide with its state between zero and one. -/
def confinedSlide : Problem (Extended ℚ) :=
  { Scheme.slide with states := [⟨"x", .between (.whole 0) (.whole 1), .unset, .unset⟩] }

/-- A rule that bounds the states once more, by the arrays that already bound them. -/
def sharingRule : Hooks (Extended ℚ) :=
  { Scheme.looseRule with
    directives := [.constrain (.array ⟨.lower, .states⟩) (.array ⟨.upper, .states⟩)
      (.name "states")] }

/-- The confined slide under this rule, on three points. -/
def sharingWorkspace : Workspace (Extended ℚ) :=
  after [.scheme "s" (.create (.custom sharingRule
      (.list [.whole 0, .real (finite (1 / 2)), .whole 1]) none true))]
    { start none with problems := #[confinedSlide] }

/-- A bound of the first state that is written after the transcription. -/
def lateBound : Command (Extended ℚ) :=
  .scheme "s" (.setBounds (.text "states") (.index 0) (.index 0) (.list [.whole 5, .whole 6]))

/-- Bounds of variables that are written after the transcription go into the constraints that share
    their arrays. -/
theorem shared_bounds_written :
    ∃ reply w₀ first later, run (.scheme "s" .transcribe) sharingWorkspace = .ok reply w₀ ∧
      w₀.schemes.lookup "s" = some first ∧
      (after [lateBound] w₀).schemes.lookup "s" = some later ∧ spares "s" lateBound ∧
      first.scheme.constraintLower = #[0, 0, 0].map finite ∧
      first.scheme.constraintUpper = #[1, 1, 1].map finite ∧
      later.scheme.constraintLower = #[5, 0, 0].map finite ∧
      later.scheme.constraintUpper = #[6, 1, 1].map finite := by
  have hcheck : endsIn
      (fun w => ((w.schemes.lookup "s").any fun owned =>
          owned.scheme.constraintLower = #[0, 0, 0].map finite &&
            owned.scheme.constraintUpper = #[1, 1, 1].map finite) &&
        ((after [lateBound] w).schemes.lookup "s").any fun owned =>
          owned.scheme.constraintLower = #[5, 0, 0].map finite &&
            owned.scheme.constraintUpper = #[6, 1, 1].map finite)
      (run (.scheme "s" .transcribe) sharingWorkspace) := by
    decide +kernel
  obtain ⟨reply, w₀, hrun, hends⟩ := exists_of_endsIn hcheck
  rw [Bool.and_eq_true] at hends
  obtain ⟨first, hfirst, hbounds⟩ := (Option.any_eq_true _ _).mp hends.1
  obtain ⟨later, hlater, hbounds'⟩ := (Option.any_eq_true _ _).mp hends.2
  rw [Bool.and_eq_true, decide_eq_true_iff, decide_eq_true_iff] at hbounds hbounds'
  exact ⟨reply, w₀, first, later, hrun, hfirst, hlater, rfl, hbounds.1, hbounds.2, hbounds'.1,
    hbounds'.2⟩

end Workspace
end Collocation
