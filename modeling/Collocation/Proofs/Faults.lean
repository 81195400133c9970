import Collocation.Problem.Functions
import Collocation.Proofs.Outcome
import Collocation.Scheme.Bounds

/-! # Faults of what a user writes

  Reading literals, building terms and reading bounds fails for reasons that lie in what was
  written. None of them is a broken precondition of the engine, so neither is anything for which
  the functions of a problem are refused. -/

namespace Collocation

variable {α : Type}

/-- The fault is no broken precondition of the engine. -/
def Fault.KeepsContract (fault : Fault α) : Prop := fault.category ≠ .contract

/-! ## Literals -/

section Literals

variable [Number α]

theorem keepsContract_realOfInt (n : Int) :
    FailsOnly Fault.KeepsContract (realOfInt n : Except (Fault α) α) := by
  unfold realOfInt
  simp only
  split
  · exact .ok _
  · exact .error nofun

omit [Number α] in
theorem keepsContract_checkStored (n : Nat) :
    FailsOnly Fault.KeepsContract (checkStored n : Except (Fault α) Unit) := by
  unfold checkStored
  split_ifs
  · exact .error nofun
  · exact .error nofun
  · exact .ok _

namespace Literal

theorem keepsContract_toElement (l : Literal α) : FailsOnly Fault.KeepsContract l.toElement := by
  unfold toElement
  split
  · exact .ok _
  · exact .ok _
  · exact keepsContract_realOfInt _
  · exact .ok _
  · split
    · exact .ok _
    · exact .error nofun
  · exact .error nofun

omit [Number α] in
theorem keepsContract_indexOfInt (n : Int) :
    FailsOnly Fault.KeepsContract (indexOfInt n : Except (Fault α) Int) := by
  unfold indexOfInt
  split
  · exact .ok _
  · exact .error nofun

theorem keepsContract_toIndex (l : Literal α) : FailsOnly Fault.KeepsContract l.toIndex := by
  unfold toIndex
  split
  · exact .ok _
  · exact keepsContract_indexOfInt _
  · split
    · exact keepsContract_indexOfInt _
    · split_ifs
      · exact .error nofun
      · exact .error nofun
  · split
    · exact keepsContract_indexOfInt _
    · exact .error nofun
    · exact .error nofun
  · exact .error nofun

omit [Number α] in
theorem keepsContract_toTensorWith [Inhabited α] {β : Type} [Inhabited β] {limit : Nat}
    {read : Literal α → Except (Fault α) β}
    (hread : ∀ l, FailsOnly Fault.KeepsContract (read l)) (l : Literal α) :
    FailsOnly Fault.KeepsContract (l.toTensorWith limit read) := by
  unfold toTensorWith
  simp only
  split
  · split
    · exact .error nofun
    · exact .error nofun
  · exact (FailsOnly.mapM fun l _ => hread l).bind fun _ _ => .ok _

theorem keepsContract_toVector (l : Literal α) : FailsOnly Fault.KeepsContract l.toVector := by
  refine FailsOnly.map ?_ _
  unfold toTensor toTensorWithin
  split
  · exact .ok _
  · exact keepsContract_toTensorWith keepsContract_toElement _

end Literal
end Literals

/-! ## Terms -/

section Terms

variable {σ : Type}

namespace Term

theorem keepsContract_fitting (e : Option (Sized σ α)) :
    FailsOnly Fault.KeepsContract (fitting e) := by
  cases e with
  | some e => exact .ok e
  | none => exact .error nofun

theorem keepsContract_checkIndex (i : Int) :
    FailsOnly Fault.KeepsContract (checkIndex i : Except (Fault α) Unit) := by
  unfold checkIndex
  split
  · exact .ok _
  · exact .error nofun

variable [Number α] [DecidableEq σ] (lookup : String → Option (Sized σ α))

mutual

/-- A term that is refused has an unknown name, a part that is no expression, or sizes that do not
    fit. -/
theorem keepsContract_build : (t : Term α) → FailsOnly Fault.KeepsContract (t.build lookup)
  | number x => .ok _
  | name s => by
    unfold build
    split
    · exact .ok _
    · exact .error nofun
  | nothing => .error nofun
  | map f t => (keepsContract_build t).bind fun _ _ => .ok _
  | zip f s t => (keepsContract_build s).bind fun _ _ => (keepsContract_build t).bind fun _ _ =>
      keepsContract_fitting _
  | transpose t => (keepsContract_build t).bind fun _ _ => .ok _
  | sumRows t => (keepsContract_build t).bind fun _ _ => .ok _
  | dot s t => (keepsContract_build s).bind fun _ _ => (keepsContract_build t).bind fun _ _ =>
      keepsContract_fitting _
  | product s t => (keepsContract_build s).bind fun _ _ => (keepsContract_build t).bind fun _ _ =>
      keepsContract_fitting _
  | stacked parts => (keepsContract_buildAll parts).bind fun _ _ => keepsContract_fitting _
  | joined parts => (keepsContract_buildAll parts).bind fun _ _ => keepsContract_fitting _
  | element t k => (keepsContract_build t).bind fun _ _ =>
      (keepsContract_checkIndex k).bind fun _ _ => keepsContract_fitting _
  | entry t i j => (keepsContract_build t).bind fun _ _ =>
      (keepsContract_checkIndex i).bind fun _ _ =>
        (keepsContract_checkIndex j).bind fun _ _ => keepsContract_fitting _
  | column t j => (keepsContract_build t).bind fun _ _ =>
      (keepsContract_checkIndex j).bind fun _ _ => keepsContract_fitting _

theorem keepsContract_buildAll :
    (ts : List (Term α)) → FailsOnly Fault.KeepsContract (buildAll lookup ts)
  | [] => .ok []
  | t :: ts => (keepsContract_build t).bind fun _ _ =>
      (keepsContract_buildAll ts).bind fun _ _ => .ok _

end

end Term

namespace Function

theorem keepsContract_make (name : String) (inputs : σ → Extent) (body : Sized σ α) :
    FailsOnly Fault.KeepsContract (make name inputs body) := by
  unfold make
  split
  · exact .ok _
  · exact .error nofun

variable [Number α] [Inputs σ] [DecidableEq σ]

theorem keepsContract_columnOf (inputs : σ → Extent) (body : Term α) :
    FailsOnly Fault.KeepsContract (columnOf inputs body) :=
  (Term.keepsContract_build _ body).bind fun _ _ => .ok _

theorem keepsContract_ofBody (name : String) (inputs : σ → Extent) (body : Term α) :
    FailsOnly Fault.KeepsContract (ofBody name inputs body) :=
  (keepsContract_columnOf inputs body).bind fun _ _ => keepsContract_make name inputs _

end Function
end Terms

/-! ## Problems -/

namespace Problem

theorem keepsContract_rowsOf (count : Scalar α) : FailsOnly Fault.KeepsContract (rowsOf count) := by
  unfold rowsOf
  split
  · exact .ok _
  · split_ifs
    · exact .error nofun
    · exact .error nofun
    · exact .ok _
  · exact .error nofun

theorem keepsContract_variableRowsOf (count : Scalar α) :
    FailsOnly Fault.KeepsContract (variableRowsOf count) := by
  unfold variableRowsOf
  split
  · exact .error nofun
  · exact keepsContract_rowsOf _

theorem keepsContract_pointInputs (p : Problem α) : FailsOnly Fault.KeepsContract p.pointInputs :=
  (keepsContract_rowsOf _).bind fun _ _ => (keepsContract_rowsOf _).bind fun _ _ => .ok _

variable [Number α]

theorem keepsContract_readWeight (l : Literal α) :
    FailsOnly Fault.KeepsContract (readWeight l) := by
  unfold readWeight
  split
  · exact .ok _
  · split
    · exact .error nofun
    · exact .error nofun
    · exact .error nofun

theorem keepsContract_costSum {ι : Type} [Inputs ι] [DecidableEq ι] (inputs : ι → Extent)
    (costs : List (Cost α)) : FailsOnly Fault.KeepsContract (costSum inputs costs) := by
  refine FailsOnly.foldlM ?_ _
  intro cost _ acc
  have hterm : FailsOnly Fault.KeepsContract (costTerm inputs cost) :=
    (Function.keepsContract_columnOf inputs cost.body).bind fun _ _ =>
      (keepsContract_readWeight cost.weight).bind fun _ _ => .ok _
  exact hterm.bind fun _ _ => Term.keepsContract_fitting _

theorem keepsContract_dynamicsFunction (p : Problem α) :
    FailsOnly Fault.KeepsContract p.dynamicsFunction := by
  unfold dynamicsFunction
  split
  · exact .error nofun
  · refine p.keepsContract_pointInputs.bind fun inputs _ => ?_
    refine (Function.keepsContract_columnOf inputs _).bind fun derivatives _ => ?_
    split
    · exact .error nofun
    · exact Function.keepsContract_make _ _ _

theorem keepsContract_integrandFunction (p : Problem α) :
    FailsOnly Fault.KeepsContract p.integrandFunction :=
  p.keepsContract_pointInputs.bind fun _ _ => (keepsContract_costSum _ _).bind fun _ _ =>
    Function.keepsContract_make _ _ _

theorem keepsContract_endpointCostFunction (p : Problem α) :
    FailsOnly Fault.KeepsContract p.endpointCostFunction :=
  (keepsContract_costSum _ _).bind fun _ _ => Function.keepsContract_make _ _ _

theorem keepsContract_pointConstraintFunction (p : Problem α) (c : Constraint α) :
    FailsOnly Fault.KeepsContract (p.pointConstraintFunction c) :=
  p.keepsContract_pointInputs.bind fun _ _ => Function.keepsContract_ofBody _ _ _

theorem keepsContract_endpointConstraintFunction (p : Problem α) (c : Constraint α) :
    FailsOnly Fault.KeepsContract (p.endpointConstraintFunction c) :=
  Function.keepsContract_ofBody _ _ _

end Problem

namespace Constraint

variable [Number α]

theorem keepsContract_boundVector (c : Constraint α) (size : Nat) (l : Literal α) :
    FailsOnly Fault.KeepsContract (c.boundVector size l) := by
  unfold boundVector
  refine l.keepsContract_toVector.bind fun v _ => ?_
  -- the last step is to repeat what was read, which succeeds or not
  cases repeatTo? size v with
  | some w =>
    simp only
    split_ifs
    · exact .error nofun
    · exact (keepsContract_checkStored size).bind fun _ _ => .ok w
    · exact .ok w
  | none =>
    simp only
    split_ifs
    · exact .error nofun
    · exact (keepsContract_checkStored size).bind fun _ _ => .error nofun
    · exact .error nofun

theorem keepsContract_boundVectors (c : Constraint α) (size : Nat) :
    FailsOnly Fault.KeepsContract (c.boundVectors size) := by
  unfold boundVectors
  refine (c.keepsContract_boundVector size _).bind fun lower _ => ?_
  refine (c.keepsContract_boundVector size _).bind fun upper _ => ?_
  split
  · exact .error nofun
  · exact .ok _

end Constraint

/-! ## What a problem itself is to blame for -/

namespace Problem

variable [Number α]

/-- The fault comes from what the problem says: its dynamics are missing, not to be built or of
    another size than the states, a cost is not to be built or gives no single number, or a
    constraint is not to be built, is refused its name or has bounds that do not fit. -/
inductive Causes (p : Problem α) : Fault α → Prop where
  | dynamics {fault : Fault α} (h : p.dynamicsFunction = .error fault) : Causes p fault
  | integrand {fault : Fault α} (h : p.integrandFunction = .error fault) : Causes p fault
  | integrandSize {f : PointFunction α} (hf : p.integrandFunction = .ok f)
      (h : f.extent ≠ .unit) : Causes p .expression
  | endpointCost {fault : Fault α} (h : p.endpointCostFunction = .error fault) : Causes p fault
  | pointConstraint {fault : Fault α} {c : Constraint α}
      (hc : c ∈ p.pathConstraints ++ p.kinematicConstraints)
      (h : p.pointConstraintFunction c = .error fault) : Causes p fault
  | pointBounds {fault : Fault α} {c : Constraint α} {f : PointFunction α}
      (hc : c ∈ p.pathConstraints ++ p.kinematicConstraints)
      (hf : p.pointConstraintFunction c = .ok f)
      (h : c.boundVectors f.extent.rows = .error fault) : Causes p fault
  | endpointConstraint {fault : Fault α} {c : Constraint α} (hc : c ∈ p.endpointConstraints)
      (h : p.endpointConstraintFunction c = .error fault) : Causes p fault
  | endpointBounds {fault : Fault α} {c : Constraint α} {f : EndpointFunction α}
      (hc : c ∈ p.endpointConstraints) (hf : p.endpointConstraintFunction c = .ok f)
      (h : c.boundVectors f.extent.rows = .error fault) : Causes p fault

/-- None of it breaks a precondition of the engine. -/
theorem Causes.keepsContract {p : Problem α} {fault : Fault α} (h : p.Causes fault) :
    fault.KeepsContract := by
  cases h with
  | dynamics h => exact p.keepsContract_dynamicsFunction fault h
  | integrand h => exact p.keepsContract_integrandFunction fault h
  | integrandSize => exact nofun
  | endpointCost h => exact p.keepsContract_endpointCostFunction fault h
  | pointConstraint _ h => exact p.keepsContract_pointConstraintFunction _ fault h
  | pointBounds _ _ h => exact Constraint.keepsContract_boundVectors _ _ fault h
  | endpointConstraint _ h => exact p.keepsContract_endpointConstraintFunction _ fault h
  | endpointBounds _ _ h => exact Constraint.keepsContract_boundVectors _ _ fault h

end Problem
end Collocation
