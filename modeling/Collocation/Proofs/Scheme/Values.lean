import Collocation.Proofs.Problem
import Collocation.Proofs.Scheme.Blocks
import Collocation.Proofs.Scheme.Phases

/-! # Values at grid points

  What the functions of a problem are given: at a grid point the time there and the columns of all
  kinds of decision variables, at the two ends the end times and the first and the last states.
  A prepared scheme calls its functions with expressions that read exactly these values, so a call
  has the value of the function's body at them. -/

namespace Collocation

section Values

variable {α : Type} [Number α]

/-- The matrices of all kinds; a kind without one has nothing. -/
def Table.values (t : Table (Matrix α)) (k : Kind) : Matrix α := (t.find? k).getD (.column #[])

/-- The values of the inputs at grid point `i`. -/
def pointValues (points : Array α) (v : Kind → Matrix α) (i : Nat) : PointInput → Matrix α
  | .time =>
    .unit ((Scheme.timesBetween points ((v .initialTime).get 0) ((v .finalTime).get 0)).getD i
      default)
  | .states => .column ((v .states).columnArray i)
  | .controls => .column ((v .controls).columnArray i)
  | .multipliers => .column ((v .multipliers).columnArray i)
  | .derivatives => .column ((v .derivatives).columnArray i)
  | .slacks => .column ((v .slacks).columnArray i)
  | .parameters => v .parameters

/-- The values of the inputs at the two ends, of which grid point `last` is the second. -/
def endValues (v : Kind → Matrix α) (last : Nat) : EndpointInput → Matrix α
  | .initialTime => v .initialTime
  | .initialStates => .column ((v .states).columnArray 0)
  | .finalTime => v .finalTime
  | .finalStates => .column ((v .states).columnArray last)
  | .parameters => v .parameters

end Values

/-! ## Sizes of decision variables -/

namespace Scheme

variable {α : Type}

/-- The size of the decision variables of a kind, for a problem with so many derivatives and
    slacks. -/
def kindExtent (p : Problem α) (gridPoints derivatives slacks : Nat) : Kind → Extent
  | .initialTime | .finalTime => .unit
  | .states => ⟨p.states.length, gridPoints⟩
  | .controls => ⟨p.controls.length, gridPoints⟩
  | .multipliers => ⟨p.multipliers.length, gridPoints⟩
  | .derivatives => ⟨derivatives, gridPoints⟩
  | .slacks => ⟨slacks, gridPoints⟩
  | .parameters => ⟨p.parameters.length, 1⟩

/-- The rows come from the problem, the columns from the grid. -/
theorem kindExtent_eq (p : Problem α) (gridPoints derivatives slacks : Nat) (k : Kind) :
    kindExtent p gridPoints derivatives slacks k =
      ⟨(kindExtent p 0 derivatives slacks k).rows, if k.onGrid then gridPoints else 1⟩ := by
  cases k <;> rfl

/-- A count that gives decision variables gives inputs of as many rows. -/
theorem rowsOf_eq_ok {count : Scalar α} {n : Nat} (h : Problem.variableRowsOf count = .ok n) :
    Problem.rowsOf count = .ok n := by
  unfold Problem.variableRowsOf at h
  split at h
  · cases h
  · exact h

/-- The sizes are accepted if the number of grid points is and both counts are. -/
theorem extentsFor_eq_ok_iff {p : Problem α} {gridPoints : Nat} {extents : Table Extent} :
    extentsFor p gridPoints = .ok extents ↔ gridPoints ≤ Problem.rowLimit ∧
      ∃ derivatives slacks, Problem.variableRowsOf p.derivativeCount = .ok derivatives ∧
        Problem.variableRowsOf p.slackCount = .ok slacks ∧
        extents = .full (kindExtent p gridPoints derivatives slacks) := by
  have hlimit : Problem.rowLimit < 0x8000000000000000 := by decide
  have hkinds : ∀ derivatives slacks, (Table.full fun
      | .initialTime | .finalTime => .unit
      | .states => ⟨p.states.length, gridPoints⟩
      | .controls => ⟨p.controls.length, gridPoints⟩
      | .multipliers => ⟨p.multipliers.length, gridPoints⟩
      | .derivatives => ⟨derivatives, gridPoints⟩
      | .slacks => ⟨slacks, gridPoints⟩
      | .parameters => ⟨p.parameters.length, 1⟩) =
        Table.full (kindExtent p gridPoints derivatives slacks) := by
    intro derivatives slacks
    exact congrArg Table.full (funext fun k => by cases k <;> rfl)
  constructor
  · intro h
    obtain ⟨n, hn, h⟩ := bind_eq_ok h
    obtain ⟨derivatives, hderivatives, h⟩ := bind_eq_ok h
    obtain ⟨slacks, hslacks, h⟩ := bind_eq_ok h
    cases h
    simp only [Problem.rowsOf] at hn
    split_ifs at hn with _ hfew
    cases hn
    exact ⟨by omega, derivatives, slacks, hderivatives, hslacks, hkinds derivatives slacks⟩
  · rintro ⟨hgrid, derivatives, slacks, hderivatives, hslacks, rfl⟩
    have hcount : (Problem.rowsOf (.whole gridPoints) : Except (Fault α) Nat) = .ok gridPoints := by
      unfold Problem.rowsOf
      simp only
      rw [if_neg (by omega), if_neg (by omega), Int.toNat_natCast]
    unfold extentsFor
    rw [hcount, hderivatives, hslacks]
    exact congrArg Except.ok (hkinds derivatives slacks)

theorem extentsFor_eq_ok {p : Problem α} {gridPoints : Nat} {extents : Table Extent}
    (h : extentsFor p gridPoints = .ok extents) :
    ∃ derivatives slacks, Problem.rowsOf p.derivativeCount = .ok derivatives ∧
      Problem.rowsOf p.slackCount = .ok slacks ∧
      extents = .full (kindExtent p gridPoints derivatives slacks) := by
  obtain ⟨-, derivatives, slacks, hderivatives, hslacks, hextents⟩ := extentsFor_eq_ok_iff.mp h
  exact ⟨derivatives, slacks, rowsOf_eq_ok hderivatives, rowsOf_eq_ok hslacks, hextents⟩

end Scheme

open Extended

variable {K : Type} [Field K] [LinearOrder K] [FloorRing K] [Interpretation K]

/-! ## Prepared schemes -/

/-- A prepared scheme for a problem on a grid of finite points, and finite values of its decision
    variables. What is written into the scheme from here on does not change any of it. -/
structure Ready (p : Problem (Extended K)) (points : Array (Extended K))
    (env : Kind → Matrix (Extended K)) (s : Scheme (Extended K)) : Prop where
  two_le : 2 ≤ points.size
  finite_points : ∀ i, ∃ x, points.getD i default = finite x
  finite_values : ∀ k q, ∃ x, (env k).get q = finite x
  gridPoints : s.gridPoints = points.size
  grid : s.grid = some (.vector points)
  extents : s.extents = .full fun k => (env k).extent
  sizes : Scheme.extentsFor p points.size = .ok s.extents
  times : s.times =
    some ⟨Scheme.timesExpr points (.symbol .initialTime .unit) (.symbol .finalTime .unit),
      ⟨points.size, 1⟩⟩
  duration : s.duration =
    some ⟨.symbol .finalTime .unit - .symbol .initialTime .unit, .unit⟩

namespace Ready

variable {p : Problem (Extended K)} {points : Array (Extended K)}
  {env : Kind → Matrix (Extended K)} {s : Scheme (Extended K)}

theorem withBlocks (bs : List (Block (Extended K))) (h : Ready p points env s) :
    Ready p points env { s with blocks := s.blocks ++ bs } :=
  ⟨h.two_le, h.finite_points, h.finite_values, h.gridPoints, h.grid, h.extents, h.sizes, h.times,
    h.duration⟩

theorem withDynamics (h : Ready p points env s) (f : PointFunction (Extended K)) :
    Ready p points env { s with dynamics := some f } :=
  ⟨h.two_le, h.finite_points, h.finite_values, h.gridPoints, h.grid, h.extents, h.sizes, h.times,
    h.duration⟩

/-! ### Sizes -/

/-- The sizes of the variables are those that the problem asks for. -/
theorem extent_eq (h : Ready p points env s) :
    ∃ derivatives slacks, Problem.rowsOf p.derivativeCount = .ok derivatives ∧
      Problem.rowsOf p.slackCount = .ok slacks ∧
      ∀ k, (env k).extent = Scheme.kindExtent p points.size derivatives slacks k := by
  obtain ⟨derivatives, slacks, hderivatives, hslacks, hsizes⟩ :=
    Scheme.extentsFor_eq_ok h.sizes
  refine ⟨derivatives, slacks, hderivatives, hslacks, ?_⟩
  intro k
  rw [h.extents] at hsizes
  have hfind := congrArg (fun t => t.find? k) hsizes
  simpa using hfind

theorem cols_eq (h : Ready p points env s) {k : Kind} (hk : k.onGrid) :
    (env k).extent.cols = points.size := by
  obtain ⟨derivatives, slacks, -, -, hextent⟩ := h.extent_eq
  rw [hextent]
  cases k <;> first | rfl | cases hk

theorem states_extent (h : Ready p points env s) :
    (env .states).extent = ⟨p.states.length, points.size⟩ := by
  obtain ⟨derivatives, slacks, -, -, hextent⟩ := h.extent_eq
  exact hextent .states

theorem controls_extent (h : Ready p points env s) :
    (env .controls).extent = ⟨p.controls.length, points.size⟩ := by
  obtain ⟨derivatives, slacks, -, -, hextent⟩ := h.extent_eq
  exact hextent .controls

theorem time_extent (h : Ready p points env s) :
    (env .initialTime).extent = .unit ∧ (env .finalTime).extent = .unit := by
  obtain ⟨derivatives, slacks, -, -, hextent⟩ := h.extent_eq
  exact ⟨hextent .initialTime, hextent .finalTime⟩

/-- The inputs that the problem declares at a grid point have the sizes of the values there. -/
theorem pointInputs_eq (h : Ready p points env s) (i : Nat) :
    p.pointInputs = .ok fun j => (pointValues points env i j).extent := by
  obtain ⟨derivatives, slacks, hderivatives, hslacks, hextent⟩ := h.extent_eq
  unfold Problem.pointInputs
  rw [hderivatives, hslacks]
  refine congrArg Except.ok (funext ?_)
  intro j
  cases j <;> simp [pointValues, Matrix.column, Matrix.columnArray, Matrix.rows, hextent,
    Scheme.kindExtent, Matrix.unit]

theorem endpointInputs_eq (h : Ready p points env s) (last : Nat) :
    p.endpointInputs = fun j => (endValues env last j).extent := by
  obtain ⟨derivatives, slacks, -, -, hextent⟩ := h.extent_eq
  funext j
  cases j <;> simp [endValues, Problem.endpointInputs, Matrix.column, Matrix.columnArray,
    Matrix.rows, hextent, Scheme.kindExtent]

end Ready

/-! ## Arguments -/

section Arguments

variable {α : Type} [Number α] {env : Kind → Matrix α} {a : Sized Kind α} {m : Matrix α}

/-- The expression reads decision variables and has the given value. -/
structure Sized.Reads (env : Kind → Matrix α) (a : Sized Kind α) (m : Matrix α) : Prop where
  extent : a.extent = m.extent
  size : a.expr.HasSize (fun k => (env k).extent) a.extent
  reading : a.expr.IsReading
  eval : a.expr.eval env = m

namespace Scheme

variable {s : Scheme α}

omit [Number α] in
theorem extentOf_eq (h : s.extents = .full fun k => (env k).extent) (k : Kind) :
    s.extentOf k = .ok (env k).extent := by
  simp [extentOf, Table.get, h]

theorem wholeOf_reads (h : s.extents = .full fun k => (env k).extent) (k : Kind) :
    ∃ a, s.wholeOf k = .ok a ∧ a.Reads env (env k) := by
  refine ⟨.symbol k (env k).extent, ?_, rfl, .symbol k, trivial, rfl⟩
  unfold wholeOf
  rw [extentOf_eq h]
  rfl

/-- A column of a kind reads that column. -/
theorem eval_column (k : Kind) (j : Nat) :
    (Expr.column (env k).extent.rows j (.symbol k (env k).extent)).eval env =
      .column ((env k).columnArray j) := by
  refine Matrix.ext ?_ ?_
  · simp [Expr.column, Expr.eval, Matrix.slice, Matrix.column, Matrix.columnArray, Matrix.rows]
  · apply Array.ext
    · simp [Expr.column, Expr.eval, Matrix.slice, Matrix.column, Matrix.columnArray, Matrix.rows,
        Matrix.ofColumnMajor]
    · intro i hi hi'
      simp [Expr.column, Expr.eval, Matrix.slice, Matrix.column, Matrix.columnArray, Matrix.rows,
        Matrix.ofColumnMajor]

omit [Number α] in
theorem hasSize_column {k : Kind} {j : Nat} (h : j < (env k).extent.cols) :
    (Expr.column (env k).extent.rows j (.symbol k (env k).extent) : Expr Kind α).HasSize
      (fun k => (env k).extent) ⟨(env k).extent.rows, 1⟩ := by
  refine .slice _ _ (.symbol k) ?_
  rw [Extent.size_column]
  exact Sized.column_within h

theorem columnOf_reads (h : s.extents = .full fun k => (env k).extent) {k : Kind} {i : Int}
    {j : Nat} (hj : position? (env k).extent.cols i = some j) :
    ∃ a, s.columnOf k i = .ok a ∧ a.Reads env (.column ((env k).columnArray j)) := by
  have hsize := hasSize_column (position?_lt hj)
  refine ⟨⟨_, ⟨(env k).extent.rows, 1⟩⟩, ?_, ?_, hsize, trivial, eval_column k j⟩
  · unfold columnOf
    rw [extentOf_eq h]
    simp only [bind, Except.bind, hj]
    rfl
  · simp [Matrix.column, Matrix.columnArray, Matrix.rows]

end Scheme
end Arguments

theorem position?_natCast {n k : Nat} (h : k < n) : position? n (k : Int) = some k := by
  simp [position?, h]

/-! ## Schemes on a grid -/

section Placed

variable {α : Type} [Number α] {points : Array α} {env : Kind → Matrix α} {s : Scheme α}

/-- A scheme has all its variables, those along the way with a column for every grid point, and
    times that go with the grid. -/
structure Placed (points : Array α) (env : Kind → Matrix α) (s : Scheme α) : Prop where
  pos : 0 < points.size
  extents : s.extents = .full fun k => (env k).extent
  cols : ∀ k : Kind, k.onGrid → (env k).extent.cols = points.size
  times : ∃ e : Expr Kind α, s.times = some ⟨e, ⟨points.size, 1⟩⟩ ∧
    e.IsColumn env points.size fun i =>
      (Scheme.timesBetween points ((env .initialTime).get 0) ((env .finalTime).get 0)).getD i
        default

namespace Placed

variable {i : Int} {j : Nat}

theorem timeAt_reads (h : Placed points env s) (hj : position? points.size i = some j) :
    ∃ a, s.timeAt i = .ok a ∧ a.Reads env (pointValues points env j .time) := by
  obtain ⟨e, he, hcolumn⟩ := h.times
  have hlt := position?_lt hj
  refine ⟨⟨.slice .unit j e, .unit⟩, ?_, rfl, ?_, trivial, ?_⟩
  · unfold Scheme.timeAt
    rw [he]
    simp only [Extent.size_column, hj]
  · refine .slice _ _ hcolumn.size ?_
    rw [Extent.size_unit, Extent.size_column]
    omega
  · have hsize : ((Expr.slice .unit j e).eval env).data.size =
        (pointValues points env j .time).data.size := by
      simp [Expr.eval, Matrix.slice, Matrix.ofColumnMajor, pointValues, Matrix.unit]
    refine Matrix.ext rfl (Array.ext hsize ?_)
    intro q hq hq'
    obtain rfl : q = 0 := by simpa [pointValues, Matrix.unit] using hq'
    simp only [Expr.eval, Matrix.slice, Matrix.ofColumnMajor, Array.getElem_ofFn, Nat.add_zero]
    exact hcolumn.get j hlt

/-- The arguments at a grid point, counted from either end, read the values there. -/
theorem pointArguments_reads (h : Placed points env s) (hj : position? points.size i = some j) :
    ∃ args, s.pointArguments i = .ok args ∧
      ∀ input, (args input).Reads env (pointValues points env j input) := by
  have hcolumn : ∀ k : Kind, k.onGrid → ∃ a, s.columnOf k i = .ok a ∧
      a.Reads env (.column ((env k).columnArray j)) := by
    intro k hk
    apply Scheme.columnOf_reads h.extents
    rw [h.cols k hk, hj]
  obtain ⟨time, htime, htime'⟩ := h.timeAt_reads hj
  obtain ⟨states, hstates, hstates'⟩ := hcolumn .states rfl
  obtain ⟨controls, hcontrols, hcontrols'⟩ := hcolumn .controls rfl
  obtain ⟨multipliers, hmultipliers, hmultipliers'⟩ := hcolumn .multipliers rfl
  obtain ⟨derivatives, hderivatives, hderivatives'⟩ := hcolumn .derivatives rfl
  obtain ⟨slacks, hslacks, hslacks'⟩ := hcolumn .slacks rfl
  obtain ⟨parameters, hparameters, hparameters'⟩ := Scheme.wholeOf_reads h.extents .parameters
  refine ⟨_, by
    unfold Scheme.pointArguments
    rw [htime, hstates, hcontrols, hmultipliers, hderivatives, hslacks, hparameters]
    rfl, ?_⟩
  intro input
  cases input with
  | time => exact htime'
  | states => exact hstates'
  | controls => exact hcontrols'
  | multipliers => exact hmultipliers'
  | derivatives => exact hderivatives'
  | slacks => exact hslacks'
  | parameters => exact hparameters'

/-- The arguments of the two ends read the values there. -/
theorem endpointArguments_reads (h : Placed points env s) :
    ∃ args, s.endpointArguments = .ok args ∧
      ∀ input, (args input).Reads env (endValues env (points.size - 1) input) := by
  have hwhole := fun k => Scheme.wholeOf_reads h.extents k
  have hcols := h.cols .states rfl
  have hsize := h.pos
  -- the last state is looked up from the end
  have hlast : position? (env .states).extent.cols (-1) = some (points.size - 1) := by
    rw [hcols]
    unfold position?
    rw [if_neg (by omega), if_pos (by omega)]
    congr 1
    omega
  have hfirst : position? (env .states).extent.cols 0 = some 0 := by
    rw [hcols]
    exact position?_natCast (k := 0) hsize
  obtain ⟨initial, hinitial, hinitial'⟩ := hwhole .initialTime
  obtain ⟨initialStates, hinitialStates, hinitialStates'⟩ :=
    Scheme.columnOf_reads h.extents hfirst
  obtain ⟨final, hfinal, hfinal'⟩ := hwhole .finalTime
  obtain ⟨finalStates, hfinalStates, hfinalStates'⟩ := Scheme.columnOf_reads h.extents hlast
  obtain ⟨parameters, hparameters, hparameters'⟩ := hwhole .parameters
  refine ⟨_, by
    unfold Scheme.endpointArguments
    rw [Scheme.extentOf_eq h.extents, hinitial, hinitialStates, hfinal, hfinalStates, hparameters]
    rfl, ?_⟩
  intro input
  cases input with
  | initialTime => exact hinitial'
  | initialStates => exact hinitialStates'
  | finalTime => exact hfinal'
  | finalStates => exact hfinalStates'
  | parameters => exact hparameters'

end Placed
end Placed

/-! ## Times -/

section Times

variable {points : Array (Extended K)} {env : Kind → Matrix (Extended K)}

/-- Between finite end times the times are those of the law, in another order of the sum. -/
theorem timesExpr_isColumn (hpos : 0 < points.size)
    (hinitialValue : ∃ x, (env .initialTime).get 0 = finite x)
    (hfinalValue : ∃ x, (env .finalTime).get 0 = finite x)
    (hinitial : (env .initialTime).extent = .unit) (hfinal : (env .finalTime).extent = .unit) :
    (Scheme.timesExpr points (.symbol .initialTime .unit) (.symbol .finalTime .unit)).IsColumn env
      points.size fun k => (Scheme.timesBetween points ((env .initialTime).get 0)
        ((env .finalTime).get 0)).getD k default := by
  obtain ⟨t₀, ht₀⟩ := hinitialValue
  obtain ⟨t₁, ht₁⟩ := hfinalValue
  have hget : ∀ k < points.size,
      (Scheme.timesBetween points (finite t₀) (finite t₁)).getD k default =
        finite t₀ + points.getD k default * (finite t₁ - finite t₀) := by
    intro k hk
    simp [Scheme.timesBetween, hk]
  have hsymbol : ∀ {k : Kind} {t : K}, (env k).extent = .unit → (env k).get 0 = finite t →
      (Expr.symbol k .unit).IsColumn env 1 fun _ => finite t := by
    intro k t hk ht
    exact ht ▸ Expr.IsColumn.symbol hk
  have hinitialColumn := hsymbol hinitial ht₀
  have hfinalColumn := hsymbol hfinal ht₁
  rw [ht₀, ht₁]
  unfold Scheme.timesExpr
  simp only
  -- a single grid point at an end has the time of that end
  by_cases hzero : (points.size = 1 && Number.equal (points.getD 0 default) Number.zero) = true
  · rw [if_pos hzero]
    rw [Bool.and_eq_true, decide_eq_true_iff, equal_iff, zero_eq] at hzero
    rw [hzero.1]
    apply hinitialColumn.congr
    intro k hk
    obtain rfl : k = 0 := by omega
    rw [hget 0 hpos, hzero.2.2, finite_sub, finite_mul, finite_add, zero_mul, add_zero]
  rw [if_neg hzero]
  by_cases hone : (points.size = 1 && Number.equal (points.getD 0 default) Number.one) = true
  · rw [if_pos hone]
    rw [Bool.and_eq_true, decide_eq_true_iff, equal_iff, one_eq] at hone
    rw [hone.1]
    apply hfinalColumn.congr
    intro k hk
    obtain rfl : k = 0 := by omega
    rw [hget 0 hpos, hone.2.2, finite_sub, finite_mul, finite_add, one_mul, add_sub_cancel]
  rw [if_neg hone]
  have hgrid : (Expr.const (Matrix.column points)).IsColumn env points.size fun k =>
      points.getD k default := ⟨.const _, fun _ _ => rfl⟩
  have hduration := hfinalColumn.zip .sub hinitialColumn
  apply ((hduration.scale .mul hgrid).scaleRight .add hinitialColumn).congr
  intro k hk
  rw [hget k hk, add_commutes, mul_commutes]
  rfl

theorem Ready.placed {p : Problem (Extended K)} {s : Scheme (Extended K)}
    (h : Ready p points env s) : Placed points env s := by
  have hpos : 0 < points.size := Nat.zero_lt_of_lt h.two_le
  exact ⟨hpos, h.extents, fun _ hk => h.cols_eq hk, _, h.times,
    timesExpr_isColumn hpos (h.finite_values _ _) (h.finite_values _ _) h.time_extent.1
      h.time_extent.2⟩

end Times
end Collocation
