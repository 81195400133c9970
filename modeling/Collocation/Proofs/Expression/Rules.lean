import Collocation.Expression.Rules
import Collocation.Proofs.Expression.Sound

/-! # Sound rules

  Every rule for two operands takes sound expressions to sound ones: its result fits wherever the
  operands fit, and an operation that it takes up instead is nearer to the end. One lemma for each
  rule, of one form, and from them the soundness of every elementwise operation. -/

namespace Collocation
namespace Sized

variable {σ α : Type} [Number α] {Γ : σ → Extent} {u : Extent} {a b : Sized σ α}
  {f : BinaryOp}

/-! ## Steps -/

/-- A bound for the steps that an operation can still take: each takes away a leading operation,
    or moves a constant to the left. -/
def reach (a b : Sized σ α) : Nat :=
  2 * (a.expr.leading + b.expr.leading) + if a.expr.isConst then 0 else 1

/-- The result of a step fits to the size `u`; another operation has operands that fit and a
    reach below the bound. -/
def Step.Sound (Γ : σ → Extent) (u : Extent) (bound : Nat) : Step σ α → Prop
  | .done e => e.Fits Γ u
  | .instead _ _ a b => a.Fits Γ u ∧ b.Fits Γ u ∧ reach a b < bound

theorem reach_lt {c d : Sized σ α}
    (h : c.expr.leading + d.expr.leading < a.expr.leading + b.expr.leading) :
    reach c d < reach a b := by
  unfold reach
  split <;> split <;> omega

/-! An operation is nearer to the end with what was under an operation on one matrix. -/

theorem reach_left_part {g : UnaryOp} {x : Expr σ α} (he : a.expr = .map g x) :
    reach (a.part x) b < reach a b := by
  apply reach_lt
  simp only [part, he, Expr.leading]
  omega

theorem reach_part_left {g : UnaryOp} {x : Expr σ α} (he : a.expr = .map g x) :
    reach b (a.part x) < reach a b := by
  apply reach_lt
  simp only [part, he, Expr.leading]
  omega

theorem reach_part_right {g : UnaryOp} {y : Expr σ α} (he : b.expr = .map g y) :
    reach a (b.part y) < reach a b := by
  apply reach_lt
  simp only [part, he, Expr.leading]
  omega

theorem fits_constant (h : a.extent = u ∨ a.extent = .unit) (x : α) :
    (constant a.extent x : Sized σ α).Fits Γ u :=
  ⟨sound_constant _ x, h⟩

omit [Number α] in
/-- The size that two operands have in common. -/
theorem commonExtent_fits {s t : Extent} (hs : s = u ∨ s = .unit) (ht : t = u ∨ t = .unit) :
    Matrix.commonExtent s t = u ∨ Matrix.commonExtent s t = .unit := by
  unfold Matrix.commonExtent
  split
  · exact ht
  · exact hs

omit [Number α] in
/-- Two operands that fit to one size fit together. -/
theorem zipExtent?_of_fits {s t : Extent} (hs : s = u ∨ s = .unit) (ht : t = u ∨ t = .unit) :
    Expr.zipExtent? s t = some (Matrix.commonExtent s t) := by
  unfold Expr.zipExtent? Expr.sizeIf
  grind

/-! ## One rule at a time -/

variable {r : Step σ α}

theorem hollowFactor?_sound (ha : a.Fits Γ u) (hb : b.Fits Γ u)
    (h : hollowFactor? f a b = some r) : r.Sound Γ u (reach a b) := by
  unfold hollowFactor? at h
  split at h
  · cases h
    exact ⟨sound_hollow _, commonExtent_fits ha.extent hb.extent⟩
  · cases h

theorem constantLeft?_sound (hb : b.Fits Γ u) (h : constantLeft? f a b = some r) :
    r.Sound Γ u (reach a b) := by
  -- whichever constant it is, the other operand remains or is mapped
  have hmap : ∀ g, (b.map g).Fits Γ u := hb.map
  unfold constantLeft? at h
  obtain ⟨x, -, h⟩ := Option.bind_eq_some_iff.mp h
  cases f with
  | add =>
    simp only [Option.pure_def] at h
    split_ifs at h
    cases h
    exact hb
  | sub =>
    simp only [Option.pure_def] at h
    split_ifs at h
    cases h
    exact hmap _
  | mul =>
    simp only [Option.pure_def] at h
    split_ifs at h <;> cases h
    · exact hb
    · exact hmap _
    · exact hmap _
  | div =>
    simp only [Option.pure_def] at h
    split_ifs at h <;> cases h
    · exact hmap _
    · exact (hmap _).map _
  | power | least | greatest => cases h

theorem constants?_sound (ha : a.Fits Γ u) (hb : b.Fits Γ u) (h : constants? f a b = some r) :
    r.Sound Γ u (reach a b) := by
  unfold constants? at h
  obtain ⟨m, hm, h⟩ := Option.bind_eq_some_iff.mp h
  obtain ⟨n, hn, h⟩ := Option.bind_eq_some_iff.mp h
  cases h
  -- the two constants are as large as the operands that they are
  have hm' := ha.extent
  have hn' := hb.extent
  rw [← Expr.extent_of_matrix? ha.size hm] at hm'
  rw [← Expr.extent_of_matrix? hb.size hn] at hn'
  refine ⟨sound_ofMatrix _, ?_⟩
  show (Matrix.zip f.apply m n).extent = u ∨ _
  rw [ofMatrix, Matrix.extent_zip (zipExtent?_of_fits hm' hn')]
  exact commonExtent_fits hm' hn'

theorem zeroFactor?_sound (ha : a.Fits Γ u) (h : zeroFactor? f a b = some r) :
    r.Sound Γ u (reach a b) := by
  unfold zeroFactor? at h
  split at h
  · cases h
    exact fits_constant ha.extent _
  · cases h

theorem zeroDivisor?_sound (ha : a.Fits Γ u) (h : zeroDivisor? f a b = some r) :
    r.Sound Γ u (reach a b) := by
  unfold zeroDivisor? at h
  split at h
  · cases h
    exact fits_constant ha.extent _
  · cases h

theorem constantRight?_sound (ha : a.Fits Γ u) (hb : b.Fits Γ u)
    (h : constantRight? f a b = some r) : r.Sound Γ u (reach a b) := by
  have hmap : ∀ g, (a.map g).Fits Γ u := ha.map
  unfold constantRight? at h
  obtain ⟨y, hy, h⟩ := Option.bind_eq_some_iff.mp h
  simp only [Option.pure_def] at h
  split at h
  · next hswap =>
    -- the constant moves to the left, and the expression there was none
    cases h
    have hconst : b.expr.isConst := by
      unfold Expr.constant? at hy
      obtain ⟨m, hm, -⟩ := Option.bind_eq_some_iff.mp hy
      simp [Expr.isConst, hm]
    refine ⟨hb, ha, ?_⟩
    simp only [Bool.and_eq_true, Bool.not_eq_true'] at hswap
    unfold reach
    rw [hconst, hswap.2]
    simp only [if_true, Bool.false_eq_true, if_false]
    omega
  · cases f with
    | power =>
      simp only at h
      split_ifs at h <;> cases h
      · exact hmap _
      · exact fits_constant ha.extent _
      · exact ha
      · exact hmap _
    | add | sub | mul =>
      simp only at h
      split_ifs at h
      cases h
      exact ha
    | div =>
      simp only at h
      split_ifs at h <;> cases h
      · exact ha
      · exact hmap _
    | least | greatest => cases h

/-- Of an operation on the left that meets this one, only what it was applied to remains. -/
theorem outermostLeft?_sound [DecidableEq σ] (ha : a.Fits Γ u) (hb : b.Fits Γ u)
    (h : outermostLeft? f a b = some r) : r.Sound Γ u (reach a b) := by
  unfold outermostLeft? at h
  split at h
  -- another operation takes over, with what the one on the left was applied to
  case h_1 x he | h_4 x he =>
    cases h
    exact ⟨hb, ha.of_map he, reach_part_left he⟩
  case h_2 x he | h_3 x he =>
    cases h
    exact ⟨ha.of_map he, hb, reach_left_part he⟩
  -- the two cancel each other
  case h_5 x he =>
    split_ifs at h
    cases h
    exact ha.of_map he
  case h_6 x he =>
    split at h
    · split_ifs at h
      cases h
      exact fits_constant ha.extent _
    · cases h
  -- one operand of an elementwise operation on the left remains
  case h_7 x y he =>
    obtain ⟨hx, hy⟩ := ha.of_zip he
    split_ifs at h <;> cases h
    · exact hy
    · exact hx
  case h_8 x y he =>
    obtain ⟨-, hy⟩ := ha.of_zip he
    split_ifs at h
    cases h
    exact hy.map _
  case h_9 x y he =>
    obtain ⟨hx, -⟩ := ha.of_zip he
    split_ifs at h
    cases h
    exact hx
  case h_10 => cases h

theorem outermostRight?_sound (ha : a.Fits Γ u) (hb : b.Fits Γ u)
    (h : outermostRight? f a b = some r) : r.Sound Γ u (reach a b) := by
  unfold outermostRight? at h
  split at h
  case h_1 y he | h_2 y he | h_3 y he | h_4 y he | h_5 y he | h_6 y he =>
    cases h
    exact ⟨ha, hb.of_map he, reach_part_right he⟩
  case h_7 => cases h

theorem equalSides?_sound [DecidableEq σ] (ha : a.Fits Γ u) (h : equalSides? f a b = some r) :
    r.Sound Γ u (reach a b) := by
  unfold equalSides? at h
  split at h
  · cases f with
    | add | mul =>
      cases h
      exact ha.map _
    | sub | div =>
      cases h
      exact fits_constant ha.extent _
    | power | least | greatest => cases h
  · cases h

/-! ## Single numbers -/

/-- Half of an expression is of one of its parts. -/
theorem half?_fits {s : Bool} {x : Expr σ α} (ha : a.Fits Γ u) (h : half? a.expr = some (s, x)) :
    (a.part x).Fits Γ u := by
  unfold half? at h
  split at h
  case h_1 he =>
    split_ifs at h
    cases h
    exact (ha.of_zip he).2
  case h_2 he =>
    split_ifs at h
    cases h
    exact (ha.of_zip he).1
  case h_3 => cases h

theorem singleSum?_sound [DecidableEq σ] (ha : a.Fits Γ u) (hb : b.Fits Γ u)
    (h : singleSum? a b = some r) : r.Sound Γ u (reach a b) := by
  unfold singleSum? at h
  split at h
  case h_1 hx hy =>
    split_ifs at h
    cases h
    exact half?_fits ha hx
  case h_2 =>
    split at h
    case h_1 x y he =>
      split_ifs at h
      cases h
      exact (hb.of_zip he).1
    case h_2 => cases h

omit [Number α] in
/-- One of two alternatives. -/
theorem of_orElse {β : Type} {x y : Option β} {z : β} (h : (x <|> y) = some z) :
    x = some z ∨ y = some z := by
  cases x with
  | some w => exact .inl h
  | none => exact .inr h

theorem singleDifference?_sound [DecidableEq σ] (ha : a.Fits Γ u) (hb : b.Fits Γ u)
    (h : singleDifference? a b = some r) : r.Sound Γ u (reach a b) := by
  unfold singleDifference? at h
  rcases of_orElse h with h | h
  · -- what is taken away is a sum or a difference with the same expression
    split at h
    case h_1 x y he =>
      obtain ⟨hx, hy⟩ := hb.of_zip he
      split_ifs at h <;> cases h
      · exact hx.map _
      · exact hy.map _
    case h_2 y he =>
      split_ifs at h
      cases h
      exact ha.map _
    case h_3 => cases h
  · rcases of_orElse h with h | h
    · exact outermostRight?_sound ha hb h
    · split at h
      case h_1 x he =>
        cases h
        exact ⟨ha.of_map he, hb, reach_left_part he⟩
      case h_2 => cases h

theorem scaled?_fits {c : α} {x : Expr σ α} (hb : b.Fits Γ u) (h : scaled? c b.expr = some x) :
    (b.part x).Fits Γ u := by
  unfold scaled? at h
  split at h
  case h_1 he =>
    split at h
    · split_ifs at h
      cases h
      exact (hb.of_zip he).2
    · cases h
  case h_2 he =>
    split at h
    · split_ifs at h
      cases h
      exact (hb.of_zip he).1
    · cases h
  case h_3 => cases h

theorem withoutDivisor?_fits [DecidableEq σ] {divisor x : Expr σ α} (ha : a.Fits Γ u)
    (h : withoutDivisor? divisor a.expr = some x) : (a.part x).Fits Γ u := by
  unfold withoutDivisor? at h
  split at h
  case h_1 he =>
    split_ifs at h
    cases h
    exact (ha.of_zip he).1
  case h_2 => cases h

theorem withoutFactor?_fits [DecidableEq σ] {factor x : Expr σ α} (ha : a.Fits Γ u)
    (h : withoutFactor? factor a.expr = some x) : (a.part x).Fits Γ u := by
  unfold withoutFactor? at h
  split at h
  case h_1 he =>
    obtain ⟨hx, hy⟩ := ha.of_zip he
    split_ifs at h <;> cases h
    · exact hy
    · exact hx
  case h_2 => cases h

/-- Beside which expression a part is looked at makes no difference. -/
theorem Fits.part {x : Expr σ α} (h : (b.part x).Fits Γ u) : (a.part x).Fits Γ u := by
  have hx : x.HasSize Γ (b.part x).extent := h.size
  refine ⟨.part hx h.settled, ?_⟩
  rw [part_extent hx]
  exact h.extent

theorem singleProduct?_sound [DecidableEq σ] (ha : a.Fits Γ u) (hb : b.Fits Γ u)
    (h : singleProduct? a b = some r) : r.Sound Γ u (reach a b) := by
  unfold singleProduct? at h
  obtain ⟨x, hx, h⟩ := Option.map_eq_some_iff.mp h
  cases h
  -- factors that cancel, then a divisor of the left one, then of the right one
  rcases of_orElse hx with hx | hx
  · obtain ⟨c, -, hx⟩ := Option.bind_eq_some_iff.mp hx
    exact (scaled?_fits hb hx).part
  rcases of_orElse hx with hx | hx
  · exact withoutDivisor?_fits ha hx
  · exact (withoutDivisor?_fits hb hx).part

theorem fits_number (ha : a.Fits Γ u) (hunit : a.extent = .unit) (x : α) :
    (number x : Sized σ α).Fits Γ u := by
  have h := fits_constant ha.extent x (Γ := Γ)
  rwa [hunit] at h

theorem singleShare?_sound {c : α} {bound : Nat} (ha : a.Fits Γ u) (hunit : a.extent = .unit)
    (h : singleShare? a c = some r) : r.Sound Γ u bound := by
  unfold singleShare? at h
  simp only at h
  split at h
  · cases h
    exact fits_number ha hunit _
  split at h
  · cases h
    exact ha.map _
  split at h
  case h_1 x he =>
    split_ifs at h
    cases h
    exact ha.of_map he
  case h_2 x d he =>
    split at h
    · split_ifs at h
      cases h
      exact (ha.of_zip he).1
    · cases h
  case h_3 => cases h

theorem singleRatio?_sound [DecidableEq σ] (ha : a.Fits Γ u) (hb : b.Fits Γ u)
    (hunit : a.extent = .unit) (h : singleRatio? a b = some r) : r.Sound Γ u (reach a b) := by
  unfold singleRatio? at h
  split at h
  case h_1 x y hx hy =>
    cases h
    refine ⟨ha.of_map hx, hb.of_map hy, reach_lt ?_⟩
    simp only [part, hx, hy, Expr.leading]
    omega
  case h_2 x y he =>
    split_ifs at h
    cases h
    exact (hb.of_zip he).1.map _
  case h_3 y he =>
    split_ifs at h
    cases h
    exact fits_number ha hunit _
  case h_4 x y he _ _ =>
    split_ifs at h
    cases h
    exact (ha.of_zip he).2.map _
  case h_5 => cases h

theorem singleQuotient?_sound [DecidableEq σ] (ha : a.Fits Γ u) (hb : b.Fits Γ u)
    (hunit : a.extent = .unit) (h : singleQuotient? a b = some r) :
    r.Sound Γ u (reach a b) := by
  unfold singleQuotient? at h
  rcases of_orElse h with h | h
  · obtain ⟨c, -, h⟩ := Option.bind_eq_some_iff.mp h
    exact singleShare?_sound ha hunit h
  rcases of_orElse h with h | h
  · obtain ⟨x, hx, h⟩ := Option.map_eq_some_iff.mp h
    cases h
    exact withoutFactor?_fits ha hx
  · exact singleRatio?_sound ha hb hunit h

theorem extremeSide?_sound {last : α} {bound : Nat} (ha : a.Fits Γ u) (hb : b.Fits Γ u)
    (h : extremeSide? last a b = some r) : r.Sound Γ u bound := by
  unfold extremeSide? at h
  split_ifs at h <;> cases h
  · exact ha
  · exact hb

theorem single?_sound [DecidableEq σ] (ha : a.Fits Γ u) (hb : b.Fits Γ u)
    (h : single? f a b = some r) : r.Sound Γ u (reach a b) := by
  unfold single? at h
  split at h
  · cases h
  · next hsingle =>
    have hunit : a.extent = .unit := by
      simp only [Bool.or_eq_true, decide_eq_true_eq, not_or, ne_eq, Decidable.not_not] at hsingle
      exact hsingle.1.1.1
    cases f with
    | add => exact singleSum?_sound ha hb h
    | sub => exact singleDifference?_sound ha hb h
    | mul => exact singleProduct?_sound ha hb h
    | div => exact singleQuotient?_sound ha hb hunit h
    | least | greatest =>
      rcases of_orElse h with h | h
      · exact extremeSide?_sound ha hb h
      · exact extremeSide?_sound hb ha h
    | power => cases h

/-! ## All rules -/

/-- The operation as it stands is sound where no rule for constants applies. -/
theorem plain_fits (ha : a.Fits Γ u) (hb : b.Fits Γ u) (hconst : constants? f a b = none)
    (hzero : zeroFactor? f a b = none) : (plain f a b).Fits Γ u := by
  -- two zeros are two constants
  have hboth : ¬(a.isZero = true ∧ b.isZero = true) := by
    rintro ⟨hza, hzb⟩
    unfold isZero Expr.isZero Expr.isConstant Expr.constant? at hza hzb
    unfold constants? at hconst
    cases hm : a.expr.matrix? <;> cases hn : b.expr.matrix? <;> simp_all
  -- on sound operands to vanish is to be zero, and the zeros have been dealt with
  have hvanishes : (Expr.zip f a.expr b.expr).vanishes = false := by
    have hva := Expr.vanishes_eq_isZero ha.settled
    have hvb := Expr.vanishes_eq_isZero hb.settled
    change _ = a.isZero at hva
    change _ = b.isZero at hvb
    unfold zeroFactor? at hzero
    cases f with
    | add | sub =>
      show (a.expr.vanishes && b.expr.vanishes) = false
      rw [hva, hvb]
      simpa using hboth
    | mul =>
      show (a.expr.vanishes || b.expr.vanishes) = false
      rw [hva, hvb]
      simpa using hzero
    | div | power | least | greatest => rfl
  exact ⟨⟨.zip f ha.size hb.size (zipExtent?_of_fits ha.extent hb.extent),
    ha.settled, hb.settled, hvanishes⟩, commonExtent_fits ha.extent hb.extent⟩

theorem step_sound [DecidableEq σ] (ha : a.Fits Γ u) (hb : b.Fits Γ u) :
    (step f a b).Sound Γ u (reach a b) := by
  unfold step
  simp only
  -- the first rule that applies decides, and each of them is sound
  generalize hr : List.findSome? _ _ = r
  cases r with
  | none =>
    rw [List.findSome?_eq_none_iff] at hr
    exact plain_fits ha hb (hr constants? (by simp)) (hr zeroFactor? (by simp))
  | some r =>
    obtain ⟨rule, hmem, h⟩ := List.exists_of_findSome?_eq_some hr
    simp only [List.mem_cons, List.not_mem_nil, or_false] at hmem
    rcases hmem with rfl | rfl | rfl | rfl | rfl | rfl | rfl | rfl | rfl | rfl
    · exact hollowFactor?_sound ha hb h
    · exact constantLeft?_sound hb h
    · exact constants?_sound ha hb h
    · exact outermostLeft?_sound ha hb h
    · exact zeroFactor?_sound ha h
    · exact equalSides?_sound ha h
    · exact single?_sound ha hb h
    · exact zeroDivisor?_sound ha h
    · exact constantRight?_sound ha hb h
    · exact outermostRight?_sound ha hb h

/-- With more steps than the operation can take the last one is a result. -/
theorem zipSteps_fits [DecidableEq σ] {fuel : Nat} (ha : a.Fits Γ u) (hb : b.Fits Γ u)
    (hfuel : reach a b < fuel) : (zipSteps fuel f a b).Fits Γ u := by
  -- the reach goes down with every step, so the fuel does not run out before the result
  induction fuel generalizing f a b with
  | zero => omega
  | succ fuel ih =>
    have hstep := step_sound (f := f) ha hb
    unfold zipSteps
    cases hs : step f a b with
    | done e =>
      rw [hs] at hstep
      exact hstep
    | instead negated g c d =>
      rw [hs] at hstep
      obtain ⟨hc, hd, hreach⟩ := hstep
      have he := ih (f := g) hc hd (by omega)
      simp only
      split
      · exact he.map _
      · exact he

theorem simplified_fits [DecidableEq σ] (ha : a.Fits Γ u) (hb : b.Fits Γ u) :
    (simplified f a b).Fits Γ u := by
  apply zipSteps_fits ha hb
  unfold reach
  split <;> omega

/-! ## Elementwise operations -/

theorem wholePower_fits [DecidableEq σ] (ha : a.Fits Γ u) (hunit : a.extent = .unit) (n : Nat) :
    (wholePower a n).Fits Γ u := by
  fun_induction wholePower a n with
  | case1 => exact fits_number ha hunit _
  | case2 n hn hodd ih => exact simplified_fits ha ih
  | case3 n hn heven ih => exact ih.map _

theorem singlePower?_fits [DecidableEq σ] {e : Sized σ α} (ha : a.Fits Γ u)
    (h : singlePower? a b = some e) : e.Fits Γ u := by
  unfold singlePower? at h
  split at h
  · cases h
  · next hsingle =>
    have hunit : a.extent = .unit := by
      simp only [Bool.or_eq_true, decide_eq_true_eq, not_or, ne_eq, Decidable.not_not] at hsingle
      exact hsingle.1.1.1
    -- a whole exponent, which may be negative
    have hwhole := wholePower_fits ha hunit
    obtain ⟨y, -, h⟩ := Option.bind_eq_some_iff.mp h
    split at h
    · cases h
      exact ha.map _
    obtain ⟨n, -, h⟩ := Option.bind_eq_some_iff.mp h
    simp only [Option.pure_def, Option.bind_eq_bind, Option.bind_none,
      Option.ite_none_left_eq_some] at h
    obtain ⟨-, h⟩ := h
    cases h
    split
    · exact (hwhole _).map _
    · exact hwhole _

/-- An elementwise operation on operands that fit together. -/
theorem zip_sound [DecidableEq σ] (ha : a.Sound Γ) (hb : b.Sound Γ)
    (hfit : a.extent = b.extent ∨ a.extent = .unit ∨ b.extent = .unit) :
    (zip f a b).Sound Γ := by
  have ha' : a.Fits Γ (Matrix.commonExtent a.extent b.extent) := by
    refine ⟨ha, ?_⟩
    unfold Matrix.commonExtent
    grind
  have hb' : b.Fits Γ (Matrix.commonExtent a.extent b.extent) := by
    refine ⟨hb, ?_⟩
    unfold Matrix.commonExtent
    grind
  unfold zip
  simp only
  generalize hpower : (if f = .power then singlePower? a b else none) = power
  have he : (power.getD (simplified f a b)).Fits Γ (Matrix.commonExtent a.extent b.extent) := by
    cases power with
    | none => exact simplified_fits ha' hb'
    | some e =>
      split_ifs at hpower
      exact singlePower?_fits ha' hpower
  split
  · exact he.toSound
  · exact he.spread.1

end Sized
end Collocation
