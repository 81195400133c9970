import Collocation.Proofs.Expression.Value

/-! # The rules keep values

  Every rule for two operands keeps the value of the operation, for single numbers and wherever
  this value is finite: nothing infinite or undefined was in an operand that has disappeared. Sums
  and differences have no restriction, products and quotients have a constant on the left, as the
  weight of a cost is. One lemma for each rule, and from them the value of a whole simplification.
  That the squares of a sine and a cosine add up to one is assumed of the elementary functions. -/

namespace Collocation

open Extended

variable {σ K : Type} [Field K] [LinearOrder K] [FloorRing K] [Interpretation K]

/-- Sine and cosine, where both are finite, are on the unit circle. -/
def Extended.Circular (K : Type) [Field K] [LinearOrder K] [FloorRing K] [Interpretation K] :
    Prop :=
  ∀ (a : Extended K) (s c : K), Number.apply .sin a = finite s →
    Number.apply .cos a = finite c → s * s + c * c = 1

variable {env : σ → Matrix (Extended K)} {a b : Sized σ (Extended K)} {f : BinaryOp}
  {x y : Expr σ (Extended K)} {z : K}

namespace Sized

/-! ## What a rule gives -/

/-- Sums and differences, and products and quotients with a constant on the left. -/
def Linear (f : BinaryOp) (a : Sized σ (Extended K)) : Prop :=
  match f with
  | .add | .sub => True
  | .mul | .div => a.expr.isConst
  | .power | .least | .greatest => False

/-- The result has the value `z`, or the operation to be carried out instead has it. -/
def Step.Gives (env : σ → Matrix (Extended K)) (z : K) : Step σ (Extended K) → Prop
  | .done e => e.value env = finite z
  | .instead negated f a b =>
    Linear f a ∧ f.apply (a.value env) (b.value env) = finite (if negated then -z else z)

theorem not_isConst_of_map {α : Type} [Number α] {a : Sized σ α} {g : UnaryOp} {x : Expr σ α}
    (he : a.expr = .map g x) : ¬a.expr.isConst := by
  rw [he]
  exact Bool.false_ne_true

theorem not_isConst_of_zip {α : Type} [Number α] {a : Sized σ α} {f : BinaryOp}
    {x y : Expr σ α} (he : a.expr = .zip f x y) : ¬a.expr.isConst := by
  rw [he]
  exact Bool.false_ne_true

theorem eq_of_equal_ofInt {c : Extended K} {n : Int}
    (h : Number.equal c (Number.ofInt n)) : c = finite (n : K) :=
  (equal_iff.mp h).2

/-- A sine or a cosine has the value of one. -/
theorem value_of_circular? {sine : Bool} (ha : a.Single env)
    (h : circular? a.expr = some (sine, x)) :
    (a.part x).Single env ∧
      a.value env = Number.apply (if sine then .sin else .cos) ((a.part x).value env) := by
  unfold circular? at h
  split at h
  · next he =>
    cases h
    exact ⟨ha.of_map he, value_of_map ha he⟩
  · next he =>
    cases h
    exact ⟨ha.of_map he, value_of_map ha he⟩
  · cases h

/-- The squares of the sine and of the cosine of one number add up to one. -/
theorem eq_one_of_onCircle [DecidableEq σ] (hcircle : Circular K) (ha : a.Single env)
    (hb : b.Single env) (hon : onCircle a.expr b.expr)
    (hz : a.value env * a.value env + b.value env * b.value env = finite z) : z = 1 := by
  unfold onCircle at hon
  split at hon
  · next s x t y hx hy =>
    obtain ⟨hne, hsame⟩ := Bool.and_eq_true_iff.mp hon
    obtain ⟨hx', hvx⟩ := value_of_circular? ha hx
    obtain ⟨hy', hvy⟩ := value_of_circular? hb hy
    rw [value_of_same hx' hy' hsame] at hvx
    obtain ⟨_, _, hp, hq, hpq⟩ := add_eq_finite hz
    obtain ⟨p, p', hpv, hpv', hpp⟩ := mul_eq_finite hp
    obtain ⟨q, q', hqv, hqv', hqq⟩ := mul_eq_finite hq
    obtain rfl := Extended.finite.inj (hpv.symm.trans hpv')
    obtain rfl := Extended.finite.inj (hqv.symm.trans hqv')
    rw [hpv] at hvx
    rw [hqv] at hvy
    -- one of the two is the sine
    cases s with
    | true =>
      cases t with
      | true => cases hne
      | false => rw [← hpq, ← hpp, ← hqq, hcircle _ p q hvx.symm hvy.symm]
    | false =>
      cases t with
      | true => rw [← hpq, ← hpp, ← hqq, add_comm, hcircle _ q p hvy.symm hvx.symm]
      | false => cases hne
  · cases hon

section Rules

variable {r : Step σ (Extended K)} (ha : a.Single env) (hb : b.Single env) (hf : Linear f a)
  (hz : f.apply (a.value env) (b.value env) = finite z)

include ha hb hz

theorem hollowFactor?_gives (h : hollowFactor? f a b = some r) : r.Gives env z := by
  unfold hollowFactor? at h
  split at h
  · next hwhich =>
    cases h
    have hextent : Matrix.commonExtent a.extent b.extent = .unit := by
      rw [Matrix.commonExtent, ha.unit_eq, hb.unit_eq, if_pos rfl]
    have hzero : z = 0 := by
      rw [Bool.or_eq_true, Bool.and_eq_true, Bool.and_eq_true, Bool.or_eq_true,
        decide_eq_true_iff, decide_eq_true_iff] at hwhich
      rcases hwhich with ⟨rfl, hleft | hright⟩ | ⟨rfl, hleft⟩
      · rw [value_of_isHollow ha hleft] at hz
        exact eq_zero_of_zero_mul hz
      · rw [value_of_isHollow hb hright] at hz
        exact eq_zero_of_zero_mul ((mul_commutes _ _).trans hz)
      · rw [value_of_isHollow ha hleft] at hz
        exact eq_zero_of_zero_div hz
    rw [Step.Gives, hextent, hzero]
    exact value_hollow
  · cases h

theorem constantLeft?_gives (h : constantLeft? f a b = some r) : r.Gives env z := by
  unfold constantLeft? at h
  obtain ⟨c, hc, h⟩ := Option.bind_eq_some_iff.mp h
  rw [value_of_constant? ha hc] at hz
  cases f with
  | add =>
    simp only [Option.pure_def] at h
    split_ifs at h with h0
    cases h
    rw [eq_of_equal_ofInt h0, Int.cast_zero] at hz
    exact (finite_zero_add _).symm.trans hz
  | sub =>
    simp only [Option.pure_def] at h
    split_ifs at h with h0
    cases h
    rw [eq_of_equal_ofInt h0, Int.cast_zero] at hz
    exact value_map hb rfl (neg_of_zero_sub hz)
  | mul =>
    simp only [Option.pure_def] at h
    split_ifs at h with h1 hneg h2 <;> cases h
    · rw [eq_of_equal_ofInt h1, Int.cast_one] at hz
      exact eq_of_one_mul hz
    · rw [eq_of_equal_ofInt hneg, Int.cast_neg, Int.cast_one] at hz
      exact value_map hb rfl (neg_of_neg_one_mul hz)
    · rw [eq_of_equal_ofInt h2, Int.cast_ofNat] at hz
      exact value_map hb rfl (add_self_of_two_mul hz)
  | div =>
    simp only [Option.pure_def] at h
    split_ifs at h with h1 hneg <;> cases h
    · rw [eq_of_equal_ofInt h1, Int.cast_one, ← one_eq] at hz
      exact value_map hb rfl hz
    · rw [eq_of_equal_ofInt hneg, Int.cast_neg, Int.cast_one] at hz
      have hinverse := div_of_neg_one_div hz
      rw [← one_eq] at hinverse
      have hmap := value_map (g := .inverse) hb rfl hinverse
      refine value_map (hb.map .inverse) rfl ?_
      rw [hmap]
      exact (finite_neg _).trans (by rw [neg_neg])
  | power | least | greatest => cases h

theorem constants?_gives (h : constants? f a b = some r) : r.Gives env z := by
  unfold constants? at h
  obtain ⟨m, hm, h⟩ := Option.bind_eq_some_iff.mp h
  obtain ⟨n, hn, h⟩ := Option.bind_eq_some_iff.mp h
  cases h
  have hm' := Expr.extent_of_matrix? ha.unit_size hm
  have hn' := Expr.extent_of_matrix? hb.unit_size hn
  have hextent : (Matrix.zip f.apply m n).extent = .unit := by
    rw [Matrix.zip_eq_map hm']
    exact hn'
  have hpos : 0 < m.extent.size := by
    rw [hm', Extent.size_unit]
    exact Nat.one_pos
  rw [value_of_matrix? hm, value_of_matrix? hn] at hz
  rw [Step.Gives, value_ofMatrix hextent, Matrix.get_zip (hm'.trans hn'.symm) hpos, hz]

include hf

/-- A constant on the left has no outermost operation, so only sums and differences meet one. -/
theorem outermostLeft?_gives [DecidableEq σ] (hcircle : Circular K)
    (h : outermostLeft? f a b = some r) : r.Gives env z := by
  unfold outermostLeft? at h
  split at h
  case h_1 x he =>
    cases h
    rw [value_of_map ha he] at hz
    exact ⟨trivial, sub_of_neg_add hz⟩
  case h_2 x he | h_3 x he | h_4 x he => exact (not_isConst_of_map he hf).elim
  case h_5 x he =>
    split_ifs at h with hsame
    cases h
    rw [value_of_map ha he, value_of_same hb (ha.of_map he) hsame] at hz
    exact eq_of_add_sub_left hz
  case h_6 x he =>
    split at h
    · next y he' =>
      split_ifs at h with hon
      cases h
      rw [value_of_map ha he, value_of_map hb he'] at hz
      have hone := eq_one_of_onCircle hcircle (ha.of_map he) (hb.of_map he') hon hz
      rw [Step.Gives, ha.unit_eq, value_constant, one_eq, hone]
    · cases h
  case h_7 x y he =>
    obtain ⟨hx, hy⟩ := ha.of_zip he
    rw [value_of_zip ha he] at hz
    split_ifs at h with hsame hsame <;> cases h
    · rw [value_of_same hb hx hsame] at hz
      exact eq_of_add_sub_left hz
    · rw [value_of_same hb hy hsame] at hz
      exact eq_of_add_sub_right hz
  case h_8 x y he =>
    obtain ⟨hx, hy⟩ := ha.of_zip he
    rw [value_of_zip ha he] at hz
    split_ifs at h with hsame
    cases h
    rw [value_of_same hb hx hsame] at hz
    exact value_map hy rfl (neg_of_sub_sub hz)
  case h_9 x y he =>
    obtain ⟨hx, hy⟩ := ha.of_zip he
    rw [value_of_zip ha he] at hz
    split_ifs at h with hsame
    cases h
    rw [value_of_same hb hy hsame] at hz
    exact eq_of_sub_add hz
  case h_10 => cases h

theorem zeroFactor?_gives (h : zeroFactor? f a b = some r) : r.Gives env z := by
  unfold zeroFactor? at h
  split at h
  · next hwhich =>
    cases h
    have hzero : z = 0 := by
      rw [Bool.or_eq_true, Bool.and_eq_true, Bool.and_eq_true, Bool.or_eq_true,
        decide_eq_true_iff, decide_eq_true_iff] at hwhich
      rcases hwhich with ⟨rfl, hleft | hright⟩ | ⟨rfl, hleft⟩
      · rw [value_of_isZero ha hleft] at hz
        exact eq_zero_of_zero_mul hz
      · rw [value_of_isZero hb hright] at hz
        exact eq_zero_of_zero_mul ((mul_commutes _ _).trans hz)
      · rw [value_of_isZero ha hleft] at hz
        exact eq_zero_of_zero_div hz
    rw [Step.Gives, ha.unit_eq, value_constant, zero_eq, hzero]
  · cases h

theorem equalSides?_gives [DecidableEq σ] (h : equalSides? f a b = some r) : r.Gives env z := by
  unfold equalSides? at h
  split at h
  · next hsame =>
    rw [← value_of_same ha hb hsame] at hz
    cases f with
    | add =>
      cases h
      exact value_map ha rfl hz
    | sub =>
      cases h
      rw [Step.Gives, ha.unit_eq, value_constant, zero_eq, eq_zero_of_sub_self hz]
    | mul =>
      -- the left side is a constant, and so its square is one
      cases h
      obtain ⟨m, hm⟩ := Option.isSome_iff_exists.mp hf
      exact value_map_of_matrix? ha hm hz
    | div =>
      cases h
      rw [Step.Gives, ha.unit_eq, value_constant, one_eq, eq_one_of_div_self hz]
    | power | least | greatest => cases h
  · cases h

omit ha in
theorem zeroDivisor?_gives (h : zeroDivisor? f a b = some r) : r.Gives env z := by
  unfold zeroDivisor? at h
  split at h
  · next hwhich =>
    obtain ⟨hdiv, hzero⟩ := Bool.and_eq_true_iff.mp hwhich
    obtain rfl := of_decide_eq_true hdiv
    rw [value_of_isZero hb hzero] at hz
    exact (div_zero_ne_finite hz).elim
  · cases h

theorem constantRight?_gives (h : constantRight? f a b = some r) : r.Gives env z := by
  unfold constantRight? at h
  obtain ⟨c, hc, h⟩ := Option.bind_eq_some_iff.mp h
  simp only [Option.pure_def] at h
  split at h
  · next hswap =>
    -- only a sum changes the order of its sides, since a factor on the left is a constant
    cases h
    rw [Bool.and_eq_true, Bool.not_eq_true'] at hswap
    cases f with
    | add => exact ⟨trivial, (add_commutes _ _).trans hz⟩
    | mul => exact (Bool.false_ne_true (hswap.2.symm.trans hf)).elim
    | sub | div | power | least | greatest => cases hswap.1
  · rw [value_of_constant? hb hc] at hz
    cases f with
    | add =>
      simp only at h
      split_ifs at h with h0
      cases h
      rw [eq_of_equal_ofInt h0, Int.cast_zero] at hz
      exact (add_finite_zero _).symm.trans hz
    | sub =>
      simp only at h
      split_ifs at h with h0
      cases h
      rw [eq_of_equal_ofInt h0, Int.cast_zero] at hz
      exact (sub_finite_zero _).symm.trans hz
    | mul =>
      simp only at h
      split_ifs at h with h1
      cases h
      rw [eq_of_equal_ofInt h1, Int.cast_one] at hz
      exact eq_of_one_mul ((mul_commutes _ _).trans hz)
    | div =>
      simp only at h
      split_ifs at h with h1 hhalf <;> cases h
      · rw [eq_of_equal_ofInt h1, Int.cast_one] at hz
        exact div_one_eq hz
      · rw [(equal_iff.mp hhalf).2] at hz
        exact value_map ha rfl (add_self_of_div_half hz)
    | power | least | greatest => exact hf.elim

omit ha in
theorem outermostRight?_gives (h : outermostRight? f a b = some r) : r.Gives env z := by
  unfold outermostRight? at h
  split at h
  case h_1 y he =>
    cases h
    rw [value_of_map hb he] at hz
    exact ⟨trivial, sub_of_add_neg hz⟩
  case h_2 y he =>
    cases h
    rw [value_of_map hb he] at hz
    exact ⟨trivial, add_of_sub_neg hz⟩
  case h_3 y he =>
    cases h
    rw [value_of_map hb he] at hz
    exact ⟨hf, mul_of_mul_neg hz⟩
  case h_4 y he =>
    cases h
    rw [value_of_map hb he] at hz
    exact ⟨hf, div_of_div_neg hz⟩
  case h_5 y he =>
    cases h
    rw [value_of_map hb he, UnaryOp.apply, one_eq] at hz
    exact ⟨hf, div_of_mul_inverse hz⟩
  case h_6 y he =>
    cases h
    rw [value_of_map hb he, UnaryOp.apply, one_eq] at hz
    exact ⟨hf, mul_of_div_inverse hz⟩
  case h_7 => cases h

end Rules

/-! ## Rules for single numbers -/

section Single

variable [DecidableEq σ] {r : Step σ (Extended K)} (ha : a.Single env) (hb : b.Single env)

include ha

omit [DecidableEq σ] in
/-- Half of a number is a product or a quotient. -/
theorem value_of_half? {s : Bool} (h : half? a.expr = some (s, x)) :
    (a.part x).Single env ∧ a.value env =
      if s then Number.half * (a.part x).value env else (a.part x).value env / finite 2 := by
  unfold half? at h
  split at h
  case h_1 c x he =>
    obtain ⟨hc, hx⟩ := ha.of_zip he
    split_ifs at h with hhalf
    cases h
    refine ⟨hx, ?_⟩
    rw [value_of_zip ha he, value_of_isConstant hc hhalf, if_pos rfl]
    rfl
  case h_2 x c he =>
    obtain ⟨hx, hc⟩ := ha.of_zip he
    split_ifs at h with htwo
    cases h
    refine ⟨hx, ?_⟩
    rw [value_of_zip ha he, value_of_isConstant hc htwo, if_neg Bool.false_ne_true, ofInt_eq,
      Int.cast_ofNat]
    rfl
  case h_3 => cases h

include hb

theorem singleSum?_gives (hz : a.value env + b.value env = finite z)
    (h : singleSum? a b = some r) : r.Gives env z := by
  unfold singleSum? at h
  split at h
  case h_1 s x t y hx hy =>
    split_ifs at h with hsame
    cases h
    obtain ⟨hx', hvx⟩ := value_of_half? ha hx
    obtain ⟨hy', hvy⟩ := value_of_half? hb hy
    rw [hvx, hvy, ← hsame.1, ← value_of_same hx' hy' hsame.2] at hz
    cases s with
    | true => exact eq_of_add_halves hz
    | false => exact eq_of_add_halved hz
  case h_2 =>
    split at h
    case h_1 x y he =>
      obtain ⟨hx, hy⟩ := hb.of_zip he
      split_ifs at h with hsame
      cases h
      rw [value_of_zip hb he, value_of_same ha hy hsame] at hz
      exact eq_of_sub_add ((add_commutes _ _).trans hz)
    case h_2 => cases h

theorem singleDifference?_gives (hz : a.value env - b.value env = finite z)
    (h : singleDifference? a b = some r) : r.Gives env z := by
  unfold singleDifference? at h
  rcases of_orElse h with h | h
  · -- what is taken away is a sum or twice the same expression
    split at h
    case h_1 x y he =>
      obtain ⟨hx, hy⟩ := hb.of_zip he
      rw [value_of_zip hb he] at hz
      split_ifs at h with hsame hsame <;> cases h
      · rw [value_of_same ha hy hsame] at hz
        exact value_map hx rfl (neg_of_sub_add hz)
      · rw [value_of_same ha hx hsame] at hz
        refine value_map hy rfl (neg_of_sub_add (a := (b.part x).value env) ?_)
        rw [add_commutes]
        exact hz
    case h_2 y he =>
      split_ifs at h with hsame
      cases h
      rw [value_of_map hb he, ← value_of_same ha (hb.of_map he) hsame] at hz
      exact value_map ha rfl (neg_of_sub_add hz)
    case h_3 => cases h
  · rcases of_orElse h with h | h
    · exact outermostRight?_gives (f := .sub) hb trivial hz h
    · split at h
      case h_1 x he =>
        cases h
        rw [value_of_map ha he] at hz
        exact ⟨trivial, add_of_neg_sub hz⟩
      case h_2 => cases h

omit [DecidableEq σ] ha in
/-- What is multiplied by the inverse of a factor, or divided by it. -/
theorem value_of_scaled? {c : Extended K} (hc : a.value env = c) (hx : scaled? c b.expr = some x)
    (hz : a.value env * b.value env = finite z) : (b.part x).value env = finite z := by
  unfold scaled? at hx
  split at hx
  case h_1 d x he =>
    obtain ⟨hd, hx'⟩ := hb.of_zip he
    rw [value_of_zip hb he, hc] at hz
    split at hx
    · next d' hd' =>
      split_ifs at hx with hone
      cases hx
      rw [value_of_constant? hd hd'] at hz
      exact eq_of_mul_mul ((equal_iff.mp hone).2.trans one_eq) hz
    · cases hx
  case h_2 x d he =>
    obtain ⟨hx', hd⟩ := hb.of_zip he
    rw [value_of_zip hb he, hc] at hz
    split at hx
    · next d' hd' =>
      split_ifs at hx with hsame
      cases hx
      rw [value_of_constant? hd hd', ← (equal_iff.mp hsame).2] at hz
      exact eq_of_mul_div hz
    · cases hx
  case h_3 => cases hx

theorem singleProduct?_gives (hconst : a.expr.isConst)
    (hz : a.value env * b.value env = finite z) (h : singleProduct? a b = some r) :
    r.Gives env z := by
  unfold singleProduct? at h
  obtain ⟨x, hx, h⟩ := Option.map_eq_some_iff.mp h
  cases h
  rcases of_orElse hx with hx | hx
  · obtain ⟨c, hc, hx⟩ := Option.bind_eq_some_iff.mp hx
    show (b.part x).value env = finite z
    exact value_of_scaled? hb (value_of_constant? ha hc) hx hz
  rcases of_orElse hx with hx | hx
  · -- a constant is no quotient
    unfold withoutDivisor? at hx
    split at hx
    · next he => exact (not_isConst_of_zip he hconst).elim
    · cases hx
  · unfold withoutDivisor? at hx
    split at hx
    · next x y he =>
      obtain ⟨hx', hy⟩ := hb.of_zip he
      split_ifs at hx with hsame
      cases hx
      rw [value_of_zip hb he, value_of_same ha hy hsame] at hz
      exact eq_of_mul_div hz
    · cases hx

omit [DecidableEq σ] hb in
theorem singleShare?_gives {c : Extended K} (hconst : a.expr.isConst)
    (hz : a.value env / c = finite z) (h : singleShare? a c = some r) : r.Gives env z := by
  unfold singleShare? at h
  simp only at h
  split at h
  · next h0 =>
    rw [eq_of_equal_ofInt h0, Int.cast_zero] at hz
    exact (div_zero_ne_finite hz).elim
  split at h
  · next hneg =>
    cases h
    rw [eq_of_equal_ofInt hneg, Int.cast_neg, Int.cast_one] at hz
    exact value_map ha rfl (neg_of_div_neg_one hz)
  split at h
  case h_1 he => exact (not_isConst_of_map he hconst).elim
  case h_2 he => exact (not_isConst_of_zip he hconst).elim
  case h_3 => cases h

theorem singleRatio?_gives (hconst : a.expr.isConst)
    (hz : a.value env / b.value env = finite z) (h : singleRatio? a b = some r) :
    r.Gives env z := by
  unfold singleRatio? at h
  split at h
  case h_1 he _ => exact (not_isConst_of_map he hconst).elim
  case h_2 x y he =>
    obtain ⟨hx, hy⟩ := hb.of_zip he
    split_ifs at h with hsame
    cases h
    rw [value_of_zip hb he, value_of_same ha hy hsame] at hz
    have hinverse := inverse_of_div_mul hz
    rw [← one_eq] at hinverse
    exact value_map hx rfl hinverse
  case h_3 y he =>
    split_ifs at h with hsame
    cases h
    rw [value_of_map hb he, ← value_of_same ha (hb.of_map he) hsame] at hz
    rw [Step.Gives, number, value_constant, one_eq, finite_neg, eq_neg_one_of_div_neg_self hz]
  case h_4 he _ _ => exact (not_isConst_of_zip he hconst).elim
  case h_5 => cases h

theorem singleQuotient?_gives (hconst : a.expr.isConst)
    (hz : a.value env / b.value env = finite z) (h : singleQuotient? a b = some r) :
    r.Gives env z := by
  unfold singleQuotient? at h
  rcases of_orElse h with h | h
  · obtain ⟨c, hc, h⟩ := Option.bind_eq_some_iff.mp h
    rw [value_of_constant? hb hc] at hz
    exact singleShare?_gives ha hconst hz h
  rcases of_orElse h with h | h
  · -- a constant is no product
    obtain ⟨x, hx, -⟩ := Option.map_eq_some_iff.mp h
    unfold withoutFactor? at hx
    split at hx
    · next he => exact (not_isConst_of_zip he hconst).elim
    · cases hx
  · exact singleRatio?_gives ha hb hconst hz h

theorem single?_gives (hf : Linear f a) (hz : f.apply (a.value env) (b.value env) = finite z)
    (h : single? f a b = some r) : r.Gives env z := by
  unfold single? at h
  split at h
  · cases h
  · cases f with
    | add => exact singleSum?_gives ha hb hz h
    | sub => exact singleDifference?_gives ha hb hz h
    | mul => exact singleProduct?_gives ha hb hf hz h
    | div => exact singleQuotient?_gives ha hb hf hz h
    | power | least | greatest => exact hf.elim

end Single

/-! ## All rules -/

variable [DecidableEq σ]

theorem step_gives (hcircle : Circular K) (ha : a.Single env) (hb : b.Single env)
    (hf : Linear f a) (hz : f.apply (a.value env) (b.value env) = finite z) :
    (step f a b).Gives env z := by
  unfold step
  simp only
  generalize hr : List.findSome? _ _ = r
  cases r with
  | none =>
    -- the operation as it stands
    show ((plain f a b).expr.eval env).get 0 = finite z
    exact (Matrix.get_zip (ha.unit_eval.trans hb.unit_eval.symm) ha.pos_size).trans hz
  | some r =>
    obtain ⟨rule, hmem, h⟩ := List.exists_of_findSome?_eq_some hr
    simp only [List.mem_cons, List.not_mem_nil, or_false] at hmem
    rcases hmem with rfl | rfl | rfl | rfl | rfl | rfl | rfl | rfl | rfl | rfl
    · exact hollowFactor?_gives ha hb hz h
    · exact constantLeft?_gives ha hb hz h
    · exact constants?_gives ha hb hz h
    · exact outermostLeft?_gives ha hb hf hz hcircle h
    · exact zeroFactor?_gives ha hb hf hz h
    · exact equalSides?_gives ha hb hf hz h
    · exact single?_gives ha hb hf hz h
    · exact zeroDivisor?_gives hb hf hz h
    · exact constantRight?_gives ha hb hf hz h
    · exact outermostRight?_gives hb hf hz h

/-- An operation keeps its finite value through all steps. -/
theorem value_zipSteps (hcircle : Circular K) {fuel : Nat} (ha : a.Single env) (hb : b.Single env)
    (hf : Linear f a) (hfuel : reach a b < fuel)
    (hz : f.apply (a.value env) (b.value env) = finite z) :
    (zipSteps fuel f a b).value env = finite z := by
  -- the fuel does not run out, and a sign that a step leaves is put in front of the rest
  induction fuel generalizing f a b z with
  | zero => omega
  | succ fuel ih =>
    have hstep := step_sound (f := f) ha hb
    have hgives := step_gives hcircle ha hb hf hz
    unfold zipSteps
    cases hs : step f a b with
    | done e =>
      rw [hs] at hgives
      exact hgives
    | instead negated g c d =>
      rw [hs] at hstep hgives
      obtain ⟨hc, hd, hreach⟩ := hstep
      obtain ⟨hg, hvalue⟩ := hgives
      have hrest := ih hc hd hg (by omega) hvalue
      have hsingle : (zipSteps fuel g c d).Single env := zipSteps_fits hc hd (by omega)
      cases negated with
      | false => exact hrest
      | true =>
        refine value_map hsingle rfl ?_
        rw [hrest]
        exact (finite_neg _).trans (by rw [if_pos rfl, neg_neg])

/-- A sum of single numbers, or a product with a constant on the left, is what it says. -/
theorem value_zip (hcircle : Circular K) (ha : a.Single env) (hb : b.Single env)
    (hf : Linear f a) (hz : f.apply (a.value env) (b.value env) = finite z) :
    (zip f a b).Single env ∧ (zip f a b).value env = finite z := by
  have hpower : f ≠ .power := by
    rintro rfl
    exact hf
  have hzip : zip f a b = simplified f a b := by
    unfold zip
    rw [if_neg hpower, if_pos (ha.unit_eq.trans hb.unit_eq.symm), Option.getD_none]
  rw [hzip]
  refine ⟨simplified_fits ha hb, ?_⟩
  apply value_zipSteps hcircle ha hb hf ?_ hz
  unfold reach
  split <;> omega

end Sized
end Collocation
