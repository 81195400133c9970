import Collocation.Proofs.Expression.Column
import Collocation.Proofs.Scheme.Construction
import Collocation.Scheme.Transcription

/-! # Blocks of constraints

  What an action adds to a scheme, seen from one decision vector: so many equations, which lie
  between their bounds exactly where some condition holds. Effects of actions in a row add up, and
  in the end the bounds of the whole scheme say all the conditions at once. -/

namespace Collocation

variable {α : Type} [Number α]

/-! ## Between two bound vectors -/

/-- Every value lies between its lower and its upper bound, of which there are as many. -/
structure Within (lower upper values : Array α) : Prop where
  size_lower : lower.size = values.size
  size_upper : upper.size = values.size
  between : ∀ i < values.size,
    Number.atMost (lower.getD i default) (values.getD i default) ∧
      Number.atMost (values.getD i default) (upper.getD i default)

instance {lower upper values : Array α} : Decidable (Within lower upper values) :=
  decidable_of_iff
    (lower.size = values.size ∧ upper.size = values.size ∧ ∀ i < values.size,
      Number.atMost (lower.getD i default) (values.getD i default) ∧
        Number.atMost (values.getD i default) (upper.getD i default))
    ⟨fun ⟨hlower, hupper, hbetween⟩ => ⟨hlower, hupper, hbetween⟩,
      fun h => ⟨h.size_lower, h.size_upper, h.between⟩⟩

omit [Number α] in
theorem getD_append [Inhabited α] (xs ys : Array α) (i : Nat) :
    (xs ++ ys).getD i default =
      if i < xs.size then xs.getD i default else ys.getD (i - xs.size) default := by
  simp only [Array.getD_eq_getD_getElem?, Array.getElem?_append]
  split <;> rfl

theorem within_append {lower lower' upper upper' values values' : Array α}
    (hlower : lower.size = values.size) (hupper : upper.size = values.size) :
    Within (lower ++ lower') (upper ++ upper') (values ++ values') ↔
      Within lower upper values ∧ Within lower' upper' values' := by
  constructor
  · intro h
    have hsizes := h.size_lower
    have hsizes' := h.size_upper
    simp only [Array.size_append] at hsizes hsizes'
    refine ⟨⟨hlower, hupper, ?_⟩, ⟨by omega, by omega, ?_⟩⟩
    · intro i hi
      have hb := h.between i (by rw [Array.size_append]; omega)
      simpa only [getD_append, hlower, hupper, if_pos hi] using hb
    · intro i hi
      -- the second values stand behind the first
      have hb := h.between (values.size + i) (by rw [Array.size_append]; omega)
      have hout : ¬values.size + i < values.size := by omega
      simpa only [getD_append, hlower, hupper, if_neg hout, Nat.add_sub_cancel_left] using hb
  · rintro ⟨h, h'⟩
    have hsizes := h'.size_lower
    have hsizes' := h'.size_upper
    refine ⟨by simp [hlower, hsizes], by simp [hupper, hsizes'], ?_⟩
    intro i hi
    rw [Array.size_append] at hi
    by_cases hin : i < values.size
    · simpa only [getD_append, hlower, hupper, if_pos hin] using h.between i hin
    · simpa only [getD_append, hlower, hupper, if_neg hin] using
        h'.between (i - values.size) (by omega)

theorem within_empty : Within (#[] : Array α) #[] #[] := by
  refine ⟨rfl, rfl, ?_⟩
  intro i hi
  cases hi

/-! ## Blocks at a decision vector -/

/-- The equations of the block lie between the bounds that were recorded with them. -/
def Block.Holds (env : Kind → Matrix α) (b : Block α) : Prop :=
  Within b.lower.elements b.upper.elements (b.equations.eval env).data

/-- The bounds of the block are vectors of their own. -/
structure Block.Owns (b : Block α) : Prop where
  lower : b.lower.array = none
  upper : b.upper.array = none

/-- The block is a column of as many values as it says, between bounds of its own. -/
structure Block.Fits (env : Kind → Matrix α) (b : Block α) : Prop where
  extent : (b.equations.eval env).extent = ⟨b.size, 1⟩
  owns : b.Owns

theorem Block.Fits.size {env : Kind → Matrix α} {b : Block α} (h : b.Fits env) :
    (b.equations.eval env).data.size = b.size := by
  rw [Matrix.size_data, h.extent, Extent.size_column]

namespace Scheme

variable {s s₁ s₂ s₃ : Scheme α} {env : Kind → Matrix α}

/-- The three vectors grow block by block, and stay equally long. -/
theorem within_foldl {bs : List (Block α)} {lower upper values : Array α}
    (hlower : lower.size = values.size) (hupper : upper.size = values.size)
    (hfits : ∀ b ∈ bs, b.Fits env) :
    Within (bs.foldl (fun acc b => acc ++ s.current b.lower) lower)
        (bs.foldl (fun acc b => acc ++ s.current b.upper) upper)
        (bs.foldl (fun acc b => acc ++ (b.equations.eval env).data) values) ↔
      Within lower upper values ∧ ∀ b ∈ bs, b.Holds env := by
  induction bs generalizing lower upper values with
  | nil => simp
  | cons b bs ih =>
    have hb : b.Fits env := hfits b List.mem_cons_self
    have hsize : b.lower.elements.size = (b.equations.eval env).data.size :=
      b.size_lower.trans hb.size.symm
    have hsize' : b.upper.elements.size = (b.equations.eval env).data.size :=
      b.size_upper.trans hb.size.symm
    rw [List.foldl_cons, List.foldl_cons, List.foldl_cons, s.current_of_own hb.owns.lower,
      s.current_of_own hb.owns.upper,
      ih (by simp [hlower, hsize]) (by simp [hupper, hsize'])
        (fun c hc => hfits c (List.mem_cons_of_mem b hc)),
      within_append hlower hupper, List.forall_mem_cons, and_assoc]
    rfl

/-- The bounds of the whole scheme hold where those of every block do. -/
theorem within_iff (hfits : ∀ b ∈ s.blocks, b.Fits env) :
    Within s.constraintLower s.constraintUpper (s.constraintValues env) ↔
      ∀ b ∈ s.blocks, b.Holds env := by
  unfold constraintLower constraintUpper constraintValues
  rw [within_foldl rfl rfl hfits]
  exact and_iff_right within_empty

theorem size_foldl {bs : List (Block α)} (hfits : ∀ b ∈ bs, b.Fits env) (acc : Array α) :
    (bs.foldl (fun acc b => acc ++ (b.equations.eval env).data) acc).size =
      acc.size + (bs.map (·.size)).sum := by
  induction bs generalizing acc with
  | nil => simp
  | cons b bs ih =>
    have hb : (b.equations.eval env).data.size = b.size := (hfits b List.mem_cons_self).size
    rw [List.foldl_cons, ih (fun c hc => hfits c (List.mem_cons_of_mem b hc)), Array.size_append,
      hb, List.map_cons, List.sum_cons, Nat.add_assoc]

/-! ## What an action adds -/

/-- The second scheme is the first one with `n` more equations. A test of blocks, such as that
    their bounds hold at the given values of the decision variables, is passed by all new blocks
    exactly where `P` holds. -/
def Adds (env : Kind → Matrix α) (test : Block α → Prop) (s s' : Scheme α) (n : Nat)
    (P : Prop) : Prop :=
  ∃ bs, s' = { s with blocks := s.blocks ++ bs } ∧ (∀ b ∈ bs, b.Fits env) ∧
    (bs.map (·.size)).sum = n ∧ ((∀ b ∈ bs, test b) ↔ P)

variable {n m : Nat} {P Q : Prop} {test : Block α → Prop}

theorem Adds.nothing : Adds env test s s 0 True := ⟨[], by simp, by simp, rfl, by simp⟩

theorem Adds.trans (h : Adds env test s₁ s₂ n P) (h' : Adds env test s₂ s₃ m Q) :
    Adds env test s₁ s₃ (n + m) (P ∧ Q) := by
  obtain ⟨bs, rfl, hfits, hsize, hholds⟩ := h
  obtain ⟨bs', rfl, hfits', hsize', hholds'⟩ := h'
  refine ⟨bs ++ bs', by simp, ?_, by simp [hsize, hsize'], ?_⟩
  · intro b hb
    rcases List.mem_append.mp hb with hb | hb
    · exact hfits b hb
    · exact hfits' b hb
  · rw [List.forall_mem_append, hholds, hholds']

theorem Adds.congr (h : Adds env test s₁ s₂ n P) (hn : n = m) (hP : P ↔ Q) :
    Adds env test s₁ s₂ m Q := by
  subst hn
  obtain ⟨bs, hbs, hfits, hsize, hholds⟩ := h
  exact ⟨bs, hbs, hfits, hsize, hholds.trans hP⟩

/-- Actions for all elements of a list add up. `inv` is what they rely on. -/
theorem adds_forM {β : Type} (env : Kind → Matrix α) (test : Block α → Prop)
    {inv : Scheme α → Prop} (hinv : ∀ {s} bs, inv s → inv { s with blocks := s.blocks ++ bs })
    (size : β → Nat) (holds : β → Prop) {f : β → Building α Unit} {xs : List β}
    (hstep : ∀ x ∈ xs, ∀ {s s'}, inv s → f x s = .ok () s' →
      Adds env test s s' (size x) (holds x))
    (hs : inv s₁) (h : xs.forM f s₁ = .ok () s₂) :
    Adds env test s₁ s₂ (xs.map size).sum (∀ x ∈ xs, holds x) := by
  -- the invariant goes through, since an action adds nothing but blocks
  induction xs generalizing s₁ with
  | nil =>
    cases h
    exact .congr .nothing rfl (by simp)
  | cons x xs ih =>
    obtain ⟨_, s, hx, h⟩ := run_bind_eq_ok h
    have hadds := hstep x List.mem_cons_self hs hx
    have hs' : inv s := by
      obtain ⟨bs, rfl, -⟩ := hadds
      exact hinv bs hs
    have hrest := ih (fun y hy => hstep y (List.mem_cons_of_mem x hy)) hs' h
    exact (hadds.trans hrest).congr (by simp) (by simp)

theorem Adds.mask_eq (h : Adds env test s₁ s₂ n P) : s₂.mask = s₁.mask := by
  obtain ⟨bs, rfl, -⟩ := h
  rfl

/-- The number of equations of a scheme with nothing before them. -/
theorem Adds.equationCount (h : Adds env test s₁ s₂ n P) (hempty : s₁.blocks = []) :
    s₂.equationCount = n := by
  obtain ⟨bs, rfl, -, rfl, -⟩ := h
  simp only [Scheme.equationCount, hempty, List.nil_append]
  induction bs with
  | nil => rfl
  | cons b bs ih => simp [ih]

theorem Adds.size_values (h : Adds env test s₁ s₂ n P) (hempty : s₁.blocks = []) :
    (s₂.constraintValues env).size = n := by
  obtain ⟨bs, rfl, hfits, rfl, -⟩ := h
  simp only [constraintValues, hempty, List.nil_append]
  simpa using size_foldl hfits #[]

omit [Number α] in
theorem toList_foldl_append {β : Type} (f : β → Array α) (bs : List β) (acc : Array α) :
    (bs.foldl (fun acc b => acc ++ f b) acc).toList =
      acc.toList ++ bs.flatMap fun b => (f b).toList := by
  induction bs generalizing acc with
  | nil => simp
  | cons b bs ih =>
    rw [List.foldl_cons, ih, Array.toList_append, List.flatMap_cons, List.append_assoc]

omit [Number α] in
theorem le_size_foldl_append {f : Block α → Array α} (bs : List (Block α)) (acc : Array α) :
    acc.size ≤ (bs.foldl (fun acc b => acc ++ f b) acc).size := by
  induction bs generalizing acc with
  | nil => rfl
  | cons b bs ih => exact (by simp : acc.size ≤ (acc ++ f b).size).trans (ih (acc ++ f b))

/-- The values of more blocks are not fewer. -/
theorem Adds.le_size {rest : List (Block α)} (h : Adds env test s₁ s₂ n P)
    (hempty : s₁.blocks = []) (hs : s.blocks = s₂.blocks ++ rest) :
    n ≤ (s.constraintValues env).size := by
  rw [← h.size_values hempty, constraintValues, constraintValues, hs, List.foldl_append]
  exact le_size_foldl_append rest _

theorem Adds.within (h : Adds env (Block.Holds env) s₁ s₂ n P) (hempty : s₁.blocks = []) :
    Within s₂.constraintLower s₂.constraintUpper (s₂.constraintValues env) ↔ P := by
  obtain ⟨bs, rfl, hfits, -, hholds⟩ := h
  rw [within_iff (by simpa [hempty] using hfits)]
  simpa [hempty] using hholds

/-! ## Appending -/

omit [Number α] in
theorem checkMutable_eq_ok (h : checkMutable s₁ = .ok () s₂) : s₂ = s₁ := by
  unfold checkMutable at h
  rw [run_get_bind] at h
  split at h
  · cases h
  · cases h
    rfl

/-- A column between two bound vectors. -/
theorem adds_append {lower upper : Array α} {e : Sized Kind α}
    (hsize : e.expr.HasSize (fun k => (env k).extent) e.extent) (hextent : e.extent = ⟨n, 1⟩)
    (htest : ∀ b : Block α, b.lower = lower → b.upper = upper → b.equations = e.expr →
      b.size = n → (test b ↔ P))
    (h : append lower upper e s₁ = .ok () s₂) : Adds env test s₁ s₂ n P := by
  unfold append at h
  obtain ⟨_, s, hmutable, h⟩ := run_bind_eq_ok h
  rw [checkMutable_eq_ok hmutable] at h
  split at h
  · cases h
    -- a column is a column already
    have hvec : e.vec = e := by
      unfold Sized.vec Sized.reshape
      rw [if_pos]
      rw [hextent, Extent.size_column]
    have hvalue : (e.expr.eval env).extent = ⟨e.extent.size, 1⟩ := by
      rw [hsize.extent_eval fun _ => rfl, hextent, Extent.size_column]
    refine ⟨_, rfl, ?_, ?_, ?_⟩
    · rw [List.forall_mem_singleton]
      exact ⟨by rw [hvec, hvalue], rfl, rfl⟩
    · simp [hextent]
    · rw [List.forall_mem_singleton]
      exact htest _ rfl rfl (congrArg (·.expr) hvec) (by simp [hextent])
  · cases h

omit [Number α] in
/-- An expression whose parts fit is accepted with its size. -/
theorem ofExpr_of_hasSize {σ : Type} {Γ : σ → Extent} {e : Expr σ α} {extent : Extent}
    (h : e.HasSize Γ extent) : Sized.ofExpr e = .ok ⟨e, extent⟩ := by
  unfold Sized.ofExpr
  rw [h.extent?_eq]

omit [Number α] in
theorem failsOnly_ofExpr {σ : Type} {Γ : σ → Extent} {e : Expr σ α} {cause : Fault α → Prop}
    (h : (∃ extent, e.HasSize Γ extent) ∨ cause .expression) :
    FailsOnly cause (Sized.ofExpr e) := by
  rcases h with ⟨extent, hsize⟩ | hcause
  · rw [ofExpr_of_hasSize hsize]
    exact .ok _
  · unfold Sized.ofExpr
    split
    · exact .ok _
    · exact .error hcause

end Scheme

/-! ## Equations that are zero -/

open Extended

variable {K : Type} [Field K] [LinearOrder K] [FloorRing K] [Interpretation K]

/-- The equations of the block are zero. -/
def Block.Vanishes (env : Kind → Matrix (Extended K)) (b : Block (Extended K)) : Prop :=
  ∀ r < b.size, (b.equations.eval env).data.getD r default = finite 0

/-- On blocks that are to be zero, the test asks whether they are. -/
def TestsZero (env : Kind → Matrix (Extended K)) (test : Block (Extended K) → Prop) : Prop :=
  ∀ b : Block (Extended K), b.Fits env → b.lower.elements = Array.replicate b.size Number.zero →
    b.upper.elements = Array.replicate b.size Number.zero → (test b ↔ b.Vanishes env)

theorem testsZero_vanishes (env : Kind → Matrix (Extended K)) :
    TestsZero env (Block.Vanishes env) := fun _ _ _ _ => Iff.rfl

namespace Scheme

variable {s₁ s₂ : Scheme (Extended K)} {env : Kind → Matrix (Extended K)} {n : Nat}

/-- A column of equations that are to be zero. -/
theorem adds_appendZero {test : Block (Extended K) → Prop} (htest : TestsZero env test)
    {e : Expr Kind (Extended K)} {g : Nat → Extended K} (he : e.IsColumn env n g)
    (h : appendZero n e s₁ = .ok () s₂) : Adds env test s₁ s₂ n (∀ r < n, g r = finite 0) := by
  unfold appendZero at h
  obtain ⟨a, ha, h⟩ := run_attempt_bind_eq_ok h
  rw [ofExpr_of_hasSize he.size] at ha
  cases ha
  refine adds_append he.size rfl ?_ h
  intro b hlower hupper hequations hsize
  subst hsize
  have hfits : b.Fits env :=
    ⟨by rw [hequations, he.extent_eval], by rw [hlower], by rw [hupper]⟩
  rw [htest b hfits (by rw [hlower]) (by rw [hupper])]
  unfold Block.Vanishes
  rw [hequations]
  apply forall₂_congr
  intro r hr
  rw [← he.get r hr]
  rfl

/-- Two columns of equations that are to be zero, one above the other. -/
theorem adds_appendZero_above {test : Block (Extended K) → Prop} (htest : TestsZero env test)
    {m : Nat} {a b : Expr Kind (Extended K)} {g h : Nat → Extended K} (ha : a.IsColumn env m g)
    (hb : b.IsColumn env n h) (hrun : appendZero (m + n) (.above a b) s₁ = .ok () s₂) :
    Adds env test s₁ s₂ (m + n) ((∀ r < m, g r = finite 0) ∧ ∀ r < n, h r = finite 0) := by
  apply (adds_appendZero htest (ha.above hb) hrun).congr rfl
  constructor
  · intro hall
    constructor
    · intro r hr
      simpa [hr] using hall r (by omega)
    · intro r hr
      simpa using hall (m + r) (by omega)
  · rintro ⟨hg, hh⟩ r hr
    split
    · next hlt => exact hg r hlt
    · exact hh (r - m) (by omega)

/-- What is there already stays at the front. -/
theorem getD_foldl_append {f : Block (Extended K) → Array (Extended K)}
    (bs : List (Block (Extended K))) (acc : Array (Extended K)) {i : Nat} (hi : i < acc.size) :
    (bs.foldl (fun acc b => acc ++ f b) acc).getD i default = acc.getD i default := by
  induction bs generalizing acc with
  | nil => rfl
  | cons b bs ih =>
    rw [List.foldl_cons, ih _ (by rw [Array.size_append]; omega), getD_append, if_pos hi]

/-- The values of blocks follow each other, after what is there already. -/
theorem vanishes_foldl {bs : List (Block (Extended K))} (hfits : ∀ b ∈ bs, b.Fits env)
    (rest : List (Block (Extended K))) (acc : Array (Extended K)) :
    (∀ i, acc.size ≤ i → i < acc.size + (bs.map (·.size)).sum →
      ((bs ++ rest).foldl (fun acc b => acc ++ (b.equations.eval env).data) acc).getD i default =
        finite 0) ↔ ∀ b ∈ bs, b.Vanishes env := by
  induction bs generalizing acc with
  | nil =>
    simp
    omega
  | cons b bs ih =>
    have hb : (b.equations.eval env).data.size = b.size := (hfits b List.mem_cons_self).size
    have hrest := ih (fun c hc => hfits c (List.mem_cons_of_mem b hc))
      (acc ++ (b.equations.eval env).data)
    have hfront : ∀ i < b.size, ((bs ++ rest).foldl
        (fun acc b => acc ++ (b.equations.eval env).data)
        (acc ++ (b.equations.eval env).data)).getD (acc.size + i) default =
          (b.equations.eval env).data.getD i default := by
      intro i hi
      rw [getD_foldl_append _ _ (by rw [Array.size_append]; omega), getD_append,
        if_neg (by omega), Nat.add_sub_cancel_left]
    rw [List.forall_mem_cons, ← hrest, List.cons_append, List.foldl_cons, List.map_cons,
      List.sum_cons, Array.size_append, hb]
    constructor
    · intro h
      constructor
      · intro r hr
        rw [← hfront r hr]
        exact h _ (by omega) (by omega)
      · intro i hi hi'
        exact h i (by omega) (by omega)
    · rintro ⟨hzero, h⟩ i hi hi'
      by_cases hin : i < acc.size + b.size
      · obtain ⟨r, rfl⟩ := Nat.exists_eq_add_of_le hi
        rw [hfront r (by omega)]
        exact hzero r (by omega)
      · exact h i (by omega) (by omega)

/-- The first `n` equations of a scheme are zero where all blocks with these equations are. -/
theorem Adds.vanishes {P : Prop} {rest : List (Block (Extended K))}
    (h : Adds env (Block.Vanishes env) s₁ s₂ n P) (hempty : s₁.blocks = [])
    {s : Scheme (Extended K)} (hs : s.blocks = s₂.blocks ++ rest) :
    (∀ i < n, (s.constraintValues env).getD i default = finite 0) ↔ P := by
  obtain ⟨bs, rfl, hfits, rfl, hholds⟩ := h
  rw [← hholds, constraintValues, hs, hempty, List.nil_append, ← vanishes_foldl hfits rest #[]]
  simp

end Scheme
end Collocation
