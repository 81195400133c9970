import Collocation.Function
import Collocation.Proofs.Expression.Rules
import Collocation.Proofs.Outcome

/-! # Sound terms

  Whatever the builder makes of a user's term is sound: products, concatenations and elements of
  sound expressions are, and so by induction on the term is the expression that it means. A
  function of a user's term is therefore one whose body has the function's size over the inputs,
  and vanishes only where it is a constant zero. -/

namespace Collocation
namespace Sized

variable {σ α : Type} [Number α] {Γ : σ → Extent} {a b e : Sized σ α}

/-! ## Elementwise operations and products -/

omit [Number α] in
/-- Repeated as often as it goes, the smaller size is the larger one. -/
theorem extent_tile_of_repeats {s : Extent} (h : repeats a.extent s) :
    (a.tile (s.cols / a.extent.cols)).extent = s := by
  unfold repeats at h
  simp only [Bool.and_eq_true, decide_eq_true_eq] at h
  obtain ⟨⟨⟨hrows, -⟩, -⟩, hmod⟩ := h
  rw [tile_extent, hrows, Nat.mul_div_cancel' (Nat.dvd_of_mod_eq_zero hmod)]

theorem zip?_sound [DecidableEq σ] {f : BinaryOp} (ha : a.Sound Γ) (hb : b.Sound Γ)
    (h : zip? f a b = some e) : e.Sound Γ := by
  unfold zip? at h
  simp only at h
  -- sizes that fit, nothing at all, or one of the two repeated beside itself
  split_ifs at h with hfit hempty hright hleft
  · cases h
    exact zip_sound ha hb hfit
  · cases h
    exact sound_constant _ _
  · cases h
    exact zip_sound ha (hb.tile _) (.inl (extent_tile_of_repeats hright).symm)
  · cases h
    exact zip_sound (ha.tile _) hb (.inl (extent_tile_of_repeats hleft))

theorem dot?_sound [DecidableEq σ] (ha : a.Sound Γ) (hb : b.Sound Γ) (h : dot? a b = some e) :
    e.Sound Γ := by
  unfold dot? at h
  simp only at h
  split_ifs at h with hne hempty hunit hconst hzero <;> cases h
  · exact sound_constant _ _
  · exact zip_sound ha hb (.inr (.inl hunit))
  · exact sound_computed
  · exact sound_constant _ _
  · rw [ne_eq, not_not] at hne
    exact ⟨.dot ha.size (hne ▸ hb.size), ha.settled, hb.settled⟩

theorem product?_sound [DecidableEq σ] (ha : a.Sound Γ) (hb : b.Sound Γ)
    (h : product? a b = some e) : e.Sound Γ := by
  unfold product? at h
  simp only at h
  split_ifs at h with hunit hcols hempty hconst hzero <;> cases h
  · exact zip_sound ha hb (.inr hunit)
  · exact sound_hollow _
  · exact sound_computed
  · exact sound_constant _ _
  · rw [ne_eq, not_not] at hcols
    refine ⟨.product ha.size hb.size ?_, ha.settled, hb.settled⟩
    simp [Expr.productExtent?, Expr.sizeIf, hunit, hcols]

/-! ## Concatenations -/

theorem joined_sound {join : Sized σ α} (h : join.Sound Γ) : (joined a b join).Sound Γ := by
  unfold joined
  split
  · exact sound_computed
  · exact h

theorem above?_sound (ha : a.Sound Γ) (hb : b.Sound Γ) (h : above? a b = some e) :
    e.Sound Γ := by
  unfold above? at h
  obtain ⟨s, hs, h⟩ := Option.bind_eq_some_iff.mp h
  split_ifs at h with hvoid hvoid' <;> cases h
  · exact hb
  · exact ha
  · refine joined_sound ⟨?_, ha.settled, hb.settled⟩
    -- neither part is void, so the columns agree
    have hsize : a.extent.cols = b.extent.cols ∧
        s = ⟨a.extent.rows + b.extent.rows, a.extent.cols⟩ := by
      unfold Expr.aboveExtent? Expr.sizeIf at hs
      split_ifs at hs <;> simp_all
    rw [hsize.2]
    refine .above ha.size ?_
    rw [hsize.1]
    exact hb.size

theorem beside?_sound (ha : a.Sound Γ) (hb : b.Sound Γ) (h : beside? a b = some e) :
    e.Sound Γ := by
  unfold beside? at h
  obtain ⟨s, hs, h⟩ := Option.bind_eq_some_iff.mp h
  split_ifs at h with hvoid hvoid' <;> cases h
  · exact hb
  · exact ha
  · refine joined_sound ⟨?_, ha.settled, hb.settled⟩
    -- neither part is void, so the rows agree
    have hsize : a.extent.rows = b.extent.rows ∧
        s = ⟨a.extent.rows, a.extent.cols + b.extent.cols⟩ := by
      unfold Expr.besideExtent? Expr.sizeIf at hs
      split_ifs at hs <;> simp_all
    rw [hsize.2]
    refine .beside ha.size ?_
    rw [hsize.1]
    exact hb.size

/-- A way of joining two expressions that keeps them sound joins any number of them. -/
theorem joinAll?_sound {join? : Sized σ α → Sized σ α → Option (Sized σ α)} {empty : Sized σ α}
    (hjoin : ∀ {a b e : Sized σ α}, a.Sound Γ → b.Sound Γ → join? a b = some e → e.Sound Γ)
    (hempty : empty.Sound Γ) {parts : List (Sized σ α)} (hparts : ∀ a ∈ parts, a.Sound Γ)
    (h : joinAll? join? empty parts = some e) : e.Sound Γ := by
  fun_induction joinAll? join? empty parts generalizing e with
  | case1 =>
    cases h
    exact hempty
  | case2 a =>
    cases h
    exact hparts a (by simp)
  | case3 a rest hrest ih =>
    obtain ⟨b, hb, h⟩ := Option.bind_eq_some_iff.mp h
    have hrestSound : b.Sound Γ := ih (fun c hc => hparts c (by simp [hc])) hb
    exact hjoin (hparts a (by simp)) hrestSound h

theorem stack?_sound {parts : List (Sized σ α)} (hparts : ∀ a ∈ parts, a.Sound Γ)
    (h : stack? parts = some e) : e.Sound Γ :=
  joinAll?_sound above?_sound (sound_constant _ _) hparts h

theorem line?_sound {parts : List (Sized σ α)} (hparts : ∀ a ∈ parts, a.Sound Γ)
    (h : line? parts = some e) : e.Sound Γ :=
  joinAll?_sound beside?_sound (sound_constant _ _) hparts h

theorem joinNumbers?_sound {size : Extent → Nat} {resize : Nat → Extent → Extent}
    {join? : List (Sized σ α) → Option (Sized σ α)}
    (hjoin : ∀ {parts e}, (∀ a ∈ parts, Sound Γ a) → join? parts = some e → Sound Γ e)
    {parts : List (Sized σ α)} (hparts : ∀ a ∈ parts, a.Sound Γ)
    (h : joinNumbers? size resize join? parts = some e) : e.Sound Γ := by
  unfold joinNumbers? at h
  obtain ⟨whole, hwhole, h⟩ := Option.bind_eq_some_iff.mp h
  have hsound : whole.Sound Γ := by
    refine hjoin ?_ hwhole
    intro a ha
    obtain ⟨b, hb, rfl⟩ := List.mem_map.mp ha
    split
    · exact sound_constant _ _
    · exact hparts b hb
  split_ifs at h <;> cases h
  · exact sound_hollow _
  · exact hsound

/-! ## Elements -/

end Sized

/-- An index from either end means a position within the size. -/
theorem position?_lt {size k : Nat} {i : Int} (h : position? size i = some k) : k < size := by
  unfold position? at h
  split_ifs at h <;> cases h <;> omega

namespace Sized

variable {σ α : Type} [Number α] {Γ : σ → Extent} {a b e : Sized σ α}

theorem element?_sound {k : Int} (ha : a.Sound Γ) (h : a.element? k = some e) : e.Sound Γ := by
  obtain ⟨p, hp, h⟩ := Option.bind_eq_some_iff.mp h
  cases h
  have hlt := position?_lt hp
  apply ha.slice
  rw [Extent.size_unit]
  omega

omit [Number α] in
/-- A column ends within the size. -/
theorem column_within {s : Extent} {col : Nat} (h : col < s.cols) :
    col * s.rows + s.rows ≤ s.size := by
  have hin : (col + 1) * s.rows ≤ s.cols * s.rows := Nat.mul_le_mul_right _ h
  rwa [Nat.add_mul, Nat.one_mul, Nat.mul_comm s.cols] at hin

theorem entryAt?_sound {i j : Int} (ha : a.Sound Γ) (h : a.entryAt? i j = some e) :
    e.Sound Γ := by
  obtain ⟨row, hrow, h⟩ := Option.bind_eq_some_iff.mp h
  obtain ⟨col, hcol, h⟩ := Option.bind_eq_some_iff.mp h
  cases h
  have hrow := position?_lt hrow
  have hcol := column_within (position?_lt hcol)
  apply ha.slice
  rw [Extent.size_unit]
  omega

theorem column?_sound {j : Int} (ha : a.Sound Γ) (h : a.column? j = some e) : e.Sound Γ := by
  obtain ⟨col, hcol, h⟩ := Option.bind_eq_some_iff.mp h
  cases h
  apply ha.slice
  rw [Extent.size_column]
  exact column_within (position?_lt hcol)

end Sized

/-! ## Terms -/

namespace Term

variable {σ α : Type}

theorem fitting_eq_ok {e : Option (Sized σ α)} {r : Sized σ α} (h : fitting e = .ok r) :
    e = some r := by
  cases e <;> cases h
  rfl

variable [Number α] [DecidableEq σ] {Γ : σ → Extent} {lookup : String → Option (Sized σ α)}

mutual

/-- The expression that a term means is sound if those that its names mean are. -/
theorem build_sound (hlookup : ∀ s e, lookup s = some e → e.Sound Γ) :
    (t : Term α) → {e : Sized σ α} → t.build lookup = .ok e → e.Sound Γ
  | number x, e, h => by
    cases h
    exact Sized.sound_constant _ _
  | name s, e, h => by
    unfold build at h
    split at h
    · next hs =>
      cases h
      exact hlookup s _ hs
    · cases h
  | nothing, e, h => by cases h
  | map f t, e, h => by
    obtain ⟨a, ha, h⟩ := bind_eq_ok h
    cases h
    exact (build_sound hlookup t ha).map f
  | zip f s t, e, h => by
    obtain ⟨a, ha, h⟩ := bind_eq_ok h
    obtain ⟨b, hb, h⟩ := bind_eq_ok h
    exact Sized.zip?_sound (build_sound hlookup s ha) (build_sound hlookup t hb)
      (fitting_eq_ok h)
  | transpose t, e, h => by
    obtain ⟨a, ha, h⟩ := bind_eq_ok h
    cases h
    exact (build_sound hlookup t ha).transpose
  | sumRows t, e, h => by
    obtain ⟨a, ha, h⟩ := bind_eq_ok h
    cases h
    exact (build_sound hlookup t ha).sumRows
  | dot s t, e, h => by
    obtain ⟨a, ha, h⟩ := bind_eq_ok h
    obtain ⟨b, hb, h⟩ := bind_eq_ok h
    exact Sized.dot?_sound (build_sound hlookup s ha) (build_sound hlookup t hb)
      (fitting_eq_ok h)
  | product s t, e, h => by
    obtain ⟨a, ha, h⟩ := bind_eq_ok h
    obtain ⟨b, hb, h⟩ := bind_eq_ok h
    exact Sized.product?_sound (build_sound hlookup s ha) (build_sound hlookup t hb)
      (fitting_eq_ok h)
  | stacked parts, e, h => by
    obtain ⟨all, hall, h⟩ := bind_eq_ok h
    have hparts := buildAll_sound hlookup parts hall
    have h := fitting_eq_ok h
    split at h
    · exact Sized.joinNumbers?_sound Sized.stack?_sound hparts h
    · exact Sized.stack?_sound hparts h
  | joined parts, e, h => by
    obtain ⟨all, hall, h⟩ := bind_eq_ok h
    have hparts := buildAll_sound hlookup parts hall
    have h := fitting_eq_ok h
    split at h
    · exact Sized.joinNumbers?_sound Sized.line?_sound hparts h
    · exact Sized.line?_sound hparts h
  | element t k, e, h => by
    obtain ⟨a, ha, h⟩ := bind_eq_ok h
    obtain ⟨-, -, h⟩ := bind_eq_ok h
    exact Sized.element?_sound (build_sound hlookup t ha) (fitting_eq_ok h)
  | entry t i j, e, h => by
    obtain ⟨a, ha, h⟩ := bind_eq_ok h
    obtain ⟨-, -, h⟩ := bind_eq_ok h
    obtain ⟨-, -, h⟩ := bind_eq_ok h
    exact Sized.entryAt?_sound (build_sound hlookup t ha) (fitting_eq_ok h)
  | column t j, e, h => by
    obtain ⟨a, ha, h⟩ := bind_eq_ok h
    obtain ⟨-, -, h⟩ := bind_eq_ok h
    exact Sized.column?_sound (build_sound hlookup t ha) (fitting_eq_ok h)

theorem buildAll_sound (hlookup : ∀ s e, lookup s = some e → e.Sound Γ) :
    (ts : List (Term α)) → {es : List (Sized σ α)} → buildAll lookup ts = .ok es →
    ∀ e ∈ es, e.Sound Γ
  | [], es, h => by
    cases h
    simp
  | t :: ts, es, h => by
    obtain ⟨a, ha, h⟩ := bind_eq_ok h
    obtain ⟨rest, hrest, h⟩ := bind_eq_ok h
    cases h
    intro e he
    rcases List.mem_cons.mp he with rfl | he
    · exact build_sound hlookup t ha
    · exact buildAll_sound hlookup ts hrest e he

end

end Term

/-! ## Functions -/

namespace Function

variable {ι α : Type} [Number α]

/-- The body has the function's size over its inputs, and vanishes only as a constant zero. -/
structure Sound (f : Function ι α) : Prop where
  size : f.body.HasSize f.inputs f.extent
  settled : f.body.Settled

omit [Number α] in
theorem make_eq_ok {name : String} {inputs : ι → Extent} {body : Sized ι α} {f : Function ι α}
    (h : make name inputs body = .ok f) :
    f = ⟨readName name, inputs, body.expr, body.extent⟩ := by
  unfold make at h
  split at h <;> cases h
  rfl

theorem make_sound {name : String} {inputs : ι → Extent} {body : Sized ι α} {f : Function ι α}
    (hbody : body.Sound inputs) (h : make name inputs body = .ok f) : f.Sound := by
  cases make_eq_ok h
  exact ⟨hbody.size, hbody.settled⟩

variable [Inputs ι] [DecidableEq ι] {inputs : ι → Extent}

theorem build_sound {body : Term α} {e : Sized ι α}
    (h : body.build (fun s => (Inputs.ofName? s).map fun i => Sized.symbol i (inputs i)) = .ok e) :
    e.Sound inputs := by
  refine Term.build_sound ?_ body h
  intro s e hs
  obtain ⟨i, -, rfl⟩ := Option.map_eq_some_iff.mp hs
  exact Sized.sound_symbol i

theorem columnOf_sound {body : Term α} {e : Sized ι α} (h : columnOf inputs body = .ok e) :
    e.Sound inputs ∧ e.extent.cols = 1 := by
  obtain ⟨a, ha, h⟩ := bind_eq_ok h
  cases h
  obtain ⟨hsound, hextent⟩ := (build_sound ha).vec
  exact ⟨hsound, by rw [hextent]⟩

theorem ofBody_sound {name : String} {body : Term α} {f : Function ι α}
    (h : ofBody name inputs body = .ok f) :
    f.Sound ∧ f.inputs = inputs ∧ f.extent.cols = 1 := by
  obtain ⟨e, he, h⟩ := bind_eq_ok h
  obtain ⟨hsound, hcols⟩ := columnOf_sound he
  refine ⟨make_sound hsound h, ?_⟩
  cases make_eq_ok h
  exact ⟨rfl, hcols⟩

end Function
end Collocation
