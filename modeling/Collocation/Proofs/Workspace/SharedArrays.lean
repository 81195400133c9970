import Collocation.Proofs.Workspace.Frames

/-! # Shared arrays

  Bounds that are handed over as an array of the scheme are not copied. So the block that keeps them
  shows whatever is written into the array later, and this is the only way in which the bounds of a
  block change: to replace the whole array leaves the old one with the block. Blocks share an array
  only if a directive of a custom rule, or a caller, hands it over. -/

namespace Collocation

variable {α : Type}

/-- The directive hands the array over as bounds. -/
def Directive.HandsOver (a : BoundArray) : Directive α → Prop
  | .constrain lower upper _ => lower.array? = some a ∨ upper.array? = some a
  | _ => False

/-- Some directive of the rule hands the array over. -/
def Rule.HandsOver (a : BoundArray) : Rule α → Prop
  | .custom hooks => ∃ d ∈ hooks.directives, d.HandsOver a
  | _ => False

namespace Scheme

/-- Some block has the array as its bounds on one side. -/
def Shares (s : Scheme α) (a : BoundArray) : Prop :=
  ∃ b ∈ s.blocks, b.lower.array = some a ∨ b.upper.array = some a

theorem not_shares_iff {s : Scheme α} {a : BoundArray} :
    ¬s.Shares a ↔ s.AllBlocks fun b => b.lower.array ≠ some a ∧ b.upper.array ≠ some a := by
  simp only [Shares, AllBlocks, not_exists, not_and, not_or]

variable [Number α] {p : Problem α} {s t t' : Scheme α} {a : BoundArray}

/-! ## What is shared -/

/-- However a transcription ends, blocks share no array but those that they shared before and those
    that the rule hands over. -/
theorem shares_of_transcribe (h : (stateOf (transcribe p s)).Shares a) :
    s.Shares a ∨ s.rule.HandsOver a := by
  by_contra hnot
  rw [not_or, not_shares_iff] at hnot
  obtain ⟨hbefore, hrule⟩ := hnot
  refine not_shares_iff.mpr (hbefore.transcribe (p := p) ?_ ?_) h
  · have hpasses : ∀ b : Block α, b.Owns → b.lower.array ≠ some a ∧ b.upper.array ≠ some a := by
      intro b howns
      rw [howns.lower, howns.upper]
      exact ⟨nofun, nofun⟩
    exact ⟨fun b howns _ _ => hpasses b howns, fun b howns _ _ _ => hpasses b howns⟩
  · intro hooks hcustom d hd
    cases d with
    | constrain lower upper body =>
      have hown : ¬(lower.array? = some a ∨ upper.array? = some a) := by
        intro hover
        rw [hcustom] at hrule
        exact hrule ⟨_, hd, hover⟩
      intro b hlower hupper
      rw [hlower, hupper]
      exact not_or.mp hown
    | _ => trivial

/-! ## What blocks show -/

/-- The bounds of every block as they are now. -/
def blockBounds (s : Scheme α) : List (Array α × Array α) :=
  s.blocks.map fun b => (s.current b.lower, s.current b.upper)

theorem constraintLower_eq (s : Scheme α) :
    s.constraintLower = s.blockBounds.foldl (fun acc bounds => acc ++ bounds.1) #[] := by
  rw [constraintLower, blockBounds, List.foldl_map]

theorem constraintUpper_eq (s : Scheme α) :
    s.constraintUpper = s.blockBounds.foldl (fun acc bounds => acc ++ bounds.2) #[] := by
  rw [constraintUpper, blockBounds, List.foldl_map]

/-- The blocks of the second scheme have the bounds of those of the first, and share no more arrays
    than these. -/
structure BoundedAs (s t : Scheme α) : Prop where
  bounds : t.blockBounds = s.blockBounds
  shared : ∀ a, t.Shares a → s.Shares a

theorem BoundedAs.refl (s : Scheme α) : s.BoundedAs s := ⟨rfl, fun _ h => h⟩

theorem BoundedAs.trans (h : s.BoundedAs t) (h' : t.BoundedAs t') : s.BoundedAs t' :=
  ⟨h'.bounds.trans h.bounds, fun a ha => h.shared a (h'.shared a ha)⟩

/-- The same blocks show the same bounds as long as nothing happens to arrays that they share. -/
theorem boundedAs_of_arrays (hblocks : t.blocks = s.blocks)
    (harrays : ∀ a, s.Shares a → t.array? a = s.array? a) : s.BoundedAs t := by
  refine ⟨?_, fun a ha => ?_⟩
  · unfold blockBounds
    rw [hblocks]
    refine List.map_congr_left fun b hb => ?_
    rw [current_eq fun a ha => harrays a ⟨b, hb, .inl ha⟩,
      current_eq fun a ha => harrays a ⟨b, hb, .inr ha⟩]
  · unfold Shares at ha ⊢
    rwa [hblocks] at ha

/-- What is seen of a bound vector does not change when the scheme gives an array up and something
    else takes its place. -/
theorem current_detach (harrays : ∀ a', a' ≠ a → t.array? a' = s.array? a') (v : BoundVector α) :
    t.current (s.detach a v) = s.current v := by
  unfold detach
  split_ifs with hv
  · rfl
  · refine current_eq fun a' ha' => harrays a' ?_
    rintro rfl
    exact hv ha'

omit [Number α] in
theorem array?_setSide (s : Scheme α) (which : Side) (table : Table (Tensor α)) (a : BoundArray) :
    (s.setSide which table).array? a =
      if which = a.side then table.find? a.kind else s.array? a := by
  obtain ⟨side, kind⟩ := a
  cases which <;> cases side <;> rfl

/-- To put an array under a key leaves the others alone. -/
theorem array?_putBound (s : Scheme α) {which : Side} {key : Key α} (v : Tensor α)
    (h : which = a.side → key.kind? ≠ some a.kind) :
    (s.putBound which key v).array? a = s.array? a := by
  unfold putBound
  cases hkey : key.kind? with
  | none => cases which <;> rfl
  | some k =>
    simp only [array?_setSide]
    split_ifs with hside
    · have hkind : a.kind ≠ k := fun hk => h hside (hk ▸ hkey)
      rw [Table.find?_insert_ne _ _ hkind, hside, array?]
    · rfl

theorem array?_eraseBound (s : Scheme α) {which : Side} {key : Key α}
    (h : which = a.side → key.kind? ≠ some a.kind) :
    (s.eraseBound which key).array? a = s.array? a := by
  unfold eraseBound
  cases hkey : key.kind? with
  | none => cases which <;> rfl
  | some k =>
    simp only [array?_setSide]
    split_ifs with hside
    · have hkind : a.kind ≠ k := fun hk => h hside (hk ▸ hkey)
      rw [Table.find?_erase_ne _ hkind, hside, array?]
    · rfl

/-! ## Writes -/

/-- A run that puts arrays under keys of no shared array is not seen in the bounds of the blocks. -/
theorem boundedAs_of_keeps {run : Building α Unit}
    (hrun : Keeps (fun t => t.blocks = s.blocks ∧ ∀ a, s.Shares a → t.array? a = s.array? a) run) :
    s.BoundedAs (stateOf (run s)) := by
  obtain ⟨hblocks, harrays⟩ := hrun s ⟨rfl, fun _ _ => rfl⟩
  exact boundedAs_of_arrays hblocks harrays

theorem kept_putBound {which : Side} {key : Key α} (v : Tensor α)
    (h : ∀ a, s.Shares a → which = a.side → key.kind? ≠ some a.kind)
    (ht : t.blocks = s.blocks ∧ ∀ a, s.Shares a → t.array? a = s.array? a) :
    (t.putBound which key v).blocks = s.blocks ∧
      ∀ a, s.Shares a → (t.putBound which key v).array? a = s.array? a := by
  refine ⟨?_, fun a ha => ?_⟩
  · obtain ⟨_, _, _, _, hput⟩ := agreesButBounds_putBound t which key v
    rw [hput]
    exact ht.1
  · rw [array?_putBound _ _ (h a ha), ht.2 a ha]

/-- Elements that are written into other arrays than the blocks share are not seen in their
    bounds. -/
theorem boundedAs_writeBounds {key : Key α} (h : ∀ a, s.Shares a → key.kind? ≠ some a.kind)
    {rows cols : Selector α} {bounds : Bounds α} :
    s.BoundedAs (stateOf (writeBounds key rows cols bounds s)) :=
  boundedAs_of_keeps (keeps_writeBounds_of fun _ v ht => kept_putBound v (fun a ha _ => h a ha) ht)

theorem boundedAs_writeBound {which : Side} {key : Key α}
    (h : ∀ a, s.Shares a → which = a.side → key.kind? ≠ some a.kind) {index : List Int}
    {value : Literal α} : s.BoundedAs (stateOf (writeBound which key index value s)) :=
  boundedAs_of_keeps (keeps_writeBound_of fun v ht => kept_putBound v h ht)

theorem boundedAs_of_release (which : Side) (key : Key α)
    (hblocks : t.blocks = (s.release which key).blocks)
    (harrays : ∀ a : BoundArray, (which = a.side → key.kind? ≠ some a.kind) →
      t.array? a = s.array? a) : s.BoundedAs t := by
  unfold release at hblocks
  cases hkey : key.kind? with
  | none =>
    rw [hkey] at hblocks harrays
    exact boundedAs_of_arrays hblocks fun a _ => harrays a fun _ => nofun
  | some k =>
    rw [hkey] at hblocks harrays
    simp only at hblocks
    have hothers : ∀ a : BoundArray, a ≠ ⟨which, k⟩ → t.array? a = s.array? a := by
      rintro ⟨side, kind⟩ hne
      refine harrays _ fun hside hkind => hne ?_
      rw [show which = side from hside, show k = kind from Option.some.inj hkind]
    refine ⟨?_, ?_⟩
    · unfold blockBounds
      rw [hblocks, List.map_map]
      refine List.map_congr_left fun b _ => ?_
      exact Prod.ext (current_detach hothers b.lower) (current_detach hothers b.upper)
    · rintro a ⟨b', hb', hshares⟩
      rw [hblocks, List.mem_map] at hb'
      obtain ⟨b, hb, rfl⟩ := hb'
      have hdetach : ∀ v : BoundVector α, (s.detach ⟨which, k⟩ v).array = some a →
          v.array = some a := by
        intro v hv
        unfold detach at hv
        -- a vector that was given up is no array any more
        split_ifs at hv
        exact hv
      exact ⟨b, hb, hshares.imp (hdetach b.lower) (hdetach b.upper)⟩

/-- A whole new array takes nothing from the blocks. -/
theorem boundedAs_replaceBounds (which : Side) (key : Key α) (value : Option (Tensor α)) :
    s.BoundedAs (stateOf (replaceBounds which key value s)) := by
  have hreleased : ∀ a, (s.release which key).array? a = s.array? a := by
    intro a
    unfold release
    cases key.kind? <;> rfl
  unfold replaceBounds
  rw [run_get_bind]
  cases value with
  | some value =>
    refine boundedAs_of_release which key ?_ fun a ha => ?_
    · obtain ⟨_, _, _, _, hput⟩ := agreesButBounds_putBound (s.release which key) which key value
      exact congrArg (·.blocks) hput
    · exact (array?_putBound _ _ ha).trans (hreleased a)
  | none =>
    apply stateOf_attempt_bind (.refl s)
    intro _ _
    refine boundedAs_of_release which key ?_ fun a ha => ?_
    · obtain ⟨_, _, _, _, herase⟩ := agreesButBounds_eraseBound (s.release which key) which key
      exact congrArg (·.blocks) herase
    · exact (array?_eraseBound _ ha).trans (hreleased a)

end Scheme
end Collocation
