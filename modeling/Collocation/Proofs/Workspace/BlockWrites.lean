import Collocation.Proofs.Selection
import Collocation.Proofs.Workspace.Frames

/-! # Writes of blocks

  Bounds are written into the rows and columns that are selected, on both sides, or they are not
  written at all. This needs that the tables of the two sides have one shape: what is selected is
  looked up on the lower one, and it has to lie inside of the upper one too. Tables have one shape
  as long as nobody puts whole arrays in their place. -/

namespace Collocation

variable {α : Type} [Number α]

/-- What is written into an array does not change its shape. -/
theorem Tensor.shape_of_write {t t' : Tensor α} {index : List Int} {l : Literal α}
    (h : t.write index l = .ok t') : t'.shape = t.shape := by
  unfold write at h
  obtain ⟨positions, -, h⟩ := bind_eq_ok h
  simp only at h
  -- a single number and an array end in the same step
  split at h
  · obtain ⟨v, -, h⟩ := bind_eq_ok h
    split_ifs at h
    cases h
    rfl
  · obtain ⟨v, -, h⟩ := bind_eq_ok h
    split_ifs at h
    cases h
    rfl

namespace Scheme

variable {s s' : Scheme α} {k : Kind} {e : Extent} {key : Key α} {rows cols : Selector α}
  {bounds : Bounds α}

/-! ## Pairs of tables -/

omit [Number α] in
/-- Both sides have a matrix of the size under the kind. -/
def HasPair (s : Scheme α) (k : Kind) (e : Extent) : Prop :=
  ∀ which, ∃ t, (s.side which).find? k = some t ∧ t.shape = e.toList

omit [Number α] in
/-- There are bounds under keys that are kinds only, and those of the two sides go together. -/
structure Paired (s : Scheme α) : Prop where
  strays : ∀ which, s.strays which = []
  tables : ∀ k, (∀ which, (s.side which).find? k = none) ∨ ∃ e, s.HasPair k e

omit [Number α] in
theorem Paired.of_sides (h : s.Paired) (hside : ∀ which, s'.side which = s.side which)
    (hstrays : ∀ which, s'.strays which = s.strays which) : s'.Paired := by
  refine ⟨fun which => (hstrays which).trans (h.strays which), fun k => ?_⟩
  simp only [HasPair, hside]
  exact h.tables k

/-- The scheme with the same block replaced in two tables of a kind. -/
def putBlock (s : Scheme α) (k : Kind) (t : Side → Tensor α) (picked chosen : List Nat)
    (pair : α × α) : Scheme α :=
  { s with
    lower := s.lower.insert k ((t .lower).assignBlock picked chosen pair.1)
    upper := s.upper.insert k ((t .upper).assignBlock picked chosen pair.2) }

theorem side_putBlock {t : Side → Tensor α} {picked chosen : List Nat} {pair : α × α}
    (which : Side) : (s.putBlock k t picked chosen pair).side which =
      (s.side which).insert k ((t which).assignBlock picked chosen (which.of pair)) := by
  cases which <;> rfl

theorem find?_putBlock {t : Side → Tensor α} {picked chosen : List Nat} {pair : α × α}
    {which : Side} {k' : Kind} (hk : k' ≠ k) :
    ((s.putBlock k t picked chosen pair).side which).find? k' = (s.side which).find? k' := by
  rw [side_putBlock, Table.find?_insert_ne _ _ hk]

/-- Matrices of other sizes do not come in by writes into blocks. -/
theorem Paired.putBlock (h : s.Paired) {t : Side → Tensor α}
    (hshape : ∀ which, (t which).shape = e.toList) (picked chosen : List Nat) (pair : α × α) :
    (s.putBlock k t picked chosen pair).Paired := by
  refine ⟨fun which => ?_, fun k' => ?_⟩
  · cases which
    · exact h.strays .lower
    · exact h.strays .upper
  · by_cases hk : k' = k
    · subst hk
      refine .inr ⟨e, fun which => ⟨(t which).assignBlock picked chosen (which.of pair), ?_, ?_⟩⟩
      · rw [side_putBlock, Table.find?_insert_self]
      · exact hshape which
    · simp only [HasPair, find?_putBlock hk]
      exact h.tables k'

/-! ## One write -/

/-- What a write does to a pair of matrices of one size. Rows are selected before columns, and
    nothing is written unless both are vectors of positions that lie inside. -/
theorem run_writeBounds {t : Side → Tensor α} (hkey : key.kind? = some k)
    (ht : ∀ which, (s.side which).find? k = some (t which))
    (hshape : ∀ which, (t which).shape = e.toList) :
    writeBounds key rows cols bounds s =
      match rows.select e.rows, cols.select e.cols with
      | .error fault, _ => .error fault s
      | .ok _, .error fault => .error fault s
      | .ok picked, .ok chosen =>
        if !picked.isVector || !chosen.isVector then .error .crossIndexDimension s
        else .ok () (s.putBlock k t picked.positions chosen.positions bounds.toPair) := by
  have hbound : ∀ which, s.bound which key = .ok (t which) := by
    intro which
    simp only [bound, hkey, ht which]
  have hrows : (do rows.select (← (t .lower).axisSize 0)) = rows.select e.rows := by
    simp [Tensor.axisSize, hshape, Extent.toList, bind, Except.bind]
  have hcols : (do cols.select (← (t .lower).axisSize 1)) = cols.select e.cols := by
    simp [Tensor.axisSize, hshape, Extent.toList, bind, Except.bind]
  unfold writeBounds
  rw [run_get_bind, hbound, hbound]
  refine run_attempt_bind_of_ok rfl (run_attempt_bind_of_ok rfl ?_)
  rw [hrows, hcols]
  cases hpicked : rows.select e.rows with
  | error fault => rfl
  | ok picked =>
    refine run_attempt_bind_of_ok rfl ?_
    cases hchosen : cols.select e.cols with
    | error fault => rfl
    | ok chosen =>
      refine run_attempt_bind_of_ok rfl ?_
      by_cases hvector : (!picked.isVector || !chosen.isVector) = true
      · simp only [if_pos hvector]
        rfl
      · simp only [if_neg hvector]
        -- the block lies inside of the upper matrix, because it lies inside of the lower one
        have hblock : (t .upper).checkBlock picked.positions chosen.positions =
            (.ok () : Except (Fault α) Unit) :=
          Tensor.checkBlock_of_lt (hshape .upper) (Selector.lt_of_select hpicked)
            (Selector.lt_of_select hchosen)
        change (modify _ >>= fun _ => attempt _ >>= fun _ => modify _) s = _
        rw [run_modify_bind, hblock]
        exact congrArg (EStateM.Result.ok ()) (putBound_both hkey _ _)

/-- The bounds of the block are written into both matrices of a kind, and nothing else changes. -/
structure BlockWritten (s s' : Scheme α) (k : Kind) (e : Extent) (rows cols : Choice)
    (pair : α × α) : Prop where
  rest : s.AgreesButBounds s'
  strays : ∀ which, s'.strays which = s.strays which
  others : ∀ which k', k' ≠ k → (s'.side which).find? k' = (s.side which).find? k'
  block : ∀ which, ∃ t t', (s.side which).find? k = some t ∧ (s'.side which).find? k = some t' ∧
    t'.shape = e.toList ∧ ∀ i < e.rows, ∀ j < e.cols,
      (rows.Takes e.rows i ∧ cols.Takes e.cols j → t'.get (i + e.rows * j) = which.of pair) ∧
      (¬(rows.Takes e.rows i ∧ cols.Takes e.cols j) →
        t'.get (i + e.rows * j) = t.get (i + e.rows * j))

namespace HasPair

/-- Whatever the selectors are, a write that fails has not written anything. -/
theorem eq_of_error (hs : s.HasPair k e) (hkey : key.kind? = some k) {fault : Fault α}
    (h : writeBounds key rows cols bounds s = .error fault s') : s' = s := by
  choose t ht hshape using hs
  rw [run_writeBounds hkey ht hshape] at h
  split at h
  · cases h
    rfl
  · cases h
    rfl
  · split_ifs at h
    cases h
    rfl

variable {picked chosen : Choice}

/-- The rows are refused, or else the columns are. -/
theorem run_of_refused (hs : s.HasPair k e) (hkey : key.kind? = some k) {fault : Fault α}
    (h : picked.Refused e.rows fault ∨
      picked.Proper ∧ picked.InRange e.rows ∧ chosen.Refused e.cols fault) :
    writeBounds key picked.toSelector chosen.toSelector bounds s = .error fault s := by
  choose t ht hshape using hs
  rw [run_writeBounds hkey ht hshape]
  rcases h with hrows | ⟨hproper, hrange, hcols⟩
  · rw [Selector.select_of_refused hrows]
  · obtain ⟨positions, hpositions, -⟩ := Selector.exists_select (α := α) hproper hrange
    rw [hpositions, Selector.select_of_refused hcols]

theorem exists_blockWritten (hs : s.HasPair k e) (hkey : key.kind? = some k)
    (hrows : picked.Proper ∧ picked.InRange e.rows)
    (hcols : chosen.Proper ∧ chosen.InRange e.cols) :
    ∃ s', writeBounds key picked.toSelector chosen.toSelector bounds s = .ok () s' ∧
      s.BlockWritten s' k e picked chosen bounds.toPair := by
  choose t ht hshape using hs
  obtain ⟨is, his, htakes⟩ := Selector.exists_select (α := α) hrows.1 hrows.2
  obtain ⟨js, hjs, htakes'⟩ := Selector.exists_select (α := α) hcols.1 hcols.2
  refine ⟨s.putBlock k t is js bounds.toPair, ?_, ⟨_, _, _, _, rfl⟩, ?_, ?_, ?_⟩
  · rw [run_writeBounds hkey ht hshape, his, hjs]
    rfl
  · intro which
    cases which <;> rfl
  · exact fun which k' hk => find?_putBlock hk
  · intro which
    refine ⟨t which, (t which).assignBlock is js (which.of bounds.toPair), ht which, ?_,
      hshape which, fun i hi j hj => ?_⟩
    · rw [side_putBlock, Table.find?_insert_self]
    · rw [Tensor.get_assignBlock (hshape which) _ _ _ hi hj, ← htakes i, ← htakes' j]
      exact ⟨fun hin => if_pos hin, fun hout => if_neg hout⟩

end HasPair

/-! ## Invariant -/

/-- Under a key that has no bounds nothing is written. -/
theorem bound_of_missing (h : s.Paired) (hmissing : ∀ k, key.kind? = some k →
    ∀ which, (s.side which).find? k = none) (which : Side) :
    s.bound which key = .error key.missing := by
  unfold bound
  cases hkey : key.kind? with
  | none => simp [h.strays which, Keyed.find?]
  | some k => simp [hmissing k hkey which]

theorem keeps_paired_writeBounds : Keeps Paired (writeBounds key rows cols bounds) := by
  intro s hs
  by_cases hpair : ∃ k e, key.kind? = some k ∧ s.HasPair k e
  · obtain ⟨k, e, hkey, hpair⟩ := hpair
    choose t ht hshape using hpair
    rw [run_writeBounds hkey ht hshape]
    split
    · exact hs
    · exact hs
    · split_ifs
      · exact hs
      · exact hs.putBlock hshape _ _ _
  · have hmissing : ∀ k, key.kind? = some k → ∀ which, (s.side which).find? k = none := by
      intro k hkey
      rcases hs.tables k with hnone | ⟨e, he⟩
      · exact hnone
      · exact absurd ⟨k, e, hkey, he⟩ hpair
    have hbound := bound_of_missing hs hmissing .lower
    have hrun : writeBounds key rows cols bounds s = .error key.missing s := by
      unfold writeBounds
      rw [run_get_bind, hbound]
      rfl
    rwa [hrun]

section Inserted

variable {which : Side} {t : Tensor α}

omit [Number α] in
theorem side_setSide (s : Scheme α) (which which' : Side) (t : Table (Tensor α)) :
    (s.setSide which t).side which' = if which' = which then t else s.side which' := by
  cases which <;> cases which' <;> rfl

omit [Number α] in
theorem find?_setSide_insert_ne {which' : Side} {k' : Kind} (hk : k' ≠ k) :
    ((s.setSide which ((s.side which).insert k t)).side which').find? k' =
      (s.side which').find? k' := by
  rw [side_setSide]
  split_ifs with hwhich
  · rw [hwhich, Table.find?_insert_ne _ _ hk]
  · rfl

omit [Number α] in
/-- A matrix of the same size takes the place of one of a pair. -/
theorem HasPair.insert (h : s.HasPair k e) (hshape : t.shape = e.toList) :
    (s.setSide which ((s.side which).insert k t)).HasPair k e := by
  intro which'
  rw [side_setSide]
  split_ifs with hwhich
  · exact ⟨t, Table.find?_insert_self _ _ _, hshape⟩
  · exact h which'

end Inserted

/-- A matrix of the same size takes the place of another one. -/
theorem Paired.putBound (h : s.Paired) {which : Side} {t t' : Tensor α}
    (ht : s.bound which key = .ok t) (hshape : t'.shape = t.shape) :
    (s.putBound which key t').Paired := by
  unfold bound at ht
  cases hkey : key.kind? with
  | none =>
    rw [hkey] at ht
    simp [h.strays which, Keyed.find?] at ht
  | some k =>
    rw [hkey] at ht
    have hfound : (s.side which).find? k = some t := by
      cases hside : (s.side which).find? k with
      | none => simp [hside] at ht
      | some u => simpa [hside] using ht
    have hput : s.putBound which key t' = s.setSide which ((s.side which).insert k t') := by
      simp only [Scheme.putBound, hkey]
    rw [hput]
    refine ⟨fun which' => ?_, fun k' => ?_⟩
    · have hstrays := h.strays which'
      cases which <;> cases which' <;> exact hstrays
    · by_cases hk : k' = k
      · subst hk
        rcases h.tables k' with hnone | ⟨e, he⟩
        · rw [hnone which] at hfound
          cases hfound
        · obtain ⟨u, hu, hushape⟩ := he which
          cases hu.symm.trans hfound
          exact .inr ⟨e, he.insert (hshape.trans hushape)⟩
      · simp only [HasPair, find?_setSide_insert_ne hk]
        exact h.tables k'

/-- A single element is written into a matrix without a change of its size. -/
theorem keeps_paired_writeBound {which : Side} {index : List Int} {value : Literal α} :
    Keeps Paired (writeBound which key index value) := by
  refine .read fun s hs => ?_
  apply stateOf_attempt_bind hs
  intro old hold
  apply stateOf_attempt_bind hs
  intro written hwritten
  exact hs.putBound hold (Tensor.shape_of_write hwritten)

/-- A scheme without bounds. -/
theorem paired_start (rule : Rule α) (settings : Settings α) (gridPoints : Nat)
    (grid : Option (Tensor α)) : (start rule settings gridPoints grid).Paired := by
  refine ⟨fun which => ?_, fun k => .inl fun which => ?_⟩
  · cases which <;> rfl
  · cases which <;> cases k <;> rfl

/-- New tables have the sizes of the variables. -/
theorem paired_createVariables {p : Problem α} (hs : s.Paired)
    (h : createVariables p s = .ok () s') : s'.Paired := by
  unfold createVariables at h
  rw [run_get_bind] at h
  obtain ⟨extents, -, h⟩ := run_attempt_bind_eq_ok h
  rw [run_set_bind] at h
  have hwrites : Keeps Paired
      ((problemWrites p).forM fun w => writeBounds (.kind w.kind) w.rows w.cols w.bounds) :=
    .forM fun _ _ => keeps_paired_writeBounds
  refine hwrites.ok ⟨fun which => ?_, fun k => ?_⟩ h
  · cases which
    · exact hs.strays .lower
    · exact hs.strays .upper
  · cases hextent : extents.find? k with
    | none =>
      refine .inl fun which => ?_
      cases which <;> simp [side, hextent]
    | some e =>
      refine .inr ⟨e, fun which => ?_⟩
      cases which <;> simp [side, hextent, Tensor.fill, Tensor.ofFn]

theorem paired_of_createScheme {p : Problem α} {settings : Settings α} {choice : SchemeChoice α}
    (h : Workspace.createScheme settings p choice = .ok s) : s.Paired := by
  cases choice with
  | trapezoidal mesh =>
    obtain ⟨points, -, h⟩ := bind_eq_ok h
    exact paired_createVariables (paired_start _ _ _ _) (built_eq_ok h)
  | hermiteSimpson mesh tieControls =>
    obtain ⟨points, -, h⟩ := bind_eq_ok h
    exact paired_createVariables (paired_start _ _ _ _) (built_eq_ok h)
  | custom hooks grid gridPoints withVariables =>
    obtain ⟨grid', -, h⟩ := bind_eq_ok h
    obtain ⟨points, -, h⟩ := bind_eq_ok h
    unfold custom at h
    split at h
    · exact paired_createVariables (paired_start _ _ _ _) (built_eq_ok h)
    · cases h
      exact paired_start _ _ _ _

end Scheme

/-! ## Workspaces -/

namespace Workspace

/-- The command puts no whole array of bounds in the place of another one. -/
def keepsArrays : Command α → Bool
  | .scheme _ (.replaceBounds ..) => false
  | _ => true

open Scheme in
/-- Every step of such a command keeps the tables together. -/
theorem keeps_paired {name : String} {command : SchemeCommand α} {p : Problem α}
    (hcommand : keepsArrays (.scheme name command)) : Keeps Paired (command.step p) := by
  -- what single elements are written into is looked at before it is written
  by_cases helement : ∃ side key row col value,
      command = .setBoundElement side key row col value
  · obtain ⟨side, key, row, col, value, rfl⟩ := helement
    exact .attempt_bind fun _ _ => keeps_paired_writeBound
  intro s hs
  have heffect := effect_step command p s
  generalize stateOf (command.step p s) = t at heffect ⊢
  cases heffect with
  | kept => exact hs
  | regridded h | gridElement _ h =>
    obtain ⟨_, _, rfl⟩ := h
    exact hs.of_sides (fun _ => rfl) fun _ => rfl
  | transcribed =>
    have hframe := sameFrame_transcribe p s
    exact hs.of_sides hframe.side hframe.strays
  | bounded => exact keeps_paired_writeBounds s hs
  | boundElement => exact absurd ⟨_, _, _, _, _, rfl⟩ helement
  | boundArray => cases hcommand
  | deleted h =>
    obtain ⟨_, rfl, -⟩ := h
    exact hs.of_sides (fun _ => rfl) fun _ => rfl
  | @appended lower upper body =>
    have hblocks : s.AgreesButBlocks (stateOf (appendBody lower upper body s)) :=
      keeps_appendBody s ⟨_, rfl⟩
    obtain ⟨_, h⟩ := hblocks
    rw [h]
    exact hs.of_sides (fun _ => rfl) fun _ => rfl
  | @aimed body =>
    have hobjective : s.AgreesButObjective (stateOf (replaceObjective body s)) :=
      keeps_replaceObjective s ⟨_, rfl⟩
    obtain ⟨_, h⟩ := hobjective
    rw [h]
    exact hs.of_sides (fun _ => rfl) fun _ => rfl
  | evaluated h =>
    obtain ⟨_, _, rfl⟩ := h
    exact hs.of_sides (fun _ => rfl) fun _ => rfl

theorem preserved_paired :
    Preserved (fun c : Command α => keepsArrays c) (fun _ => True) Scheme.Paired where
  undeclared _ := trivial
  declared _ _ _ := trivial
  created _ hcreate := Scheme.paired_of_createScheme hcreate
  worked hcommand _ := keeps_paired hcommand

open Scheme in
/-- Let the tables of both sides hold two separate arrays of reals of one matrix size under a kind,
    as they always do where commands put no whole arrays of bounds in place of others. A write of
    bounds that fails has written nothing. Indices of 64 bits that lie on the rows and on the
    columns, whether they are single, listed or parts of slices, have the bounds written where a
    meant row and a meant column cross, and nowhere else; if one of them lies outside, it is refused
    as an index. What a refusal says is that of the rows, or else that of the columns. An index of
    64 bits without a sign counts as the one with a sign that has the same bits. -/
theorem block_written_or_nothing {s : Scheme α} {k : Kind} {e : Extent} {key : Key α}
    (hkey : key.kind? = some k) (hs : s.HasPair k e) (bounds : Bounds α) :
    (∀ (rows cols : Selector α) fault s', writeBounds key rows cols bounds s = .error fault s' →
      s' = s) ∧
    (∀ rows cols : Choice, rows.Proper → cols.Proper →
      (rows.InRange e.rows → cols.InRange e.cols →
        ∃ s', writeBounds key rows.toSelector cols.toSelector bounds s = .ok () s' ∧
          s.BlockWritten s' k e rows cols bounds.toPair) ∧
      (¬(rows.InRange e.rows ∧ cols.InRange e.cols) →
        ∃ fault, writeBounds key rows.toSelector cols.toSelector bounds s = .error fault s ∧
          fault.category = .index)) ∧
    (∀ (rows cols : Choice) fault, rows.Refused e.rows fault ∨
        rows.Proper ∧ rows.InRange e.rows ∧ cols.Refused e.cols fault →
      writeBounds key rows.toSelector cols.toSelector bounds s = .error fault s) ∧
    (∀ (i : Int) (rows cols : Selector α), 0x8000000000000000 ≤ i → i < 0x10000000000000000 →
      writeBounds key (.index i) cols bounds =
        writeBounds key (.index (i - 0x10000000000000000)) cols bounds ∧
      writeBounds key rows (.index i) bounds =
        writeBounds key rows (.index (i - 0x10000000000000000)) bounds) ∧
    ∀ (commands : List (Command α)) configured name owned, (∀ c ∈ commands, keepsArrays c) →
      (after commands (start configured)).schemes.lookup name = some owned →
        owned.scheme.Paired := by
  refine ⟨fun rows cols fault s' h => hs.eq_of_error hkey h, ?_, ?_, ?_, ?_⟩
  · intro rows cols hrows hcols
    refine ⟨fun hin hin' => hs.exists_blockWritten hkey ⟨hrows, hin⟩ ⟨hcols, hin'⟩, fun hout => ?_⟩
    by_cases hin : rows.InRange e.rows
    · obtain ⟨fault, hfault, hcategory⟩ :=
        Choice.exists_refused (α := α) hcols fun hin' => hout ⟨hin, hin'⟩
      exact ⟨fault, hs.run_of_refused hkey (.inr ⟨hrows, hin, hfault⟩), hcategory⟩
    · obtain ⟨fault, hfault, hcategory⟩ := Choice.exists_refused (α := α) hrows hin
      exact ⟨fault, hs.run_of_refused hkey (.inl hfault), hcategory⟩
  · exact fun rows cols fault hfault => hs.run_of_refused hkey hfault
  · intro i rows cols hlow hhigh
    have hselect : ∀ size, (Selector.index i : Selector α).select size =
        (Selector.index (i - 0x10000000000000000)).select size :=
      fun size => Selector.select_unsigned hlow hhigh
    unfold writeBounds
    simp only [hselect, true_and]
  · intro commands configured name owned hcommands hnamed
    have hpaired := (Holds.start preserved_paired configured).after preserved_paired hcommands
    exact hpaired.schemes hnamed

open Extended

/-- Two states on three grid points. -/
def twoStatesCommands : List (Command (Extended ℚ)) :=
  [.problem (.addComponent .state "x" .null .null .null),
    .problem (.addComponent .state "y" .null .null .null),
    .scheme "s" (.create (.trapezoidal (.whole 3)))]

open Scheme in
theorem exists_twoStates :
    ∃ owned, (after twoStatesCommands (start none)).schemes.lookup "s" = some owned ∧
      owned.scheme.HasPair .states ⟨2, 3⟩ := by
  have hcheck : ((after twoStatesCommands (start none)).schemes.lookup "s").any fun owned =>
      (owned.scheme.lower.find? .states).any (·.shape = [2, 3]) &&
        (owned.scheme.upper.find? .states).any (·.shape = [2, 3]) := by
    decide +kernel
  obtain ⟨owned, hnamed, hscheme⟩ := (Option.any_eq_true _ _).mp hcheck
  rw [Bool.and_eq_true, Option.any_eq_true, Option.any_eq_true] at hscheme
  obtain ⟨⟨lower, hlower, hlowerShape⟩, upper, hupper, hupperShape⟩ := hscheme
  refine ⟨owned, hnamed, fun which => ?_⟩
  cases which with
  | lower => exact ⟨lower, hlower, of_decide_eq_true hlowerShape⟩
  | upper => exact ⟨upper, hupper, of_decide_eq_true hupperShape⟩

open Scheme in
/-- The last row in the first and in the last column, chosen backwards from beyond the end. A row
    that is not there keeps a row that is there from being written. -/
theorem block_written_or_nothing_states :
    ∃ owned, (after twoStatesCommands (start none)).schemes.lookup "s" = some owned ∧
      (∃ s' t, writeBounds (.kind .states) (Choice.listed [-1, 1]).toSelector
          (Choice.slice (some 5) (some (-5)) (some (-2))).toSelector
          (.between (.whole 1) (.whole 2)) owned.scheme = .ok () s' ∧
        s'.lower.find? .states = some t ∧ t.get 1 = finite 1 ∧ t.get 5 = finite 1) ∧
      ∃ fault, writeBounds (.kind .states) (Choice.listed [0, 2]).toSelector
          (Choice.slice none none none).toSelector (.between (.whole 1) (.whole 2)) owned.scheme =
        .error fault owned.scheme ∧ fault.category = .index := by
  obtain ⟨owned, hnamed, hpair⟩ := exists_twoStates
  have hkey : (Key.kind .states : Key (Extended ℚ)).kind? = some .states := rfl
  obtain ⟨-, hblocks, -⟩ :=
    block_written_or_nothing hkey hpair (.between (.whole 1) (.whole 2))
  refine ⟨owned, hnamed, ?_, ?_⟩
  · obtain ⟨s', hs', hwritten⟩ :=
      (hblocks (.listed [-1, 1]) (.slice (some 5) (some (-5)) (some (-2))) (by decide)
        (by decide)).1 (by decide) trivial
    obtain ⟨_, t, -, ht, -, hget⟩ := hwritten.block .lower
    have hrow : (Choice.listed [-1, 1]).Takes 2 1 := ⟨1, by decide, by decide, .inl rfl⟩
    have hfirst : (Choice.slice (some 5) (some (-5)) (some (-2))).Takes 3 0 :=
      ⟨⟨1, by decide⟩, by decide, by decide⟩
    have hlast : (Choice.slice (some 5) (some (-5)) (some (-2))).Takes 3 2 :=
      ⟨⟨0, by decide⟩, by decide, by decide⟩
    exact ⟨s', t, hs', ht, (hget 1 (by decide) 0 (by decide)).1 ⟨hrow, hfirst⟩,
      (hget 1 (by decide) 2 (by decide)).1 ⟨hrow, hlast⟩⟩
  · exact (hblocks (.listed [0, 2]) (.slice none none none) (by decide) (by decide)).2 (by decide)

/-- The action is refused as an index, but the lower bounds are no longer what they were. -/
def refusedHalfway (a : Building (Extended ℚ) Unit) (s : Scheme (Extended ℚ)) : Bool :=
  match a s with
  | .ok _ _ => false
  | .error fault s' =>
    fault.category = .index && Layout.flatten s'.lower ≠ Layout.flatten s.lower

open Scheme in
/-- Beyond 64 bits not every index that lies outside is refused as one: in a list it is an integer
    that is too large, and alone it can count as an index from the end. And once the lower bounds
    have more rows than the upper ones, a row may be written on one side only. -/
theorem block_of_wide_indices :
    (∃ owned, (after twoStatesCommands (start none)).schemes.lookup "s" = some owned ∧
      (¬OnAxis 2 (10 ^ 20) ∧ ∃ fault,
        writeBounds (.kind .states) (Choice.listed [10 ^ 20]).toSelector
          (Choice.index 0).toSelector (.between (.whole 1) (.whole 2)) owned.scheme =
            .error fault owned.scheme ∧ fault.category ≠ .index) ∧
      ¬OnAxis 2 (2 ^ 64 - 1) ∧ ∃ s',
        writeBounds (.kind .states) (Choice.index (2 ^ 64 - 1)).toSelector
          (Choice.index 0).toSelector (.between (.whole 1) (.whole 2)) owned.scheme = .ok () s') ∧
    ∃ owned, (after (twoStatesCommands ++
          [.scheme "s" (.replaceBounds .lower (.text "states")
            (.list [.list [.whole 0], .list [.whole 0], .list [.whole 0]]))])
        (start none)).schemes.lookup "s" = some owned ∧
      refusedHalfway (writeBounds (.kind .states) (Choice.index 2).toSelector
        (Choice.index 0).toSelector (.between (.whole 1) (.whole 2))) owned.scheme := by
  constructor
  · obtain ⟨owned, hnamed, hpair⟩ := exists_twoStates
    refine ⟨owned, hnamed, ⟨by decide, .indexTooLarge, ?_, by decide⟩, by decide, ?_⟩
    · exact hpair.run_of_refused rfl (.inl (.tooLarge List.mem_cons_self (by decide)))
    · have hlast : ∃ s', writeBounds (.kind .states) (Choice.index (-1)).toSelector
          (Choice.index 0).toSelector (.between (.whole 1) (.whole 2)) owned.scheme = .ok () s' ∧
          owned.scheme.BlockWritten s' .states ⟨2, 3⟩ (.index (-1)) (.index 0) _ :=
        hpair.exists_blockWritten rfl ⟨by decide, by decide⟩ ⟨by decide, by decide⟩
      obtain ⟨s', hs', -⟩ := hlast
      exact ⟨s', hs'⟩
  · exact (Option.any_eq_true _ _).mp (by decide +kernel)

end Workspace
end Collocation
