import Collocation.Key
import Collocation.Proofs.Outcome

/-! # Tables and keys

  A table is the list of its entries, and entries under distinct keys that are all kinds are a
  table. So what is done to the entries one by one is done to the table. -/

namespace Collocation

theorem Kind.mem_all (k : Kind) : k ∈ Kind.all := by
  cases k <;> decide

theorem Kind.nodup_all : Kind.all.Nodup := by decide

namespace Table

variable {β γ ε : Type} {t u : Table β} {entries : List (Kind × β)} {k : Kind} {v : β}

/-! ## Entries -/

theorem mem_toList : (k, v) ∈ t.toList ↔ t.find? k = some v := by
  simp [toList, Kind.mem_all]

theorem toList_full (f : Kind → β) : (full f).toList = Kind.all.map fun k => (k, f k) := by
  simp [toList]

/-- A kind has one entry at most. -/
theorem pairwise_toList (t : Table β) : t.toList.Pairwise fun e e' => e.1 ≠ e'.1 := by
  refine List.Pairwise.filterMap _ ?_ Kind.nodup_all
  intro k k' hne e he e' he'
  obtain ⟨v, -, rfl⟩ := Option.map_eq_some_iff.mp he
  obtain ⟨v', -, rfl⟩ := Option.map_eq_some_iff.mp he'
  exact hne

/-- What is entered under other kinds leaves a kind as it is. -/
theorem find?_foldl_of_forall_ne (h : ∀ e ∈ entries, e.1 ≠ k) :
    (entries.foldl (fun t e => t.insert e.1 e.2) u).find? k = u.find? k := by
  induction entries generalizing u with
  | nil => rfl
  | cons e entries ih =>
    rw [List.foldl_cons, ih fun e' he' => h e' (List.mem_cons_of_mem e he'),
      find?_insert_ne _ _ (h e List.mem_cons_self).symm]

/-- Of entries under distinct kinds each is found. -/
theorem find?_foldl_of_mem (hne : entries.Pairwise fun e e' => e.1 ≠ e'.1) (h : (k, v) ∈ entries) :
    (entries.foldl (fun t e => t.insert e.1 e.2) u).find? k = some v := by
  induction entries generalizing u with
  | nil => cases h
  | cons e entries ih =>
    rw [List.pairwise_cons] at hne
    rw [List.foldl_cons]
    rcases List.mem_cons.mp h with rfl | hrest
    · rw [find?_foldl_of_forall_ne fun e' he' => (hne.1 e' he').symm, find?_insert_self]
    · exact ih hne.2 hrest

theorem find?_ofList (hne : entries.Pairwise fun e e' => e.1 ≠ e'.1) :
    (ofList entries).find? k = some v ↔ (k, v) ∈ entries := by
  constructor
  · intro h
    -- were there no entry under the kind, nothing would be found
    by_cases hkind : ∃ e ∈ entries, e.1 = k
    · obtain ⟨⟨k', v'⟩, hmem, rfl⟩ := hkind
      have hfound := find?_foldl_of_mem (u := empty) hne hmem
      cases hfound.symm.trans h
      exact hmem
    · have hnone : (ofList entries).find? k = (empty : Table β).find? k :=
        find?_foldl_of_forall_ne fun e he hk => hkind ⟨e, he, hk⟩
      rw [find?_empty, h] at hnone
      cases hnone
  · exact find?_foldl_of_mem hne

@[simp] theorem ofList_toList (t : Table β) : ofList t.toList = t := by
  ext1 k
  apply Option.ext
  intro v
  rw [find?_ofList t.pairwise_toList, mem_toList]

theorem toList_map (f : Kind → β → γ) (t : Table β) :
    (t.map f).toList = t.toList.map fun e => (e.1, f e.1 e.2) := by
  unfold toList
  rw [List.map_filterMap]
  congr 1
  funext k
  simp [Option.map_map, Function.comp_def]

/-- A step for every value, none of which fails. -/
theorem mapExcept_of_ok {f : Kind → β → Except ε γ} {g : Kind → β → γ}
    (h : ∀ k v, t.find? k = some v → f k v = .ok (g k v)) : t.mapExcept f = .ok (t.map g) := by
  have hentries : t.toList.mapM (fun e => do return (e.1, ← f e.1 e.2)) =
      .ok (t.toList.map fun e => (e.1, g e.1 e.2)) := by
    refine mapM_of_ok ?_
    rintro ⟨k, v⟩ hmem
    simp only [h k v (mem_toList.mp hmem)]
    rfl
  unfold mapExcept
  rw [hentries, ← toList_map]
  exact congrArg Except.ok (ofList_toList _)

/-- A step for every value, each of which ended well. -/
theorem find?_of_mapExcept {f : Kind → β → Except ε γ} {w : Table γ} (h : t.mapExcept f = .ok w)
    (k : Kind) : (t.find? k = none → w.find? k = none) ∧
      ∀ v, t.find? k = some v → ∃ x, f k v = .ok x ∧ w.find? k = some x := by
  obtain ⟨entries, hentries, h⟩ := bind_eq_ok h
  cases h
  have hsteps : List.Forall₂ (fun e e' => e'.1 = e.1 ∧ f e.1 e.2 = .ok e'.2) t.toList entries := by
    refine (mapM_eq_ok hentries).imp ?_
    rintro ⟨k, v⟩ ⟨k', x⟩ hstep
    obtain ⟨x', hx', hstep⟩ := bind_eq_ok hstep
    cases hstep
    exact ⟨rfl, hx'⟩
  have hkinds : entries.map Prod.fst = t.toList.map Prod.fst := by
    apply List.ext_getElem
    · rw [List.length_map, List.length_map, hsteps.length_eq]
    · intro i hi hi'
      rw [List.length_map] at hi hi'
      rw [List.getElem_map, List.getElem_map]
      exact (hsteps.get hi' hi).1
  have hne : entries.Pairwise fun e e' => e.1 ≠ e'.1 := by
    have hfirsts : (entries.map Prod.fst).Pairwise (· ≠ ·) := by
      rw [hkinds, List.pairwise_map]
      exact t.pairwise_toList
    exact List.pairwise_map.mp hfirsts
  constructor
  · intro hk
    rw [Option.eq_none_iff_forall_ne_some]
    intro x hx
    obtain ⟨⟨k', v⟩, hmem, hk'⟩ := List.mem_map.mp
      (hkinds ▸ List.mem_map_of_mem ((find?_ofList hne).mp hx))
    cases hk'
    cases hk.symm.trans (mem_toList.mp hmem)
  · intro v hv
    obtain ⟨i, hi, hget⟩ := List.getElem_of_mem (mem_toList.mpr hv)
    have hi' : i < entries.length := hsteps.length_eq ▸ hi
    have hstep := hsteps.get hi hi'
    rw [List.get_eq_getElem, List.get_eq_getElem, hget] at hstep
    refine ⟨_, hstep.2, (find?_ofList hne).mpr ?_⟩
    have hentry : (k, entries[i].2) = entries[i] := Prod.ext hstep.1.symm rfl
    exact hentry ▸ List.getElem_mem hi'

end Table

namespace Key

variable {α : Type} {key : Key α} {k k' : Kind}

theorem kind?_of_toKind (h : key.toKind = .ok k) : key.kind? = some k := by
  cases key <;> cases h <;> rfl

theorem toKind_of_kind? (h : key.kind? = some k) : key.toKind = .ok k := by
  cases key <;> cases h <;> rfl

theorem same_of_kind? [Number α] {key' : Key α} (h : key.kind? = some k)
    (h' : key'.kind? = some k') :
    key.same key' = decide (k = k') := by
  unfold same
  split
  · cases h
  · rw [h, h']

theorem same_kind_iff [Number α] : key.same (.kind k) = true ↔ key.kind? = some k := by
  cases key with
  | kind k' => simp [same, kind?]
  | index k' l => simp [same, kind?]
  | other l => simp [same, kind?]

end Key

namespace Keyed

variable {α β : Type} [Number α] {entries : Keyed α β} {t : Table β} {k : Kind}

/-- No two keys are the same. -/
def Distinct (entries : Keyed α β) : Prop := entries.Pairwise fun e e' => e.1.same e'.1 = false

instance : Decidable (Distinct entries) := inferInstanceAs (Decidable (List.Pairwise _ _))

omit [Number α] in
/-- The kinds behind the keys, of entries that are a table. -/
theorem exists_of_toTable (h : entries.toTable = .ok t) :
    ∃ kinds : List (Kind × β), t = .ofList kinds ∧
      List.Forall₂ (fun e e' => e.1.kind? = some e'.1 ∧ e.2 = e'.2) entries kinds := by
  obtain ⟨kinds, hkinds, h⟩ := bind_eq_ok h
  cases h
  refine ⟨kinds, rfl, (mapM_eq_ok hkinds).imp ?_⟩
  rintro ⟨key, v⟩ ⟨k, v'⟩ hkey
  obtain ⟨k', hk', hkey⟩ := bind_eq_ok hkey
  cases hkey
  exact ⟨Key.kind?_of_toKind hk', rfl⟩

section Forall₂

variable {kinds : List (Kind × β)}

theorem pairwise_kinds
    (h : List.Forall₂ (fun e e' => e.1.kind? = some e'.1 ∧ e.2 = e'.2) entries kinds)
    (hdistinct : entries.Distinct) : kinds.Pairwise fun e e' => e.1 ≠ e'.1 := by
  induction h with
  | nil => exact .nil
  | @cons e e' entries kinds hhead htail ih =>
    obtain ⟨hfirst, hrest⟩ := List.pairwise_cons.mp hdistinct
    refine List.pairwise_cons.mpr ⟨?_, ih hrest⟩
    intro e₂ hmem heq
    obtain ⟨i, hi, rfl⟩ := List.getElem_of_mem hmem
    have hi' : i < entries.length := htail.length_eq ▸ hi
    have hsame := Key.same_of_kind? hhead.1 (htail.get hi' hi).1
    rw [List.get_eq_getElem, List.get_eq_getElem, hfirst _ (List.getElem_mem hi'), heq] at hsame
    simp at hsame

theorem find?_eq_of_forall₂
    (h : List.Forall₂ (fun e e' => e.1.kind? = some e'.1 ∧ e.2 = e'.2) entries kinds) :
    Keyed.find? entries (.kind k) = (kinds.find? fun e => e.1 = k).map (·.2) := by
  unfold Keyed.find?
  induction h with
  | nil => rfl
  | @cons e e' entries kinds hhead htail ih =>
    have hsame : e.1.same (.kind k) = decide (e'.1 = k) := Key.same_of_kind? hhead.1 rfl
    rw [List.find?_cons, List.find?_cons, hsame]
    by_cases hk : e'.1 = k
    · simp [hk, hhead.2]
    · simp only [hk, decide_false]
      exact ih

end Forall₂

/-- Under distinct keys a kind has the value that it has in the table. -/
theorem find?_of_toTable (hdistinct : entries.Distinct) (h : entries.toTable = .ok t) (k : Kind) :
    Keyed.find? entries (.kind k) = t.find? k := by
  obtain ⟨kinds, rfl, hkinds⟩ := exists_of_toTable h
  have hne := pairwise_kinds hkinds hdistinct
  rw [find?_eq_of_forall₂ hkinds]
  apply Option.ext
  intro v
  rw [Table.find?_ofList hne, Option.map_eq_some_iff]
  constructor
  · rintro ⟨⟨k', v'⟩, hfind, rfl⟩
    have hk := List.find?_some hfind
    rw [decide_eq_true_iff] at hk
    cases hk
    exact List.mem_of_find?_eq_some hfind
  · intro hmem
    -- the first entry under the kind is the only one
    have hsome : (kinds.find? fun e => e.1 = k).isSome := by
      rw [List.find?_isSome]
      exact ⟨_, hmem, by simp⟩
    obtain ⟨⟨k', v'⟩, hfind⟩ := Option.isSome_iff_exists.mp hsome
    have hk := List.find?_some hfind
    rw [decide_eq_true_iff] at hk
    cases hk
    have hmem' := List.mem_of_find?_eq_some hfind
    rw [← Table.find?_ofList hne] at hmem hmem'
    cases hmem.symm.trans hmem'
    exact ⟨_, hfind, rfl⟩

theorem get_of_toTable (hdistinct : entries.Distinct) (h : entries.toTable = .ok t) {v : β}
    (hk : t.find? k = some v) : entries.get k = .ok v := by
  unfold Keyed.get
  rw [find?_of_toTable hdistinct h, hk]

theorem mem_of_toTable (hdistinct : entries.Distinct) (h : entries.toTable = .ok t) {key : Key α}
    {v : β} (hmem : (key, v) ∈ entries) : ∃ k, key.kind? = some k ∧ t.find? k = some v := by
  obtain ⟨kinds, rfl, hkinds⟩ := exists_of_toTable h
  obtain ⟨i, hi, hget⟩ := List.getElem_of_mem hmem
  have hi' : i < kinds.length := hkinds.length_eq ▸ hi
  obtain ⟨hkey, hvalue⟩ := hkinds.get hi hi'
  rw [List.get_eq_getElem, List.get_eq_getElem, hget] at hkey hvalue
  refine ⟨_, hkey, ?_⟩
  rw [Table.find?_ofList (pairwise_kinds hkinds hdistinct)]
  simp only at hvalue
  rw [hvalue]
  exact List.getElem_mem hi'

theorem distinct_ofTable (t : Table β) : (Keyed.ofTable t : Keyed α β).Distinct := by
  unfold Distinct ofTable
  rw [List.pairwise_map]
  refine t.pairwise_toList.imp ?_
  intro e e' hne
  rw [Key.same_of_kind? rfl rfl]
  exact decide_eq_false hne

omit [Number α] in
@[simp] theorem toTable_ofTable (t : Table β) : (Keyed.ofTable t : Keyed α β).toTable = .ok t := by
  unfold toTable ofTable
  rw [List.mapM_map]
  -- every key gives back its kind
  have hkinds : t.toList.mapM (fun e => (.ok e : Except (Fault α) _)) = .ok (t.toList.map id) :=
    mapM_of_ok fun _ _ => rfl
  rw [List.map_id] at hkinds
  exact (congrArg (Except.map _) hkinds).trans (congrArg Except.ok t.ofList_toList)

end Keyed
end Collocation
