import Collocation.Proofs.Expression.Same
import Collocation.Proofs.Expression.Shape
import Collocation.Proofs.Places
import Collocation.Proofs.Scheme.Blocks
import Collocation.Proofs.Scheme.WarmStart
import Collocation.Proofs.Stacking

/-! # One layout for all vectors

  What a backend is given are four vectors from four tables: the variables, the carried guess and
  the bounds of both sides. In all of them an element of a matrix has the same place, whatever the
  order in which the tables were filled and whether numbers or symbols were stacked. The constraints
  that it is given are the equations of the blocks, one below the other. -/

namespace Collocation

open Layout

variable {α : Type} [Number α]

/-! ## Vectors by places -/

/-- The element of a tensor of two dimensions in a row and a column. -/
def Tensor.element (t : Tensor α) (i j : Nat) : α := t.get (place t.shape [i, j])

theorem Tensor.element_eq {t : Tensor α} {e : Extent} (h : t.shape = e.toList) (i j : Nat) :
    t.element i j = t.get (i + e.rows * j) := by
  simp [element, h, Extent.toList, place]

namespace Layout

variable {Γ : Kind → Extent} {n : Nat} {place : Element Γ ≃ Fin n}

/-- The vector with an element of every matrix at each place. -/
def arrange (place : Element Γ ≃ Fin n) (V : Kind → Tensor α) : Array α :=
  Array.ofFn fun p => (V (place.symm p).kind).element (place.symm p).row (place.symm p).col

/-- The place of an element shows the element in tensors of the sizes of a layout. -/
theorem getD_flatten_position {V : Kind → Tensor α} (h : ∀ k, (V k).shape = (Γ k).toList)
    (e : Element Γ) :
    (flatten (.full V)).getD e.position default = (V e.kind).element e.row e.col := by
  have hsize : e.row + (Γ e.kind).rows * e.col < (V e.kind).data.size := by
    rw [(V e.kind).size_data, h, volume_toList]
    exact index_lt e.row.isLt e.col.isLt
  rw [Element.position, getD_flatten (fits_full h) (Table.find?_full V e.kind) hsize,
    Tensor.element_eq (h e.kind)]

/-- Tensors of the sizes of a layout are stacked place by place. -/
theorem flatten_eq_arrange {V : Kind → Tensor α} (h : ∀ k, (V k).shape = (Γ k).toList)
    (hn : n = length (.full Γ)) (hplace : ∀ e, (place e : Nat) = e.position) :
    flatten (.full V) = arrange place V := by
  apply Array.ext
  · rw [size_flatten (fits_full h), arrange, Array.size_ofFn, hn]
  · intro p hp hp'
    rw [arrange, Array.size_ofFn] at hp'
    obtain ⟨e, he⟩ := place.surjective ⟨p, hp'⟩
    have hposition : e.position = p := by rw [← hplace e, he]
    have hlookup : (flatten (.full V))[p] = (flatten (.full V)).getD e.position default := by
      rw [hposition]
      simp [hp]
    rw [hlookup, getD_flatten_position h]
    simp only [arrange, Array.getElem_ofFn]
    rw [← he, Equiv.symm_apply_apply]

end Layout

/-! ## Programs -/

omit [Number α] in
/-- The vector of bounds on one side of a program. -/
def Program.side (p : Program α) : Side → Array α
  | .lower => p.lower
  | .upper => p.upper

namespace Scheme

variable {s : Scheme α} {guess : Trajectory α} {program : Program α}

theorem guessValue_eq_ok {k : Kind} {e : Extent} {v : Tensor α}
    (h : guessValue guess k e = .ok v) : v.shape = e.toList ∧
      (e.size ≠ 0 → ∃ value, Keyed.find? guess.values (.kind k) = some value ∧
        v = value.atLeast2D) := by
  unfold guessValue at h
  split at h
  · next value hvalue =>
    simp only [bind, Except.bind, pure, Except.pure] at h
    split_ifs at h with hshape
    cases h
    exact ⟨hshape, fun _ => ⟨value, hvalue, rfl⟩⟩
  · split_ifs at h with hsize
    · simp only [bind, Except.bind, pure, Except.pure] at h
      split_ifs at h with hshape
      cases h
      exact ⟨hshape, fun hne => absurd hsize hne⟩
    · cases h

/-- A program starts at the carried guess, every kind of which has the size of the variables. -/
theorem start_of_program {Γ : Kind → Extent} (hextents : s.extents = .full Γ)
    (h : s.program guess = .ok program) :
    ∃ carried, s.carryGuess guess = .ok carried ∧ ∃ V : Kind → Tensor α,
      program.start = flatten (.full V) ∧ ∀ k, (V k).shape = (Γ k).toList ∧
      ((Γ k).size ≠ 0 → ∃ value, Keyed.find? carried.values (.kind k) = some value ∧
        V k = value.atLeast2D) := by
  rw [program_eq (transcribed_of_program h)] at h
  obtain ⟨carried, hcarried, h⟩ := bind_eq_ok h
  obtain ⟨start, hstart, h⟩ := bind_eq_ok h
  obtain ⟨_, -, h⟩ := bind_eq_ok h
  cases h
  obtain ⟨values, hvalues, hstart⟩ := bind_eq_ok hstart
  cases hstart
  have hkind : ∀ k, ∃ v, guessValue carried k (Γ k) = .ok v ∧ values.find? k = some v := by
    intro k
    exact (Table.find?_of_mapExcept hvalues k).2 (Γ k) (by rw [hextents, Table.find?_full])
  choose V hV hfind using hkind
  have htable : values = .full V := by
    ext1 k
    rw [hfind, Table.find?_full]
  exact ⟨carried, hcarried, V, by rw [htable]; rfl, fun k => guessValue_eq_ok (hV k)⟩

omit [Number α] in
/-- Bounds of the sizes of the variables, as tables of all kinds. -/
theorem side_of_checkVariables (h : s.checkVariables = .ok ()) :
    ∃ Γ, s.extents = .full Γ ∧ ∀ which, ∃ V : Kind → Tensor α, s.side which = .full V ∧
      ∀ k, (V k).shape = (Γ k).toList := by
  have hextents : ∀ k, ∃ e, s.extents.find? k = some e := by
    intro k
    have hkind := forM_eq_ok_iff.mp h k k.mem_all
    cases he : s.extents.find? k with
    | none =>
      rw [he] at hkind
      cases hkind
    | some e => exact ⟨e, rfl⟩
  choose Γ hΓ using hextents
  refine ⟨Γ, Table.ext_find? fun k => by rw [hΓ, Table.find?_full], ?_⟩
  intro which
  choose V hV using fun k => exists_side h (hΓ k) which
  exact ⟨V, Table.ext_find? fun k => by rw [(hV k).1, Table.find?_full], fun k => (hV k).2⟩

theorem side_of_program (h : s.program guess = .ok program) (which : Side) :
    program.side which = flatten (s.side which) := by
  rw [(program_eq_ok (transcribed_of_program h) h).2]
  cases which <;> rfl

/-! ### Symbols and equations -/

/-- The stacked variables are a column of all elements, the kinds in their order. -/
theorem eval_stackedVariables {Γ : Kind → Extent} (hextents : s.extents = .full Γ)
    {env : Kind → Matrix α} (henv : ∀ k, (env k).extent = Γ k) :
    s.stackedVariables.eval env = .column (flatten (.full fun k => (env k).toTensor)) := by
  obtain rfl : (fun k => (env k).extent) = Γ := funext henv
  -- each kind is one column of its elements
  have hcolumn : ∀ k, (Sized.symbol k (env k).extent : Sized Kind α).vec.expr.eval env =
      (env k).vec := fun k => Sized.eval_vec_symbol rfl
  have hparts : ∀ e ∈ s.extents.toList.map (fun entry =>
      (Sized.symbol entry.1 entry.2 : Sized Kind α).vec.expr),
        ∃ n, (e.eval env).extent = ⟨n, 1⟩ := by
    intro e he
    rw [hextents, Table.toList_full, List.map_map] at he
    obtain ⟨k, -, rfl⟩ := List.mem_map.mp he
    exact ⟨_, congrArg Matrix.extent (hcolumn k)⟩
  obtain ⟨⟨n, hextent⟩, hstacked⟩ := Expr.elements_stacked hparts
  refine Matrix.eq_column hextent (hstacked.trans ?_)
  rw [hextents, Table.toList_full, List.map_map, List.flatMap_map]
  simp only [Function.comp_apply, hcolumn, flatten, Table.find?_full]
  rfl

/-- Equations that are columns of the sizes of their blocks are stacked into a column of all
    values. -/
theorem eval_stackedEquations {env : Kind → Matrix α}
    (h : ∀ b ∈ s.blocks, (b.equations.eval env).extent = ⟨b.size, 1⟩) :
    s.stackedEquations.eval env = .column (s.constraintValues env) := by
  have hparts : ∀ e ∈ s.blocks.map (·.equations), ∃ n, (e.eval env).extent = ⟨n, 1⟩ := by
    intro e he
    obtain ⟨b, hb, rfl⟩ := List.mem_map.mp he
    exact ⟨_, h b hb⟩
  obtain ⟨⟨n, hextent⟩, hstacked⟩ := Expr.elements_stacked hparts
  refine Matrix.eq_column hextent (hstacked.trans ?_)
  rw [constraintValues, toList_foldl_append, List.flatMap_map]
  rfl

/-- The values that a scheme reads from a decision vector make up this vector, place by place. -/
theorem arrange_valuesOf {Γ : Kind → Extent} {n : Nat} {place : Element Γ ≃ Fin n} {x : Array α}
    (hextents : s.extents = .full Γ) (hn : n = length (.full Γ))
    (hplace : ∀ e, (place e : Nat) = e.position) (hx : x.size = n) :
    arrange place (fun k => (s.valuesOf x k).toTensor) = x := by
  have hshape : ∀ k, ((s.valuesOf x k).toTensor).shape = (Γ k).toList := by
    intro k
    have htables := Scheme.extents_eq (x := x) hextents
    rw [hextents] at htables
    have hkind := congrArg (fun t => t.find? k) htables
    simp only [Table.find?_full, Option.some.injEq] at hkind
    exact congrArg Extent.toList hkind.symm
  have htable : (cut s.extents x).map (fun _ m => m.toTensor) =
      .full fun k => (s.valuesOf x k).toTensor := by
    ext1 k
    rw [Table.find?_map, Table.find?_full, Scheme.valuesOf, Table.values, cut, Table.find?_map,
      hextents, Table.find?_full]
    rfl
  rw [← flatten_eq_arrange hshape hn hplace, ← htable]
  exact flatten_cut (by rw [hextents, hx, hn])

end Scheme

/-! ## The shared layout -/

/-- An entry of a mapping as it is stacked: a literal as it is, or the symbolic matrix that it is
    read as. -/
inductive Layout.Item.Holds : Item α → Literal α → Prop
  | numeric (l : Literal α) : Holds (.numeric l) l
  | symbolic {l : Literal α} {m : Matrix α} (h : l.toMatrix = .ok m) : Holds (.symbolic m) l

/-- Numbers, nested lists and arrays of at most two dimensions are stacked element by element, next
    to symbolic parts or not. -/
theorem Layout.stack_of_literals {t : Table (Literal α)} {items : Keyed α (Item α)}
    (ht : ∀ k l, t.find? k = some l → ∃ shape, shape.length ≤ 2 ∧ l.IsNumeric shape)
    (hitems : items.Lists Item.Holds t) :
    stack items = .ok ⟨items.any fun entry => entry.2.isSymbolic,
      concat (t.map fun _ l => (l.toTensor.toOption.map Tensor.data).getD #[])⟩ := by
  refine stack_eq (hitems.map ?_)
  intro k item l hl hitem
  obtain ⟨shape, hdepth, hnumeric⟩ := ht k l hl
  obtain ⟨v, m, hv, -, hm, hdata⟩ := hnumeric.toMatrix_eq hdepth
  rw [hv]
  cases hitem with
  | numeric => exact .numeric hnumeric hdepth hv
  | symbolic hread =>
    cases hread.symm.trans hm
    have hshows : (Item.symbolic m).Shows m.data := .symbolic m
    rwa [hdata] at hshows

/-- Let the bound tables of a scheme have the sizes of its variables, and let a guess be accepted.
    There is one place for every element of every kind: behind all smaller kinds, column by column.
    There the unknowns of the program, their values in a decision vector, the carried guess and the
    bounds of both sides have exactly this element, whatever the order in which the tables were
    filled; only kinds without an element may be missing from the guess. At the values in a decision
    vector the unknowns are this vector, and the constraints of the program are the values of all
    equations if these are columns. And a mapping of numbers, nested lists and arrays of at most two
    dimensions is stacked into one vector, whatever its order and whichever of its entries are
    symbolic. -/
theorem vectors_share_layout {s : Scheme α} {guess : Trajectory α} {program : Program α}
    (hshapes : s.checkVariables = .ok ()) (hprogram : s.program guess = .ok program) :
    (∃ (Γ : Kind → Extent) (carried : Trajectory α),
      s.extents = .full Γ ∧ s.carryGuess guess = .ok carried ∧
      ∃ place : Element Γ ≃ Fin (Kind.all.map fun k => (Γ k).rows * (Γ k).cols).sum,
        (∀ e, (place e : Nat) =
          ((Kind.all.filter fun k => k.index < e.kind.index).map fun k =>
            (Γ k).rows * (Γ k).cols).sum + e.col * (Γ e.kind).rows + e.row) ∧
        (∀ (env : Kind → Matrix α) (vars : Keyed α (Item α)), (∀ k, (env k).extent = Γ k) →
          vars.Lists (fun item m => item = .symbolic m) (.full env) →
            stack vars = .ok ⟨true, arrange place fun k => (env k).toTensor⟩) ∧
        (∀ env : Kind → Matrix α, (∀ k, (env k).extent = Γ k) →
          program.unknowns.eval env = .column (arrange place fun k => (env k).toTensor) ∧
          ((∀ b ∈ s.blocks, (b.equations.eval env).extent = ⟨b.size, 1⟩) →
            program.constraints.eval env = .column (s.constraintValues env))) ∧
        (∀ x : Array α, x.size = (Kind.all.map fun k => (Γ k).rows * (Γ k).cols).sum →
          s.environments (.column x) = .ok [s.valuesOf x] ∧
            program.unknowns.eval (s.valuesOf x) = .column x ∧
            x = arrange place fun k => (s.valuesOf x k).toTensor) ∧
        (∃ V : Kind → Tensor α, program.start = arrange place V ∧ ∀ k,
          (V k).shape = (Γ k).toList ∧
          ((Γ k).size ≠ 0 → ∃ value, Keyed.find? carried.values (.kind k) = some value ∧
            V k = value.atLeast2D)) ∧
        ∀ which, ∃ V : Kind → Tensor α, s.side which = .full V ∧
          (∀ k, (V k).shape = (Γ k).toList) ∧ program.side which = arrange place V ∧
          ∀ bounds : Keyed α (Item α),
            bounds.Lists (fun item t => item = .numeric (.array t)) (s.side which) →
              stack bounds = .ok ⟨false, program.side which⟩) ∧
    ∀ t : Table (Literal α),
      (∀ k l, t.find? k = some l → ∃ shape, shape.length ≤ 2 ∧ l.IsNumeric shape) →
        ∃ x, ∀ items : Keyed α (Item α), items.Lists Item.Holds t →
          stack items = .ok ⟨items.any fun entry => entry.2.isSymbolic, x⟩ := by
  constructor
  · obtain ⟨Γ, hextents, hsides⟩ := Scheme.side_of_checkVariables hshapes
    obtain ⟨carried, hcarried, V, hstart, hV⟩ := Scheme.start_of_program hextents hprogram
    have hlength : (Kind.all.map fun k => (Γ k).rows * (Γ k).cols).sum = length (.full Γ) :=
      (countAll_full Kind.all).symm
    obtain ⟨place, hplace⟩ : ∃ place : Element Γ ≃
        Fin (Kind.all.map fun k => (Γ k).rows * (Γ k).cols).sum,
          ∀ e, (place e : Nat) = e.position := by
      rw [hlength]
      exact Element.exists_equiv Γ
    have harrange : ∀ W : Kind → Tensor α, (∀ k, (W k).shape = (Γ k).toList) →
        flatten (.full W) = arrange place W := fun W hW => flatten_eq_arrange hW hlength hplace
    have hunknowns : ∀ env : Kind → Matrix α, (∀ k, (env k).extent = Γ k) →
        program.unknowns.eval env = .column (arrange place fun k => (env k).toTensor) := by
      intro env henv
      rw [← harrange _ fun k => congrArg Extent.toList (henv k),
        (Scheme.program_eq_ok (Scheme.transcribed_of_program hprogram) hprogram).2]
      exact Scheme.eval_stackedVariables hextents henv
    refine ⟨Γ, carried, hextents, hcarried, place, ?_, ?_, ?_, ?_, ?_, ?_⟩
    · intro e
      rw [hplace, Element.position, offset_full, Nat.mul_comm e.col.val]
      omega
    · intro env vars henv hvars
      have htable : (Table.full env).map (fun _ m => m.toTensor) =
          .full fun k => (env k).toTensor := by
        ext1 k
        rw [Table.find?_map, Table.find?_full, Table.find?_full, Option.map_some]
      rw [stack_of_symbols ⟨.states, by rw [Table.contains, Table.find?_full]; rfl⟩ hvars, htable,
        harrange _ fun k => congrArg Extent.toList (henv k)]
    · intro env henv
      refine ⟨hunknowns env henv, fun hcolumns => ?_⟩
      rw [(Scheme.program_eq_ok (Scheme.transcribed_of_program hprogram) hprogram).2]
      exact Scheme.eval_stackedEquations hcolumns
    · intro x hx
      have hsize : x.size = length s.extents := by rw [hx, hlength, hextents]
      have hvalues := Scheme.arrange_valuesOf hextents hlength hplace hx
      have hsizes : ∀ k, (s.valuesOf x k).extent = Γ k := by
        intro k
        have htables := congrArg (fun t => t.find? k) (Scheme.extents_eq (x := x) hextents)
        rw [hextents] at htables
        simpa using htables.symm
      refine ⟨Scheme.environments_eq hsize, ?_, hvalues.symm⟩
      rw [hunknowns _ hsizes, hvalues]
    · exact ⟨V, hstart.trans (harrange V fun k => (hV k).1), hV⟩
    · intro which
      obtain ⟨W, hW, hWshape⟩ := hsides which
      refine ⟨W, hW, hWshape, ?_, ?_⟩
      · rw [Scheme.side_of_program hprogram, hW, harrange W hWshape]
      · intro bounds hbounds
        rw [Scheme.side_of_program hprogram]
        refine stack_of_arrays ?_ hbounds
        intro k v hv
        rw [hW, Table.find?_full] at hv
        cases hv
        rw [hWshape]
        exact Nat.le_refl 2
  · intro t ht
    exact ⟨_, fun items hitems => stack_of_literals ht hitems⟩

/-- The start and the bounds of the slide have one layout. -/
theorem vectors_share_layout_slide :
    ∃ s s' program, Scheme.custom (.standard none) Scheme.slide Scheme.looseRule
        (some (.vector (#[0, 1 / 4, 1].map Extended.finite))) 3 true = .ok s ∧
      Scheme.transcribe Scheme.slide s = .ok () s' ∧
      s'.program Scheme.backwardSlide = .ok program ∧
      ∃ (Γ : Kind → Extent) (n : Nat) (place : Element Γ ≃ Fin n) (start lower : Kind → Tensor _),
        s'.extents = .full Γ ∧ program.start = arrange place start ∧ s'.lower = .full lower ∧
          program.lower = arrange place lower := by
  have hpasses : Scheme.transcribesTo Scheme.slide
      (Scheme.custom (.standard none) Scheme.slide Scheme.looseRule
        (some (.vector (#[0, 1 / 4, 1].map Extended.finite))) 3 true)
      (fun _ s' => (s'.program Scheme.backwardSlide).toOption.isSome) := by
    decide +kernel
  obtain ⟨s, s', hs, hs', hcheck⟩ := Scheme.exists_of_transcribesTo hpasses
  obtain ⟨program, hprogram⟩ := Option.isSome_iff_exists.mp hcheck
  obtain ⟨⟨Γ, carried, hextents, -, place, -, -, -, -, ⟨start, hstart, -⟩, hsides⟩, -⟩ :=
    vectors_share_layout (Scheme.checkVariables_of_transcribe hs') (eq_ok_of_toOption hprogram)
  obtain ⟨lower, hlower, -, hprogramLower, -⟩ := hsides .lower
  exact ⟨s, s', program, hs, hs', eq_ok_of_toOption hprogram, Γ, _, place, start, lower, hextents,
    hstart, hlower, hprogramLower⟩

end Collocation
