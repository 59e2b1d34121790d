import ResultSet.Proofs.Column.Gather

/-!
# Selections one after the other

Two selections of rows in a row are one selection, and some selections are the same although
they are carried out in different ways.  Columns are compared as they are stored, with their
offsets and placeholders.

* `gatherRows_gatherRows`, `keepRows_keepRows` and `repeatRows_toNat` say this of lists of rows.
* `ConsistsOf.unique`: a column is determined by its shape and its stored rows, on every level of
  nesting.  So `select_eq_ok_iff` knows the result of a selection by its rows alone, and
  `select_select` and `select_congr` carry the laws of lists over to every layout.
* `selections_compose` has the laws together.
-/

namespace ResultSet

namespace Selection

variable {α : Type}

/-! ## Lists of rows -/

/-- Rows that are picked from picked rows. -/
theorem gatherRows_gatherRows {picked again : List Nat} {rows : List α}
    (hpicked : ∀ i ∈ picked, i < rows.length) (hagain : ∀ i ∈ again, i < picked.length) :
    gatherRows again (gatherRows picked rows) = gatherRows (gatherRows again picked) rows := by
  have hfirst : ∀ i ∈ again, i < (gatherRows picked rows).length := by
    rw [gatherRows_length hpicked]
    exact hagain
  have hboth : ∀ i ∈ gatherRows again picked, i < rows.length := by
    intro i hi
    obtain ⟨j, -, hj⟩ := List.mem_filterMap.1 hi
    exact hpicked i (List.mem_of_getElem? hj)
  apply List.ext_getElem?
  intro row
  rw [getElem?_gatherRows hfirst, getElem?_gatherRows hboth, getElem?_gatherRows hagain,
    Option.bind_assoc]
  exact congrArg _ (funext fun i => getElem?_gatherRows hpicked i)

/-- The numbers of rows that are picked by number, one by one. -/
theorem gatherRows_eq_map {indices rows : List Nat} (h : ∀ i ∈ indices, i < rows.length) :
    gatherRows indices rows = indices.map fun i => rows.getD i 0 := by
  induction indices with
  | nil => rfl
  | cons i indices ih =>
    have hi : i < rows.length := h i List.mem_cons_self
    rw [gatherRows_cons hi, ih fun j hj => h j (List.mem_cons_of_mem _ hj), List.map_cons,
      List.getD_eq_getElem?_getD, List.getElem?_eq_getElem hi, Option.getD_some]

/-- All rows in their order are the rows. -/
theorem gatherRows_range (rows : List α) : gatherRows (List.range rows.length) rows = rows := by
  have hrange : ∀ i ∈ List.range rows.length, i < rows.length := fun i hi => List.mem_range.1 hi
  apply List.ext_getElem?
  intro row
  rw [getElem?_gatherRows hrange]
  by_cases hrow : row < rows.length
  · rw [List.getElem?_range hrow, Option.bind_some]
  · rw [List.getElem?_eq_none (by simpa using hrow), List.getElem?_eq_none (Nat.le_of_not_lt hrow),
      Option.bind_none]

/-- Each number of a list stands in the other list at the position of its place. -/
def IsInverse (perm inverse : List Nat) : Prop :=
  inverse.length = perm.length ∧ ∀ i j : Nat, perm[i]? = some j → inverse[j]? = some i

/-- A permutation and its inverse pick all rows in their order. -/
theorem gatherRows_inverse {perm inverse : List Nat} {size : Nat}
    (hperm : perm.Perm (List.range size)) (h : IsInverse perm inverse) :
    (∀ i ∈ inverse, i < size) ∧ gatherRows inverse perm = List.range size := by
  obtain rfl : perm.length = size := hperm.length_eq.trans List.length_range
  obtain ⟨hlength, hinverse⟩ := h
  rw [← hlength] at hperm ⊢
  -- every number below the length stands somewhere in the permutation
  have hlookup (j : Nat) (hj : j < inverse.length) :
      ∃ i, perm[i]? = some j ∧ inverse[j]? = some i :=
    have ⟨i, hi⟩ := List.getElem?_of_mem (hperm.mem_iff.2 (List.mem_range.2 hj))
    ⟨i, hi, hinverse i j hi⟩
  have hrange : ∀ i ∈ inverse, i < perm.length := by
    intro i hi
    obtain ⟨j, hj, rfl⟩ := List.getElem_of_mem hi
    obtain ⟨k, hk, hlook⟩ := hlookup j hj
    rw [List.getElem?_eq_getElem hj, Option.some.injEq] at hlook
    rw [hlook]
    exact (List.getElem?_eq_some_iff.1 hk).1
  refine ⟨fun i hi => hlength ▸ hrange i hi, ?_⟩
  apply List.ext_getElem?
  intro j
  rw [getElem?_gatherRows hrange]
  by_cases hj : j < inverse.length
  · obtain ⟨i, hi, hlook⟩ := hlookup j hj
    rw [hlook, Option.bind_some, hi, List.getElem?_range hj]
  · rw [List.getElem?_eq_none (Nat.le_of_not_lt hj), List.getElem?_eq_none (by simpa using hj),
      Option.bind_none]

/-- The mask that keeps, of the rows that a mask keeps, those that another one keeps. -/
def narrow : List Bool → List Bool → List Bool
  | true :: mask, kept :: second => kept :: narrow mask second
  | false :: mask, second => false :: narrow mask second
  | _, _ => []

theorem narrow_length {mask second : List Bool} (h : second.length = mask.count true) :
    (narrow mask second).length = mask.length := by
  induction mask generalizing second with
  | nil => rfl
  | cons marked mask ih =>
    cases marked with
    | false => rw [narrow, List.length_cons, List.length_cons, ih (by simpa using h)]
    | true =>
      cases second with
      | nil => simp at h
      | cons kept second =>
        rw [narrow, List.length_cons, List.length_cons, ih (by simpa using h)]

/-- Rows that are kept of kept rows. -/
theorem keepRows_keepRows (mask second : List Bool) (rows : List α) :
    keepRows second (keepRows mask rows) = keepRows (narrow mask second) rows := by
  induction mask generalizing second rows with
  | nil => cases second <;> simp [keepRows, narrow]
  | cons marked mask ih =>
    cases rows with
    | nil => cases second <;> simp [keepRows]
    | cons row rows =>
      cases marked with
      | false => simp [keepRows, narrow, ih]
      | true =>
        cases second with
        | nil => simp [keepRows, narrow]
        | cons kept second => cases kept <;> simp [keepRows, narrow, ih]

/-- A row is kept by repeating it once, and dropped by repeating it not at all. -/
theorem repeatRows_toNat (mask : List Bool) (rows : List α) :
    repeatRows (mask.map Bool.toNat) rows = keepRows mask rows := by
  induction mask generalizing rows with
  | nil => simp [keepRows, repeatRows]
  | cons marked mask ih =>
    cases rows with
    | nil => cases marked <;> simp [keepRows, repeatRows]
    | cons row rows => cases marked <;> simp [keepRows, repeatRows, ih]

theorem keepRows_all (rows : List α) : keepRows (List.replicate rows.length true) rows = rows := by
  induction rows with
  | nil => rfl
  | cons row rows ih => rw [List.length_cons, List.replicate_succ, keepRows, ih]

end Selection

namespace Column

open Selection

/-! ## Columns with the same rows -/

/-- A column is determined by its shape and its stored rows. -/
theorem ConsistsOf.unique {c d : Column} {shape : Shape} {rows : List StoredRow}
    (hc : c.ConsistsOf shape rows) (hd : d.ConsistsOf shape rows) : c = d := by
  obtain ⟨hc, rfl, rfl⟩ := hc
  obtain ⟨hwell, hshape, hrows⟩ := hd
  induction c generalizing d with
  | cells kind cells =>
    cases d with
    | cells kind' cells' =>
      obtain rfl : kind' = kind := Shape.cells.inj hshape
      rw [(List.map_inj_right fun v w h => by cases h; rfl).1 hrows]
    | _ => cases hshape
  | strings c =>
    cases d with
    | strings d =>
      have hvalues : d.toList = c.toList :=
        (List.map_inj_right fun v w h => StoredRow.string.inj h).1 hrows
      rw [StringColumn.eq_ofList_toList hc, ← hvalues, ← StringColumn.eq_ofList_toList hwell]
    | _ => cases hshape
  | decimals c =>
    cases d with
    | decimals d =>
      have hwords : d.rows = c.rows :=
        (List.map_inj_right fun v w h => StoredRow.word.inj h).1 hrows
      have hscale : d.scale = c.scale := Shape.decimals.inj hshape
      cases c
      cases d
      cases hwords
      cases hscale
      rfl
    | _ => cases hshape
  | sketches c =>
    cases d with
    | sketches d =>
      have hstates : d.rows = c.rows :=
        (List.map_inj_right fun v w h => StoredRow.state.inj h).1 hrows
      have hfunction : d.function = c.function := Shape.sketches.inj hshape
      cases c
      cases d
      cases hstates
      cases hfunction
      rfl
    | _ => cases hshape
  | nullable nested nulls ih =>
    cases d with
    | nullable nested' nulls' =>
      have hnested : nested'.rows = nested.rows := by
        have hplaceholders := congrArg (List.map StoredRow.nested) hrows
        rwa [← nested_rows hwell, ← nested_rows hc] at hplaceholders
      have hnulls : nulls' = nulls := by
        apply List.ext_getElem?
        intro i
        have hnull := isNullAt?_eq hwell i
        rw [hrows, ← isNullAt?_eq hc i] at hnull
        exact hnull
      rw [ih hc.1 hwell.1 (Shape.nullable.inj hshape) hnested, hnulls]
    | _ => cases hshape

/-- On arguments that suit, a selection gives the column of the rows that the walk over the rows
picks. -/
theorem select_eq_ok_iff {c d : Column} (hwell : c.WellFormed) {s : RowSelection}
    (h : s.Suits c.length) :
    Layout.select c s = .ok d ↔ d.ConsistsOf c.shape (s.rows c.rows) := by
  have hrows : s.rows c.rows = gatherRows (s.indices c.length) c.rows := by
    rw [← rows_length hwell] at h ⊢
    exact RowSelection.rows_eq_gatherRows h
  obtain ⟨result, hselect, hparts⟩ := select_of_suits hwell h
  rw [hselect, hrows]
  constructor
  · intro hresult
    rwa [← Except.ok.inj hresult]
  · intro hd
    rw [hparts.unique hd]

/-- A selection, a second one of the selected rows, and one that picks the same rows at once. -/
theorem select_select {c : Column} (hwell : c.WellFormed) {s t u : RowSelection}
    (hs : s.Suits c.length) (ht : t.Suits (s.rows c.rows).length) (hu : u.Suits c.length)
    (hrows : t.rows (s.rows c.rows) = u.rows c.rows) :
    ∃ d e, Layout.select c s = .ok d ∧ Layout.select d t = .ok e ∧ Layout.select c u = .ok e := by
  obtain ⟨d, hselect, -⟩ := select_of_suits hwell hs
  have hd := (select_eq_ok_iff hwell hs).1 hselect
  rw [← hd.length_eq] at ht
  obtain ⟨e, hagain, -⟩ := select_of_suits hd.wellFormed ht
  have he := (select_eq_ok_iff hd.wellFormed ht).1 hagain
  rw [hd.shape_eq, hd.rows_eq, hrows] at he
  exact ⟨d, e, hselect, hagain, (select_eq_ok_iff hwell hu).2 he⟩

/-- Selections that pick the same rows have the same result. -/
theorem select_congr {c : Column} (hwell : c.WellFormed) {s t : RowSelection}
    (hs : s.Suits c.length) (ht : t.Suits c.length) (hrows : s.rows c.rows = t.rows c.rows) :
    ∃ d, Layout.select c s = .ok d ∧ Layout.select c t = .ok d := by
  obtain ⟨d, hselect, -⟩ := select_of_suits hwell hs
  have hd := (select_eq_ok_iff hwell hs).1 hselect
  rw [hrows] at hd
  exact ⟨d, hselect, (select_eq_ok_iff hwell ht).2 hd⟩

/-- A selection of all rows in their order gives the column back. -/
theorem select_self {c : Column} (hwell : c.WellFormed) {s : RowSelection} (hs : s.Suits c.length)
    (hrows : s.rows c.rows = c.rows) : Layout.select c s = .ok c :=
  (select_eq_ok_iff hwell hs).2 ⟨hwell, rfl, hrows.symm⟩

/-! ## Permutations -/

/-- The arguments of a permutation that names as many rows as there are. -/
theorem permute_suits {perm : List Nat} {size : Nat} (hlength : perm.length = size)
    (hrange : ∀ i ∈ perm, i < size) : (RowSelection.permute perm 0).Suits size :=
  ⟨Nat.le_of_eq hlength.symm, fun i hi => hrange i (List.mem_of_mem_take hi)⟩

theorem rows_permute {α : Type} {perm : List Nat} {rows : List α}
    (hlength : perm.length = rows.length) :
    (RowSelection.permute perm 0).rows rows = gatherRows perm rows := by
  show gatherRows (perm.take (permutationSize 0 rows.length)) rows = _
  rw [show permutationSize 0 rows.length = rows.length from rfl, ← hlength, List.take_length]

/-- Two permutations, one after the other, are one. -/
theorem permute_permute {c : Column} (hwell : c.WellFormed) {p q : List Nat}
    (hp : p.length = c.length) (hq : q.length = c.length) (hpr : ∀ i ∈ p, i < c.length)
    (hqr : ∀ i ∈ q, i < c.length) :
    ∃ d e, c.permute p 0 = .ok d ∧ d.permute q 0 = .ok e ∧
      c.permute (gatherRows q p) 0 = .ok e := by
  have hrows := rows_length hwell
  have hpicked : ∀ i ∈ p, i < c.rows.length := by rwa [hrows]
  have hagain : ∀ i ∈ q, i < p.length := by rwa [hp]
  have hlength : (gatherRows q p).length = c.length := (gatherRows_length hagain).trans hq
  have hfirst : (RowSelection.permute p 0).rows c.rows = gatherRows p c.rows :=
    rows_permute (hp.trans hrows.symm)
  have hkept : (gatherRows p c.rows).length = c.length := (gatherRows_length hpicked).trans hp
  refine select_select hwell (s := .permute p 0) (t := .permute q 0)
    (permute_suits hp hpr) ?_ (permute_suits hlength fun i hi => ?_) ?_
  · rw [hfirst, hkept]
    exact permute_suits hq hqr
  · obtain ⟨j, -, hj⟩ := List.mem_filterMap.1 hi
    exact hpr i (List.mem_of_getElem? hj)
  · rw [hfirst, rows_permute (hq.trans hkept.symm), rows_permute (hlength.trans hrows.symm)]
    exact gatherRows_gatherRows hpicked hagain

/-- A permutation is undone by its inverse. -/
theorem permute_inverse {c : Column} (hwell : c.WellFormed) {p q : List Nat}
    (hp : p.Perm (List.range c.length)) (hq : IsInverse p q) :
    ∃ d, c.permute p 0 = .ok d ∧ d.permute q 0 = .ok c := by
  obtain ⟨hrange, hall⟩ := gatherRows_inverse hp hq
  have hlength : p.length = c.length := hp.length_eq.trans List.length_range
  obtain ⟨d, e, hd, he, hboth⟩ := permute_permute hwell hlength (hq.1.trans hlength)
    (fun i hi => List.mem_range.1 (hp.mem_iff.1 hi)) hrange
  have hrows : (List.range c.length).length = c.rows.length := by
    rw [List.length_range, rows_length hwell]
  have hself : Layout.select c (.permute (List.range c.length) 0) = .ok c := by
    refine select_self hwell (permute_suits List.length_range fun i => List.mem_range.1) ?_
    rw [rows_permute hrows, ← rows_length hwell, gatherRows_range]
  rw [hall] at hboth
  rw [Except.ok.inj (hboth.symm.trans hself)] at he
  exact ⟨d, hd, he⟩

/-! ## Filters and counts -/

/-- Two filters, one after the other, are one. -/
theorem filter_filter {c : Column} (hwell : c.WellFormed) {mask second : List Bool}
    (hmask : mask.length = c.length) (hsecond : second.length = mask.count true)
    (hint hint' hint'' : Nat) :
    ∃ d e, c.filter mask hint = .ok d ∧ d.filter second hint' = .ok e ∧
      c.filter (narrow mask second) hint'' = .ok e := by
  refine select_select hwell (s := .filter mask hint) (t := .filter second hint')
    (u := .filter (narrow mask second) hint'') hmask ?_ ?_
    (keepRows_keepRows mask second c.rows)
  · show second.length = (keepRows mask c.rows).length
    rw [keepRows_length (hmask.trans (rows_length hwell).symm), hsecond]
  · exact (narrow_length hsecond).trans hmask

/-- A filter repeats the rows that it keeps once and the others not at all. -/
theorem filter_eq_replicate {c : Column} (hwell : c.WellFormed) {mask : List Bool}
    (hmask : mask.length = c.length) (hint : Nat) :
    ∃ d, c.filter mask hint = .ok d ∧ c.replicate (mask.map Bool.toNat) = .ok d :=
  select_congr hwell (s := .filter mask hint) (t := .replicate (mask.map Bool.toNat)) hmask
    ((List.length_map _).trans hmask) (repeatRows_toNat mask c.rows).symm

theorem filter_all {c : Column} (hwell : c.WellFormed) (hint : Nat) :
    c.filter (List.replicate c.length true) hint = .ok c := by
  refine select_self hwell (s := .filter (List.replicate c.length true) hint)
    List.length_replicate ?_
  show keepRows (List.replicate c.length true) c.rows = c.rows
  rw [← rows_length hwell, keepRows_all]

theorem replicate_ones {c : Column} (hwell : c.WellFormed) :
    c.replicate (List.replicate c.length 1) = .ok c := by
  obtain ⟨d, hfilter, hreplicate⟩ :=
    filter_eq_replicate hwell (List.length_replicate (n := c.length) (a := true)) 0
  rw [filter_all hwell] at hfilter
  rw [List.map_replicate, ← Except.ok.inj hfilter] at hreplicate
  exact hreplicate

/-- Selections of rows compose, down to how the result is stored.  Two permutations are the one
that picks `p[q[i]]`, so a permutation is undone by its inverse.  Two filters are the one that
keeps what the second keeps of the first.  A filter is the repetition of its rows once or not at
all, and keeping every row or repeating each once gives the column itself. -/
theorem selections_compose {c : Column} (hwell : c.WellFormed) :
    (∀ p q : List Nat, p.length = c.length → q.length = c.length → (∀ i ∈ p, i < c.length) →
      (∀ i ∈ q, i < c.length) → ∃ d e, c.permute p 0 = .ok d ∧ d.permute q 0 = .ok e ∧
        c.permute (q.map fun i => p.getD i 0) 0 = .ok e) ∧
    (∀ p q : List Nat, p.Perm (List.range c.length) → IsInverse p q →
      ∃ d, c.permute p 0 = .ok d ∧ d.permute q 0 = .ok c) ∧
    (∀ mask second : List Bool, mask.length = c.length → second.length = mask.count true →
      ∀ hint hint' hint'' : Nat, ∃ d e, c.filter mask hint = .ok d ∧
        d.filter second hint' = .ok e ∧ c.filter (narrow mask second) hint'' = .ok e) ∧
    (∀ mask : List Bool, mask.length = c.length → ∀ hint : Nat,
      ∃ d, c.filter mask hint = .ok d ∧ c.replicate (mask.map Bool.toNat) = .ok d) ∧
    (∀ hint : Nat, c.filter (List.replicate c.length true) hint = .ok c) ∧
    c.replicate (List.replicate c.length 1) = .ok c := by
  refine ⟨fun p q hp hq hpr hqr => ?_, fun p q => permute_inverse hwell,
    fun mask second hmask hsecond => filter_filter hwell hmask hsecond,
    fun mask hmask => filter_eq_replicate hwell hmask, filter_all hwell, replicate_ones hwell⟩
  rw [← gatherRows_eq_map fun i hi => hp ▸ hqr i hi]
  exact permute_permute hwell hp hq hpr hqr

/-- Strings in a nullable column within a nullable column: a permutation and its inverse, and a
filter of the rows that a filter keeps. -/
theorem selections_compose_nested :
    let c := Column.nullable
      (.nullable (.strings (.ofList [[97], [], [98, 99]])) [false, true, false]) [true, false, false]
    c.WellFormed ∧ (∃ d, c.permute [2, 0, 1] 0 = .ok d ∧ d.permute [1, 2, 0] 0 = .ok c) ∧
      ∃ d e, c.filter [true, false, true] = .ok d ∧ d.filter [false, true] = .ok e ∧
        c.filter [false, false, true] = .ok e := by
  intro c
  have hwell : c.WellFormed := ⟨⟨StringColumn.packed_ofList _, rfl⟩, rfl⟩
  obtain ⟨-, hinverse, hfilter, -⟩ := selections_compose hwell
  refine ⟨hwell, hinverse [2, 0, 1] [1, 2, 0] (by decide) ⟨rfl, ?_⟩, ?_⟩
  · intro i j h
    obtain ⟨hi, rfl⟩ := List.getElem?_eq_some_iff.1 h
    revert i
    decide
  · exact hfilter [true, false, true] [false, true] rfl rfl 0 0 0

end Column

end ResultSet
