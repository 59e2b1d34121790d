import ResultSet.Proofs.Column.Rows

/-!
# Row selections on every layout

A filter, a permutation and counts do the same to a column of any layout: they gather the
stored rows at the selected positions.

* `select_cells` … `select_nullable` bring each layout to the check of the arguments and to
  a walk over rows.  A nullable column hands a permutation down with its limit resolved,
  which selects the same rows (`resolved_suits`, `resolved_indices`).
* `select_of_suits` is the induction on nesting, `select_of_error` the refusal.
* `select_reads` says which row each row of the result reads as.
-/

namespace ResultSet

/-! ## Resolved limits -/

namespace RowSelection

/-- The selection that a nullable column hands down. -/
def resolved (s : RowSelection) (size : Nat) : RowSelection :=
  match s with
  | .permute perm limit => .permute perm (Selection.permutationSize limit size)
  | s => s

theorem permutationSize_resolved (limit size : Nat) :
    Selection.permutationSize (Selection.permutationSize limit size) size =
      Selection.permutationSize limit size := by
  unfold Selection.permutationSize
  split <;> split <;> omega

theorem resolved_indices (s : RowSelection) (size : Nat) :
    (s.resolved size).indices size = s.indices size := by
  cases s with
  | permute perm limit => exact congrArg (List.take · perm) (permutationSize_resolved limit size)
  | _ => rfl

theorem resolved_suits {s : RowSelection} {size : Nat} (h : s.Suits size) :
    (s.resolved size).Suits size := by
  cases s with
  | permute perm limit =>
    have hsize := permutationSize_resolved limit size
    have hlength : Selection.permutationSize limit size ≤ perm.length := h.1
    refine ⟨Nat.le_trans (Nat.le_of_eq hsize) hlength, fun i hi => h.2 i ?_⟩
    exact (congrArg (fun k => i ∈ perm.take k) hsize).mp hi
  | _ => exact h

end RowSelection

namespace Column

open Selection

/-! ## Each layout -/

theorem select_cells (kind : CellKind) (cells : List kind.Cell) (s : RowSelection) :
    Layout.select (Column.cells kind cells) s = (s.ofRows cells).map (.cells kind) := by
  cases s <;> rfl

theorem select_strings (c : StringColumn) (s : RowSelection) :
    Layout.select (Column.strings c) s = (Layout.select c s).map .strings := by
  cases s <;> rfl

theorem select_decimals (c : DecimalColumn .w128) (s : RowSelection) :
    Layout.select (Column.decimals c) s =
      (s.ofRows c.rows).map fun words => .decimals ⟨words, c.scale⟩ := by
  have hselect : Layout.select (Column.decimals c) s =
      (c.withRows (s.ofRows c.rows)).map .decimals := by cases s <;> rfl
  rw [hselect, DecimalColumn.withRows]
  cases s.ofRows c.rows <;> rfl

theorem select_sketches (c : SketchColumn) (s : RowSelection) :
    Layout.select (Column.sketches c) s =
      (s.ofRows c.rows).map fun states => .sketches ⟨c.function, states⟩ := by
  have hselect : Layout.select (Column.sketches c) s =
      (c.withRows (s.ofRows c.rows)).map .sketches := by cases s <;> rfl
  rw [hselect, SketchColumn.withRows]
  cases s.ofRows c.rows <;> rfl

private theorem eq_of_checkPermutation {perm : List Nat} {limit size required : Nat}
    (h : checkPermutation perm limit size = .ok required) :
    required = permutationSize limit size := by
  rw [checkPermutation] at h
  split at h
  · cases h
  · split at h
    · cases h
    · cases h
      rfl

theorem select_nullable (nested : Column) (nulls : List Bool) (s : RowSelection) :
    Layout.select (Column.nullable nested nulls) s = do
      s.check nulls.length
      let nested ← Layout.select nested (s.resolved nulls.length)
      return .nullable nested (s.rows nulls) := by
  cases s with
  | filter mask hint => rfl
  | permute perm limit =>
    show (checkPermutation perm limit nulls.length >>= fun required =>
      nested.permute perm required >>= fun nested =>
        pure (Column.nullable nested (gatherRows (perm.take required) nulls))) = _
    rw [RowSelection.check]
    cases hcheck : checkPermutation perm limit nulls.length with
    | error e => rfl
    | ok required =>
      rw [eq_of_checkPermutation hcheck]
      rfl
  | replicate counts => rfl

/-! ## Every layout -/

/-- Arguments that suit select the stored rows at the selected positions, on every level
of nesting. -/
theorem select_of_suits {c : Column} (hwell : c.WellFormed) {s : RowSelection}
    (h : s.Suits c.length) :
    ∃ d, Layout.select c s = .ok d ∧
      d.ConsistsOf c.shape (gatherRows (s.indices c.length) c.rows) := by
  induction c generalizing s with
  | cells kind cells =>
    refine ⟨.cells kind (gatherRows (s.indices cells.length) cells), ?_, ?_⟩
    · rw [select_cells, RowSelection.ofRows_of_suits h]
      rfl
    · rw [rows, gatherRows_map]
      exact consistsOf_cells kind _
  | strings c =>
    have hlength : c.toList.length = c.length := StringColumn.toList_length c
    have hsuits : s.Suits c.toList.length := hlength ▸ h
    have hselect := StringColumn.select_ofList hsuits
    rw [← StringColumn.eq_ofList_toList hwell, hlength] at hselect
    refine ⟨.strings (.ofList (gatherRows (s.indices c.length) c.toList)), ?_, ?_⟩
    · rw [select_strings, hselect]
      rfl
    · rw [rows, gatherRows_map]
      exact consistsOf_strings _
  | decimals c =>
    refine ⟨.decimals ⟨gatherRows (s.indices c.length) c.rows, c.scale⟩, ?_, ?_⟩
    · rw [select_decimals, RowSelection.ofRows_of_suits h]
      rfl
    · rw [rows, gatherRows_map]
      exact consistsOf_decimals _ _
  | sketches c =>
    refine ⟨.sketches ⟨c.function, gatherRows (s.indices c.length) c.rows⟩, ?_, ?_⟩
    · rw [select_sketches, RowSelection.ofRows_of_suits h]
      rfl
    · rw [rows, gatherRows_map]
      exact consistsOf_sketches _ _
  | nullable nested nulls ih =>
    have hlength : nulls.length = nested.length := hwell.2
    have hrows : nulls.length = nested.rows.length := hlength.trans (rows_length hwell.1).symm
    have hsuits : s.Suits nulls.length := h
    -- the nested column is asked for the same rows, whatever became of the limit
    have hresolved : (s.resolved nulls.length).Suits nested.length :=
      hlength ▸ RowSelection.resolved_suits hsuits
    have hindices : (s.resolved nulls.length).indices nested.length = s.indices nulls.length := by
      rw [← hlength, RowSelection.resolved_indices]
    obtain ⟨d, hselect, hparts⟩ := ih hwell.1 hresolved
    rw [hindices] at hparts
    have hbound : ∀ i ∈ s.indices nulls.length, i < nulls.length :=
      fun _ hi => RowSelection.lt_of_mem_indices hsuits hi
    refine ⟨.nullable d (gatherRows (s.indices nulls.length) nulls), ?_, ?_⟩
    · rw [select_nullable, RowSelection.check_eq_ok hsuits, RowSelection.rows_eq_gatherRows hsuits]
      show (Layout.select nested _ >>= _) = _
      rw [hselect]
      rfl
    · show ConsistsOf _ _
        (gatherRows (s.indices nulls.length) (List.zipWith .nullable nulls nested.rows))
      rw [gatherRows_zipWith hbound _ hrows]
      refine hparts.nullable ?_
      rw [gatherRows_length hbound, gatherRows_length fun i hi => hrows ▸ hbound i hi]

/-- Any other arguments are refused, with an error that depends on the number of rows
only. -/
theorem select_of_error {c : Column} {s : RowSelection} {e : ColumnError}
    (h : s.check c.length = .error e) : Layout.select c s = .error e := by
  cases c with
  | cells kind cells => rw [select_cells, RowSelection.ofRows_of_error h]; rfl
  | strings c => rw [select_strings, StringColumn.select_of_error h]; rfl
  | decimals c => rw [select_decimals, RowSelection.ofRows_of_error h]; rfl
  | sketches c => rw [select_sketches, RowSelection.ofRows_of_error h]; rfl
  | nullable nested nulls => rw [select_nullable, show s.check nulls.length = _ from h]; rfl

/-- A selection of rows of a well-formed column succeeds exactly on arguments that suit its
number of rows.  The result has the layout of the column, with its scale and function on
every level, and each of its rows is the selected row, its null flag and its placeholder
included; a hint changes nothing.  Refused arguments are refused alike by all columns with
this number of rows. -/
theorem select_reads {c : Column} (hwell : c.WellFormed) (s : RowSelection) :
    (s.Suits c.length → ∃ d, Layout.select c s = .ok d ∧ d.WellFormed ∧ d.shape = c.shape ∧
      d.length = (s.indices c.length).length ∧
      ∀ r i, (s.indices c.length)[r]? = some i →
        i < c.length ∧ d.rows[r]? = c.rows[i]? ∧ d.fieldAt r = c.fieldAt i ∧
          d.isNullAt? r = c.isNullAt? i ∧ d.nested.fieldAt r = c.nested.fieldAt i) ∧
      (¬s.Suits c.length → ∃ e, ∀ d : Column, d.length = c.length →
        Layout.select d s = .error e) ∧
      ∀ mask hint, c.filter mask hint = c.filter mask := by
  refine ⟨fun h => ?_, fun h => ?_, fun mask hint => ?_⟩
  · obtain ⟨d, hselect, hparts⟩ := select_of_suits hwell h
    have hbound : ∀ i ∈ s.indices c.length, i < c.rows.length := fun i hi => by
      rw [rows_length hwell]
      exact RowSelection.lt_of_mem_indices h hi
    refine ⟨d, hselect, hparts.wellFormed, hparts.shape_eq, ?_, fun r i hi => ?_⟩
    · rw [hparts.length_eq, gatherRows_length hbound]
    · have hrow : d.rows[r]? = c.rows[i]? := by
        rw [hparts.rows_eq, getElem?_gatherRows hbound, hi]
        rfl
      exact ⟨RowSelection.lt_of_mem_indices h (List.mem_of_getElem? hi), hrow,
        reads_eq hwell hparts.wellFormed hparts.shape_eq hrow⟩
  · obtain ⟨e, he⟩ := RowSelection.check_eq_error h
    exact ⟨e, fun d hd => select_of_error (hd ▸ he)⟩
  · induction c with
    | nullable nested nulls ih => rw [filter, filter, ih hwell.1]
    | _ => rfl

/-- Two rows picked from nullable strings in a nullable column: a value, and a null that
keeps its placeholder. -/
theorem select_reads_nullable_strings :
    let c := Column.nullable
      (.nullable (.strings (.ofList [[97], [], [98]])) [false, true, false]) [true, false, false]
    c.WellFormed ∧ ∃ d, c.permute [2, 0, 1] 2 = .ok d ∧ d.WellFormed ∧ d.length = 2 ∧
      d.fieldAt 0 = some (.string [98]) ∧ d.fieldAt 1 = some .null ∧
      d.nested.fieldAt 1 = some (.string [97]) := by
  intro c
  have hwell : c.WellFormed := ⟨⟨StringColumn.packed_ofList _, rfl⟩, rfl⟩
  obtain ⟨d, hselect, hd, -, hlength, hrows⟩ :=
    (select_reads hwell (.permute [2, 0, 1] 2)).1 (by decide)
  obtain ⟨-, -, hfirst, -, -⟩ := hrows 0 2 rfl
  obtain ⟨-, -, hsecond, -, hplaceholder⟩ := hrows 1 0 rfl
  exact ⟨hwell, d, hselect, hd, hlength, hfirst, hsecond, hplaceholder⟩

end Column

end ResultSet
