import ResultSet.Column.Block
import ResultSet.Proofs.Column.Append
import ResultSet.Proofs.Column.Gather

/-!
# Blocks stay rectangular

A block is made empty or of some columns, takes further columns and is filtered, in any
order and with refused calls in between.

* `Block.WellFormed` is the invariant: all columns have the number of rows of the block, and
  each is well formed.
* `Block.insert_cases` and `Block.filter_cases` say what the two calls answer.  A filter keeps
  the names, the declared types and the order of the columns, and of each column the rows
  that the mask marks.
* `BlockCall.step_wellFormed` is the step and `BlockCall.run_wellFormed` the run.
-/

namespace ResultSet

/-! ## Filtered columns -/

namespace Column

/-- The column that a filter leaves, when the mask suits it. -/
def keep (mask : List Bool) (c : Column) : Column :=
  match c.filter mask with
  | .ok kept => kept
  | .error _ => c

theorem filter_hint (c : Column) (mask : List Bool) (hint : Nat) :
    c.filter mask hint = c.filter mask := by
  induction c with
  | nullable nested nulls ih => rw [filter, filter, ih]
  | _ => rfl

/-- A mask with an entry for every row keeps the rows that it marks. -/
theorem filter_of_length {c : Column} (h : c.WellFormed) {mask : List Bool}
    (hmask : mask.length = c.length) (hint : Nat) :
    c.filter mask hint = .ok (c.keep mask) ∧
      (c.keep mask).ConsistsOf c.shape (Selection.keepRows mask c.rows) := by
  have hsuits : (RowSelection.filter mask 0).Suits c.length := hmask
  obtain ⟨kept, hselect, hparts⟩ := select_of_suits h hsuits
  have hfilter : c.filter mask = .ok kept := hselect
  have hkeep : c.keep mask = kept := by rw [keep, hfilter]
  have hwalk : Selection.keepRows mask c.rows =
      Selection.gatherRows ((RowSelection.filter mask 0).indices c.rows.length) c.rows :=
    RowSelection.rows_eq_gatherRows (s := .filter mask 0) (hmask.trans (rows_length h).symm)
  rw [filter_hint, hkeep, hwalk, rows_length h]
  exact ⟨hfilter, hparts⟩

/-- A mask of another length is refused. -/
theorem filter_of_length_ne {c : Column} {mask : List Bool} (h : mask.length ≠ c.length)
    (hint : Nat) : c.filter mask hint = .error (.filterSize mask.length c.length) :=
  select_of_error (s := .filter mask hint) (if_neg h)

end Column

/-- The named column with the rows that a mask marks. -/
def NamedColumn.keep (mask : List Bool) (c : NamedColumn) : NamedColumn :=
  { c with column := c.column.keep mask }

namespace Block

/-- The block with the rows that a mask marks. -/
def keep (mask : List Bool) (b : Block) : Block := ⟨b.columns.map (NamedColumn.keep mask)⟩

theorem keep_width (mask : List Bool) (b : Block) : (b.keep mask).width = b.width :=
  List.length_map _

/-- All columns have the number of rows of the block, and each is well formed. -/
structure WellFormed (b : Block) : Prop where
  rectangular : b.Rectangular
  columns : ∀ c ∈ b.columns, c.column.WellFormed

theorem wellFormed_of_length {columns : List NamedColumn} (rows : Nat)
    (h : ∀ c ∈ columns, c.column.WellFormed ∧ c.column.length = rows) :
    (⟨columns⟩ : Block).WellFormed := by
  refine ⟨fun c hc => ?_, fun c hc => (h c hc).1⟩
  obtain ⟨first, rest, rfl⟩ := List.exists_cons_of_ne_nil (List.ne_nil_of_mem hc)
  exact (h c hc).2.trans (h first List.mem_cons_self).2.symm

theorem wellFormed_empty : empty.WellFormed :=
  wellFormed_of_length 0 fun _ hc => absurd hc List.not_mem_nil

/-! ## Inserting columns -/

/-- A column is refused exactly when there are columns and its length is another. -/
theorem insert_cases (b : Block) (c : NamedColumn) :
    ((b.columns = [] ∨ c.column.length = b.rows) ∧ b.insert c = .ok ⟨b.columns ++ [c]⟩) ∨
      (b.columns ≠ [] ∧ c.column.length ≠ b.rows) ∧
        b.insert c = .error (.rowCount c.name b.rows c.column.length) := by
  by_cases h : b.columns = [] ∨ c.column.length = b.rows
  · exact .inl ⟨h, if_pos (by simpa using h)⟩
  · refine .inr ⟨not_or.1 h, if_neg (by simpa using h)⟩

theorem WellFormed.insert {b extended : Block} (h : b.WellFormed) {c : NamedColumn}
    (hc : c.column.WellFormed) (hinsert : b.insert c = .ok extended) : extended.WellFormed := by
  obtain ⟨hfits, hok⟩ | ⟨-, herror⟩ := insert_cases b c
  · cases hok.symm.trans hinsert
    apply wellFormed_of_length c.column.length
    intro d hd
    rcases List.mem_append.1 hd with hold | hnew
    · have hlength : c.column.length = b.rows :=
        hfits.resolve_left fun hnil => absurd hold (by simp [hnil])
      exact ⟨h.columns d hold, (h.rectangular d hold).trans hlength.symm⟩
    · rw [List.mem_singleton.1 hnew]
      exact ⟨hc, rfl⟩
  · cases herror.symm.trans hinsert

theorem wellFormed_foldlM {columns : List NamedColumn} (hcolumns : ∀ c ∈ columns, c.column.WellFormed)
    {b made : Block} (h : b.WellFormed) (hmade : columns.foldlM Block.insert b = .ok made) :
    made.WellFormed := by
  induction columns generalizing b with
  | nil =>
    cases hmade
    exact h
  | cons c columns ih =>
    rw [List.foldlM_cons] at hmade
    obtain ⟨extended, hinsert, hrest⟩ := exists_of_bind_eq_ok hmade
    apply ih (fun c hc => hcolumns c (List.mem_cons_of_mem _ hc)) _ hrest
    exact h.insert (hcolumns c List.mem_cons_self) hinsert

/-! ## Filtering rows -/

theorem mapM_filter {columns : List NamedColumn} {mask : List Bool}
    (h : ∀ c ∈ columns, c.column.WellFormed ∧ mask.length = c.column.length) (hint : Nat) :
    columns.mapM (fun c => do return { c with column := ← c.column.filter mask hint }) =
      Except.ok (ε := ColumnError) (columns.map (NamedColumn.keep mask)) := by
  induction columns with
  | nil => rfl
  | cons c columns ih =>
    obtain ⟨hwell, hmask⟩ := h c List.mem_cons_self
    rw [List.mapM_cons, (Column.filter_of_length hwell hmask hint).1,
      ih fun c hc => h c (List.mem_cons_of_mem _ hc)]
    rfl

/-- A mask with an entry for every row of the block keeps the marked rows of every column.  A
mask of another length is refused, unless the block has no columns. -/
theorem filter_cases {b : Block} (h : b.WellFormed) (mask : List Bool) (hint : Nat) :
    ((b.columns = [] ∨ mask.length = b.rows) ∧
        b.filter mask hint = .ok (b.keep mask)) ∨
      (b.columns ≠ [] ∧ mask.length ≠ b.rows) ∧
        b.filter mask hint = .error (.filterSize mask.length b.rows) := by
  by_cases hfits : b.columns = [] ∨ mask.length = b.rows
  · refine .inl ⟨hfits, ?_⟩
    have hcolumns : ∀ c ∈ b.columns, c.column.WellFormed ∧ mask.length = c.column.length := by
      intro c hc
      have hmask : mask.length = b.rows := hfits.resolve_left (List.ne_nil_of_mem hc)
      exact ⟨h.columns c hc, hmask.trans (h.rectangular c hc).symm⟩
    rw [filter, mapM_filter hcolumns hint]
    rfl
  · rw [not_or] at hfits
    refine .inr ⟨hfits, ?_⟩
    obtain ⟨c, columns, hcons⟩ := List.exists_cons_of_ne_nil hfits.1
    have hlength : c.column.length = b.rows := h.rectangular c (by rw [hcons]; exact List.mem_cons_self)
    have hne : mask.length ≠ c.column.length := by rw [hlength]; exact hfits.2
    rw [filter, hcons, List.mapM_cons, Column.filter_of_length_ne hne, hlength]
    rfl

/-- The filtered block has a row for every mark. -/
theorem keep_rows {b : Block} (hb : b.WellFormed) {mask : List Bool}
    (hmask : mask.length = b.rows) : (b.keep mask).rows = mask.count true := by
  obtain ⟨columns⟩ := b
  cases columns with
  | nil =>
    cases List.length_eq_zero_iff.1 hmask
    rfl
  | cons c columns =>
    have hwell := hb.columns c List.mem_cons_self
    obtain ⟨-, hparts⟩ := Column.filter_of_length hwell hmask 0
    rw [← Selection.keepRows_length (hmask.trans (Column.rows_length hwell).symm)]
    exact hparts.length_eq

theorem WellFormed.filter {b kept : Block} (h : b.WellFormed) {mask : List Bool} {hint : Nat}
    (hfilter : b.filter mask hint = .ok kept) : kept.WellFormed := by
  obtain ⟨hfits, hok⟩ | ⟨-, herror⟩ := filter_cases h mask hint
  · cases hok.symm.trans hfilter
    apply wellFormed_of_length (mask.count true)
    intro d hd
    obtain ⟨c, hc, rfl⟩ := List.mem_map.1 hd
    have hmask : mask.length = c.column.length :=
      (hfits.resolve_left (List.ne_nil_of_mem hc)).trans (h.rectangular c hc).symm
    have hparts := (Column.filter_of_length (h.columns c hc) hmask hint).2
    refine ⟨hparts.wellFormed, ?_⟩
    have hrows := Column.rows_length (h.columns c hc)
    exact hparts.length_eq.trans (Selection.keepRows_length (hmask.trans hrows.symm))
  · cases herror.symm.trans hfilter

end Block

/-! ## Runs -/

/-- A call that makes a block or changes it. -/
inductive BlockCall where
  | new
  | ofColumns (columns : List NamedColumn)
  | insert (c : NamedColumn)
  | filter (mask : List Bool) (hint : Nat)

namespace BlockCall

/-- The columns that a call brings along. -/
def columns : BlockCall → List NamedColumn
  | .ofColumns columns => columns
  | .insert c => [c]
  | .new | .filter _ _ => []

/-- The block that a call makes of another. -/
def outcome (b : Block) : BlockCall → Except ColumnError Block
  | .new => .ok .empty
  | .ofColumns columns => Block.ofColumns columns
  | .insert c => b.insert c
  | .filter mask hint => b.filter mask hint

/-- The answer to a call, and the block after it. -/
def step (b : Block) (call : BlockCall) : Except ColumnError Unit × Block :=
  match call.outcome b with
  | .ok made => (.ok (), made)
  | .error e => (.error e, b)

/-- The block after a sequence of calls. -/
def run (calls : List BlockCall) : Block :=
  calls.foldl (fun b call => (call.step b).2) .empty

theorem step_wellFormed {b : Block} (h : b.WellFormed) {call : BlockCall}
    (hcall : ∀ c ∈ call.columns, c.column.WellFormed) : (call.step b).2.WellFormed := by
  have houtcome {made : Block} (hmade : call.outcome b = .ok made) : made.WellFormed := by
    cases call with
    | new =>
      cases hmade
      exact Block.wellFormed_empty
    | ofColumns columns => exact Block.wellFormed_foldlM hcall Block.wellFormed_empty hmade
    | insert c => exact h.insert (hcall c List.mem_cons_self) hmade
    | filter mask hint => exact h.filter hmade
  unfold step
  cases hmade : call.outcome b with
  | error e => exact h
  | ok made => exact houtcome hmade

/-- Every block that calls leave is well formed, given columns that are. -/
theorem run_wellFormed {calls : List BlockCall}
    (h : ∀ call ∈ calls, ∀ c ∈ call.columns, c.column.WellFormed) : (run calls).WellFormed := by
  have hrun (b : Block) (hb : b.WellFormed) :
      (calls.foldl (fun b call => (call.step b).2) b).WellFormed := by
    induction calls generalizing b with
    | nil => exact hb
    | cons call calls ih =>
      apply ih (fun call hcall => h call (List.mem_cons_of_mem _ hcall))
      exact step_wellFormed hb (h call List.mem_cons_self)
  exact hrun .empty Block.wellFormed_empty

end BlockCall

end ResultSet
