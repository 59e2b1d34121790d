import ResultSet.Proofs.Column.Gather
import ResultSet.Proofs.Column.InPlace

/-!
# Runs on columns

A store of columns starts empty.  Columns are made, derived from others and changed in place
by any sequence of calls, refused ones among them.

* `step_keeps` is what one call keeps: columns stay well formed, and a refused call changes
  nothing.  `run_wellFormed` is the induction over the run.
* `inBounds_iff` and `isSome_fieldAt_iff` read off a well-formed column which rows can be
  read.  The rows that exist and are no field are moments without a timestamp.
* `run_keeps` puts both together.
-/

namespace ResultSet

/-! ## Reading -/

theorem StringColumn.Packed.startOf_lt {c : StringColumn} (h : c.Packed) {i stop : Nat}
    (hstop : c.offsets[i]? = some stop) : c.startOf i < stop := by
  obtain ⟨hi, rfl⟩ := List.getElem?_eq_some_iff.1 hstop
  have hnext : i + 1 < (0 :: c.offsets).length := Nat.succ_lt_succ hi
  rw [startOf_eq_getD, List.getD_eq_getElem?_getD,
    List.getElem?_eq_getElem (Nat.lt_of_succ_lt hnext), Option.getD_some]
  exact List.pairwise_iff_getElem.1 h.increasing i (i + 1) (Nat.lt_of_succ_lt hnext) hnext
    (Nat.lt_succ_self i)

namespace Column

/-- Reading the row stays within the lists and the bytes of the column on every level. -/
def InBounds : Column → (i : Nat) → Prop
  | .cells _ rows, i => i < rows.length
  | .strings c, i => ∃ stop, c.offsets[i]? = some stop ∧ c.startOf i < stop ∧ stop ≤ c.chars.length
  | .decimals c, i => i < c.rows.length
  | .sketches c, i => i < c.rows.length
  | .nullable nested nulls, i => i < nulls.length ∧ nested.InBounds i

/-- The row is a moment without a timestamp that no null map hides. -/
def Untimed : Column → (i : Nat) → Prop
  | .cells .moment rows, i => ∃ m : Moment, rows[i]? = some m ∧ m.timestamp = none
  | .nullable nested nulls, i => nulls[i]? = some false ∧ nested.Untimed i
  | _, _ => False

theorem inBounds_iff {c : Column} (h : c.WellFormed) (i : Nat) : c.InBounds i ↔ i < c.length := by
  induction c with
  | cells kind rows => exact Iff.rfl
  | strings c =>
    refine ⟨fun ⟨stop, hstop, _⟩ => (List.getElem?_eq_some_iff.1 hstop).1, fun hi => ?_⟩
    have hstop : c.offsets[i]? = some c.offsets[i] := List.getElem?_eq_getElem hi
    exact ⟨c.offsets[i], hstop, StringColumn.Packed.startOf_lt h hstop,
      StringColumn.Packed.le_length h (List.getElem_mem hi)⟩
  | decimals c => exact Iff.rfl
  | sketches c => exact Iff.rfl
  | nullable nested nulls ih =>
    have hlength : nulls.length = nested.length := h.2
    show i < nulls.length ∧ nested.InBounds i ↔ i < nulls.length
    rw [ih h.1, ← hlength, and_self_iff]

theorem isSome_fieldAt_cells (kind : CellKind) (rows : List kind.Cell) (i : Nat) :
    ((cells kind rows).fieldAt i).isSome ↔ i < rows.length ∧ ¬(cells kind rows).Untimed i := by
  show (rows[i]?.bind kind.toField).isSome ↔ _
  cases hrow : rows[i]? with
  | none =>
    have hle : rows.length ≤ i := List.getElem?_eq_none_iff.1 hrow
    exact ⟨fun h => absurd h (by simp), fun h => absurd h.1 (Nat.not_lt.2 hle)⟩
  | some v =>
    have hi : i < rows.length := (List.getElem?_eq_some_iff.1 hrow).1
    cases kind with
    | moment =>
      have huntimed : (cells .moment rows).Untimed i ↔ Moment.timestamp v = none :=
        ⟨fun ⟨m, hm, hnone⟩ => Option.some.inj (hrow.symm.trans hm) ▸ hnone, fun h => ⟨v, hrow, h⟩⟩
      rw [huntimed]
      show ((Moment.timestamp v).map Field.int64).isSome ↔ _
      cases Moment.timestamp v <;> simp [hi]
    | _ => exact ⟨fun _ => ⟨hi, id⟩, fun _ => rfl⟩

/-- Every row that exists reads as a field, but for moments without a timestamp. -/
theorem isSome_fieldAt_iff {c : Column} (h : c.WellFormed) (i : Nat) :
    (c.fieldAt i).isSome ↔ i < c.length ∧ ¬c.Untimed i := by
  have hplain {α : Type} (f : α → Field) (rows : List α) :
      (rows[i]?.map f).isSome ↔ i < rows.length ∧ ¬False := by
    simp
  induction c with
  | cells kind rows => exact isSome_fieldAt_cells kind rows i
  | strings c =>
    have hread := hplain Field.string c.toList
    rw [StringColumn.getElem?_toList h, StringColumn.toList_length] at hread
    exact hread
  | decimals c => exact hplain _ c.rows
  | sketches c => exact hplain _ c.rows
  | nullable nested nulls ih =>
    have hlength : nulls.length = nested.length := h.2
    show ((nested.nullable nulls).fieldAt i).isSome ↔
      i < nulls.length ∧ ¬(nulls[i]? = some false ∧ nested.Untimed i)
    rw [fieldAt]
    cases hnull : nulls[i]? with
    | none =>
      have hle : nulls.length ≤ i := List.getElem?_eq_none_iff.1 hnull
      exact ⟨fun hsome => absurd hsome (by simp), fun hi => absurd hi.1 (Nat.not_lt.2 hle)⟩
    | some isNull =>
      have hi : i < nulls.length := (List.getElem?_eq_some_iff.1 hnull).1
      cases isNull with
      | true => simp [hi]
      | false =>
        have hnested : (nested.fieldAt i).isSome ↔ i < nested.length ∧ ¬nested.Untimed i := ih h.1
        rw [← hlength] at hnested
        simpa using hnested

end Column

/-! ## Calls -/

/-- What a column is made of. -/
inductive ColumnValues where
  | cells (kind : CellKind) (rows : List kind.Cell)
  | strings (values : List Bytes)
  | decimals (words : List (Signed DecimalWidth.w128.bits)) (scale : Unsigned 32)
  | sketches (function : Text) (states : List Bytes)

/-- The column of the values. -/
def ColumnValues.column : ColumnValues → Column
  | .cells kind rows => .cells kind rows
  | .strings values => .strings (.ofList values)
  | .decimals words scale => .decimals ⟨words, scale⟩
  | .sketches function states => .sketches ⟨function, states⟩

/-- A new column from another one. -/
inductive ColumnDerivation where
  | withNulls (nulls : List Bool)
  | allPresent
  | nested
  | select (s : RowSelection)

/-- The new column. -/
def ColumnDerivation.column (c : Column) : ColumnDerivation → Except ColumnError Column
  | .withNulls nulls => c.withNulls nulls
  | .allPresent => .ok c.allPresent
  | .nested => .ok c.nested
  | .select s => Layout.select c s

/-- A change of a column.  `source` is the position of the column that rows come from. -/
inductive ColumnChange where
  | insertDefault
  | insertNull
  | insertField (f : Field)
  | insertRow (source index : Nat)
  | insertRange (source start count : Nat)
  | removeLast (count : Nat)

/-- The outcome of a change of `c`, nothing if its layout does not offer it or there is no
source. -/
def ColumnChange.outcome (store : List Column) (c : Column) :
    ColumnChange → Option (Column × Except ColumnError Unit)
  | .insertDefault => some (c.pushDefault, .ok ())
  | .insertNull => c.insertNull.map fun changed => (changed, .ok ())
  | .insertField f => c.insertField f
  | .insertRow source index => store[source]?.map fun r => c.insertRow r index
  | .insertRange source start count => store[source]?.map fun r => c.insertRange r start count
  | .removeLast count => some (c.removeLast count)

/-- A call on the columns of a store.  New columns are put at its end. -/
inductive ColumnCall where
  | make (values : ColumnValues)
  | derive (on : Nat) (d : ColumnDerivation)
  | change (on : Nat) (how : ColumnChange)

/-- The store after a call and the outcome, nothing for a call that cannot be made. -/
def ColumnCall.step (store : List Column) :
    ColumnCall → List Column × Option (Except ColumnError Unit)
  | .make values => (store ++ [values.column], some (.ok ()))
  | .derive on d =>
    match store[on]?.map fun c => d.column c with
    | none => (store, none)
    | some (.ok c) => (store ++ [c], some (.ok ()))
    | some (.error e) => (store, some (.error e))
  | .change on how =>
    match store[on]?.bind fun c => how.outcome store c with
    | none => (store, none)
    | some (c, outcome) => (store.set on c, some outcome)

/-- The store after a sequence of calls. -/
def ColumnCall.run (calls : List ColumnCall) : List Column :=
  calls.foldl (fun store call => (call.step store).1) []

/-! ## One call -/

theorem ColumnValues.column_wellFormed (values : ColumnValues) : values.column.WellFormed := by
  cases values with
  | strings values => exact StringColumn.packed_ofList values
  | _ => trivial

theorem ColumnDerivation.column_wellFormed {c result : Column} (hc : c.WellFormed)
    {d : ColumnDerivation} (h : d.column c = .ok result) : result.WellFormed := by
  cases d with
  | withNulls nulls =>
    have hnulls : c.withNulls nulls = .ok result := h
    rw [Column.withNulls] at hnulls
    split at hnulls
    · rename_i hlength
      obtain rfl := Except.ok.inj hnulls
      exact ⟨hc, hlength.symm⟩
    · cases hnulls
  | allPresent =>
    obtain rfl := Except.ok.inj h
    exact ⟨hc, List.length_replicate⟩
  | nested =>
    obtain rfl := Except.ok.inj h
    exact hc.nested
  | select s =>
    have hselect : Layout.select c s = .ok result := h
    by_cases hsuits : s.Suits c.length
    · obtain ⟨d, hd, hparts⟩ := Column.select_of_suits hc hsuits
      obtain rfl := Except.ok.inj (hselect.symm.trans hd)
      exact hparts.wellFormed
    · obtain ⟨e, he⟩ := RowSelection.check_eq_error hsuits
      rw [Column.select_of_error he] at hselect
      cases hselect

/-- A change is made in whole or not at all. -/
theorem ColumnChange.outcome_cases {store : List Column} (hstore : ∀ c ∈ store, c.WellFormed)
    {c changed : Column} (hc : c.WellFormed) {change : ColumnChange}
    {answer : Except ColumnError Unit} (h : change.outcome store c = some (changed, answer)) :
    (answer = .ok () ∧ changed.WellFormed) ∨ ∃ e, answer = .error e ∧ changed = c := by
  have hleave {result : Except ColumnError Column}
      (hresult : ∀ d, result = .ok d → d.WellFormed)
      (hanswer : c.leave result = (changed, answer)) :
      (answer = .ok () ∧ changed.WellFormed) ∨ ∃ e, answer = .error e ∧ changed = c := by
    rcases Column.leave_cases c result with ⟨d, hd, hok⟩ | ⟨e, he⟩
    · obtain ⟨rfl, rfl⟩ := Prod.mk.inj (hok.symm.trans hanswer)
      exact .inl ⟨rfl, hresult _ hd⟩
    · obtain ⟨rfl, rfl⟩ := Prod.mk.inj (he.symm.trans hanswer)
      exact .inr ⟨e, rfl, rfl⟩
  cases change with
  | insertDefault =>
    obtain ⟨rfl, rfl⟩ := Prod.mk.inj (Option.some.inj h)
    exact .inl ⟨rfl, (Column.pushDefault_consistsOf hc).wellFormed⟩
  | insertNull =>
    cases c with
    | nullable nested nulls =>
      obtain ⟨rfl, rfl⟩ := Prod.mk.inj (Option.some.inj h)
      exact .inl ⟨rfl, (Column.pushDefault_consistsOf hc).wellFormed⟩
    | _ => cases h
  | insertField f =>
    cases c with
    | strings c =>
      refine hleave (fun d hd => ?_) (Option.some.inj h)
      obtain ⟨pushed, hpushed, rfl⟩ := exists_of_map_eq_ok hd
      exact StringColumn.Packed.pushField hc hpushed
    | decimals c =>
      refine hleave (fun d hd => ?_) (Option.some.inj h)
      obtain ⟨pushed, hpushed, rfl⟩ := exists_of_map_eq_ok hd
      trivial
    | _ => cases h
  | insertRow source index =>
    obtain ⟨r, hr, hinsert⟩ := Option.map_eq_some_iff.1 h
    have hsource := hstore r (List.mem_of_getElem? hr)
    rw [Column.insertRow_eq] at hinsert
    refine hleave (fun d hd => ?_) hinsert
    exact (Column.appendRange_consistsOf hc hsource
      (Column.appendRow_eq_ok hc hsource hd)).2.2.wellFormed
  | insertRange source start count =>
    obtain ⟨r, hr, hinsert⟩ := Option.map_eq_some_iff.1 h
    have hsource := hstore r (List.mem_of_getElem? hr)
    rw [Column.insertRange_eq] at hinsert
    exact hleave (fun d hd => (Column.appendRange_consistsOf hc hsource hd).2.2.wellFormed) hinsert
  | removeLast count =>
    have hremove := Option.some.inj h
    rw [Column.removeLast_eq] at hremove
    exact hleave (fun d hd => (Column.popBack_consistsOf hc hd).wellFormed) hremove

namespace ColumnCall

/-- Well-formed columns stay well formed, and a refused call changes none of them. -/
theorem step_keeps {store : List Column} (hstore : ∀ c ∈ store, c.WellFormed) (call : ColumnCall) :
    (∀ c ∈ (call.step store).1, c.WellFormed) ∧
      ∀ e, (call.step store).2 = some (.error e) → (call.step store).1 = store := by
  have hpush {new : Column} (hnew : new.WellFormed) : ∀ c ∈ store ++ [new], c.WellFormed := by
    intro c hc
    rcases List.mem_append.1 hc with hold | hlast
    · exact hstore c hold
    · exact List.mem_singleton.1 hlast ▸ hnew
  cases call with
  | make values =>
    exact ⟨hpush values.column_wellFormed, fun e he => by cases he⟩
  | derive on d =>
    rw [step]
    split
    · exact ⟨hstore, fun e he => by cases he⟩
    · rename_i c hderived
      obtain ⟨origin, horigin, hcolumn⟩ := Option.map_eq_some_iff.1 hderived
      have hwell := hstore origin (List.mem_of_getElem? horigin)
      exact ⟨hpush (ColumnDerivation.column_wellFormed hwell hcolumn), fun e he => by cases he⟩
    · exact ⟨hstore, fun _ _ => rfl⟩
  | change on how =>
    rw [step]
    split
    · exact ⟨hstore, fun e he => by cases he⟩
    · rename_i changed answer houtcome
      obtain ⟨c, hc, hchanged⟩ := Option.bind_eq_some_iff.1 houtcome
      have hwell := hstore c (List.mem_of_getElem? hc)
      rcases ColumnChange.outcome_cases hstore hwell hchanged with ⟨rfl, hnew⟩ | ⟨e, rfl, rfl⟩
      · refine ⟨fun d hd => ?_, fun e he => by cases he⟩
        rcases List.mem_or_eq_of_mem_set hd with hold | rfl
        · exact hstore d hold
        · exact hnew
      · -- the column that is written back is the one that was there
        obtain ⟨hlt, hget⟩ := List.getElem?_eq_some_iff.1 hc
        have hsame : store.set on changed = store := by
          rw [← hget, List.set_getElem_self]
        rw [hsame]
        exact ⟨hstore, fun _ _ => rfl⟩

theorem run_wellFormed (calls : List ColumnCall) : ∀ c ∈ run calls, c.WellFormed := by
  have hrun (store : List Column) (hstore : ∀ c ∈ store, c.WellFormed) :
      ∀ c ∈ calls.foldl (fun store call => (call.step store).1) store, c.WellFormed := by
    induction calls generalizing store with
    | nil => exact hstore
    | cons call calls ih => exact ih _ (step_keeps hstore call).1
  exact hrun [] fun c hc => absurd hc List.not_mem_nil

/-- After any sequence of calls the columns are well formed on every level of nesting.  The
rows of a column that can be read within its bounds are those before its length, and each of
them is a field unless it is a moment without a timestamp.  A call that is refused leaves all
columns as they were. -/
theorem run_keeps (calls : List ColumnCall) :
    (∀ c ∈ run calls, c.WellFormed ∧ ∀ i, (c.InBounds i ↔ i < c.length) ∧
      ((c.fieldAt i).isSome ↔ i < c.length ∧ ¬c.Untimed i)) ∧
    ∀ (call : ColumnCall) (e : ColumnError),
      (call.step (run calls)).2 = some (.error e) → (call.step (run calls)).1 = run calls := by
  refine ⟨fun c hc => ?_, fun call e he => (step_keeps (run_wellFormed calls) call).2 e he⟩
  have hwell := run_wellFormed calls c hc
  exact ⟨hwell, fun i => ⟨Column.inBounds_iff hwell i, Column.isSome_fieldAt_iff hwell i⟩⟩

/-- The first moment that has a number of microseconds can be stored, but its row is no
field: the microseconds at the start of its day are below the word. -/
theorem run_unreadable_row :
    ∃ m, Moment.ofTimestamp ⟨-9223372036854775808, by decide, by decide⟩ = some m ∧
      run [.make (.cells .moment [m])] = [.cells .moment [m]] ∧
      0 < (Column.cells .moment [m]).length ∧ (Column.cells .moment [m]).fieldAt 0 = none := by
  refine ⟨⟨⟨-106751992, by decide, by decide⟩, ⟨71945224192, by decide⟩, .dateTime⟩,
    ?_, rfl, by decide, ?_⟩
  · decide
  · rfl

end ColumnCall

end ResultSet
