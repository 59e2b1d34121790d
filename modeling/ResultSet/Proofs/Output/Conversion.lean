import ResultSet.Output.Convert
import ResultSet.Proofs.Output.CellText
import ResultSet.Proofs.Row.Cell

/-!
# What every conversion keeps

Tuples and blocks are converted by different loops, but a caller sees the same of
both: either the pending batch is complete, with a row for every source row and no
row beyond the limit, or there is an error of the conversion.  `Converted` says
so; `convertRows_converted` and `convertBlock_keeps` prove it for any input, also for
one that fails halfway.

The encoders come back with the limit that they had (`convertRows_limit`,
`convertBlock_keeps`), so they serve the next batch.
-/

namespace ResultSet

/-! ## Errors -/

/-- An error that a conversion ends with, as opposed to those of set-up and
delivery. -/
def WriterError.IsConversion : WriterError → Prop
  | .configuration _ | .incompleteBatch _ | .delivery _ => False
  | _ => True

theorem WriterError.Undated.isConversion {moments : Moment → Prop} {e : WriterError}
    (h : e.Undated moments) : e.IsConversion := by
  obtain ⟨m, -, -, rfl⟩ := h
  exact trivial

/-- A value that cannot be written is an error of the conversion. -/
theorem Datum.toWire_error {declared : SqlType} {scale : Int} {datum : Datum} {e : WriterError}
    (h : datum.toWire declared scale = .error e) : e.IsConversion := by
  have hmoment {v : Moment} (hv : WireCell.ofMoment v = .error e) : e.IsConversion := by
    have hread := WireCell.reads_ofMoment v
    rw [hv] at hread
    cases hread with
    | undated hundated => exact hundated.isConversion
  unfold Datum.toWire at h
  split at h
  case h_11 | h_12 => exact hmoment h
  all_goals cases h <;> exact trivial

theorem RowExpr.toWire_error {expr : RowExpr} {row : TupleRow} {e : WriterError}
    (h : expr.toWire row = .error e) : e.IsConversion := by
  unfold RowExpr.toWire at h
  split at h
  · cases h
  · exact Datum.toWire_error h

theorem Column.storedToWire_error {index rows : Nat} {declared : SqlType} {scale : Option Nat}
    {column : Column} {e : WriterError}
    (h : column.storedToWire index declared scale rows = .error e) : e.IsConversion := by
  unfold Column.storedToWire at h
  split at h <;> (try split at h) <;> cases h <;> exact trivial

/-- A column that cannot be written is an error of the conversion. -/
theorem Column.toWire_error {index rows : Nat} {declared : SqlType} {scale : Int}
    {column : Column} {e : WriterError}
    (h : column.toWire index declared scale rows = .error e) : e.IsConversion := by
  cases column with
  | nullable nested nulls =>
    cases hstored : nested.storedToWire index declared (textScale scale) rows with
    | ok values =>
      rw [Column.toWire, hstored] at h
      cases h
    | error e' =>
      rw [Column.toWire, hstored] at h
      cases h
      exact Column.storedToWire_error hstored
  | cells kind values => exact Column.storedToWire_error h
  | strings c => exact Column.storedToWire_error h
  | decimals c => exact Column.storedToWire_error h
  | sketches c => exact Column.storedToWire_error h

theorem Column.toWire_cell_error {index rows : Nat} {declared : SqlType} {scale : Int}
    {column : Column} {cells : List WireCell}
    (h : column.toWire index declared scale rows = .ok cells) :
    ∀ cell ∈ cells, ∀ e, cell = .error e → e.IsConversion := by
  rintro cell hcell e rfl
  obtain ⟨row, hrow⟩ := List.mem_iff_getElem?.1 hcell
  exact (Column.toWire_undated h hrow).isConversion

/-- What a conversion of `rows` source rows ends with: a complete batch of as many
rows, each within the limit, or an error of the conversion. -/
structure Converted (limit rows : Nat) (pending : PendingBatch)
    (result : Except WriterError Unit) : Prop where
  complete : result = .ok () → pending.state = .complete
  length_eq : result = .ok () → pending.length = rows
  within : result = .ok () → ∀ row ∈ pending.batch.rows, row.length ≤ limit
  error : ∀ e, result = .error e → e.IsConversion

theorem Converted.of_error {limit rows : Nat} {pending : PendingBatch} {e : WriterError}
    (h : e.IsConversion) : Converted limit rows pending (.error e) where
  complete hok := by cases hok
  length_eq hok := by cases hok
  within hok := by cases hok
  error e' he := by
    cases he
    exact h

/-! ## Pending batches -/

namespace PendingBatch

theorem isOpen_begin {p : PendingBatch} (h : p.isOpen = true) (position : Nat) :
    (p.begin position).isOpen = true := by
  rw [begin, if_pos h]
  rfl

@[simp] theorem begin_batch (p : PendingBatch) (position : Nat) :
    (p.begin position).batch = p.batch := by
  unfold begin
  split <;> rfl

@[simp] theorem complete_batch (p : PendingBatch) : p.complete.batch = p.batch := by
  unfold complete
  split <;> rfl

theorem complete_state {p : PendingBatch} (h : p.isOpen = true) : p.complete.state = .complete := by
  rw [complete, if_pos h]

theorem isOpen_pushRow {p : PendingBatch} (h : p.isOpen = true) (row : Bytes) :
    (p.pushRow row).isOpen = true := h

/-! ## Appending a column -/

@[simp] theorem joinCells_length (rows cells : List Bytes) :
    (joinCells rows cells).length = rows.length := by
  induction rows generalizing cells with
  | nil => cases cells <;> rfl
  | cons row rows ih =>
    cases cells with
    | nil => rfl
    | cons cell cells => rw [joinCells, List.length_cons, List.length_cons, ih]

/-- The rows stay within the limit as long as none is outgrown. -/
theorem joinCells_within {limit : Nat} {rows cells : List Bytes}
    (h : outgrown limit rows cells = none) (hrows : ∀ row ∈ rows, row.length ≤ limit) :
    ∀ row ∈ joinCells rows cells, row.length ≤ limit := by
  induction rows generalizing cells with
  | nil =>
    intro row hrow
    cases cells <;> exact absurd hrow List.not_mem_nil
  | cons first rows ih =>
    cases cells with
    | nil => exact hrows
    | cons cell cells =>
      unfold outgrown at h
      by_cases hlt : limit < first.length + cell.length
      · rw [if_pos hlt] at h
        cases h
      · rw [if_neg hlt] at h
        intro row hrow
        rcases List.mem_cons.1 hrow with hfirst | hlater
        · rw [hfirst, List.length_append]
          omega
        · exact ih h (fun row hrow => hrows row (List.mem_cons_of_mem _ hrow)) row hlater

/-- A column is appended to every row or, with an error of the conversion, to
none. -/
theorem appendColumn_cases {p p' : PendingBatch} {cells : List Bytes} {limit : Nat}
    (h : p.appendColumn cells limit = .ok p') :
    outgrown limit p.batch.rows cells = none ∧
      p' = { p with batch := ⟨joinCells p.batch.rows cells⟩ } := by
  unfold appendColumn at h
  cases hsize : outgrown limit p.batch.rows cells with
  | some size =>
    rw [hsize] at h
    cases h
  | none =>
    rw [hsize] at h
    cases h
    exact ⟨rfl, rfl⟩

theorem appendColumn_error {p : PendingBatch} {cells : List Bytes} {limit : Nat}
    {e : WriterError} (h : p.appendColumn cells limit = .error e) : e.IsConversion := by
  unfold appendColumn at h
  split at h
  · cases h
    exact trivial
  · cases h

end PendingBatch

/-! ## Tuples -/

/-- A value is appended within the limit, or the encoder stays as it was. -/
theorem pushValue_cases (b : RowBuffer) (v : WireValue) :
    (b.bytes.length + (encodeCell v.text).length ≤ b.limit ∧
        pushValue b v = (⟨b.bytes ++ encodeCell v.text, b.limit⟩, .ok ())) ∨
      (b.limit < b.bytes.length + (encodeCell v.text).length ∧
        pushValue b v = (b, .error (.encoding
          (.tooLarge (b.bytes.length + (encodeCell v.text).length) b.limit)))) := by
  have hpush : RowEncoder.push v b = _ := RowBuffer.push_eq b v
  by_cases h : b.bytes.length + (encodeCell v.text).length ≤ b.limit
  · rw [if_pos h] at hpush
    refine Or.inl ⟨h, ?_⟩
    rw [pushValue, hpush]
  · rw [if_neg h] at hpush
    refine Or.inr ⟨by omega, ?_⟩
    rw [pushValue, hpush]

/-- The encoder of a cell keeps its limit and stays within it, and fails with an error of the
conversion as the cell does. -/
theorem pushCell_keeps {b : RowBuffer} (hb : b.bytes.length ≤ b.limit) {cell : WireCell}
    (hcell : ∀ e, cell = .error e → e.IsConversion) :
    (pushCell b cell).1.limit = b.limit ∧ (pushCell b cell).1.bytes.length ≤ b.limit ∧
      ∀ e, (pushCell b cell).2 = .error e → e.IsConversion := by
  cases cell with
  | error e =>
    refine ⟨rfl, hb, fun e' he' => ?_⟩
    cases he'
    exact hcell e rfl
  | ok v =>
    rw [pushCell]
    rcases pushValue_cases b v with ⟨hle, hpush⟩ | ⟨hlt, hpush⟩
    · rw [hpush]
      refine ⟨rfl, ?_, fun e he => by cases he⟩
      rw [List.length_append]
      exact hle
    · rw [hpush]
      refine ⟨rfl, hb, fun e he => ?_⟩
      cases he
      exact trivial

/-- The encoder of a row keeps its limit, stays within it, and fails with an error
of the conversion. -/
theorem pushRow_keeps (b : RowBuffer) (hb : b.bytes.length ≤ b.limit) (row : TupleRow)
    (exprs : List RowExpr) :
    (pushRow b row exprs).1.limit = b.limit ∧
      (pushRow b row exprs).1.bytes.length ≤ b.limit ∧
      ∀ e, (pushRow b row exprs).2 = .error e → e.IsConversion := by
  induction exprs generalizing b with
  | nil => exact ⟨rfl, hb, fun e he => by cases he⟩
  | cons expr exprs ih =>
    have hcell := pushCell_keeps hb fun e (he : expr.toWire row = .error e) =>
      RowExpr.toWire_error he
    unfold pushRow
    cases hpush : pushCell b (expr.toWire row) with
    | mk pushed result =>
      rw [hpush] at hcell
      cases result with
      | error e => exact hcell
      | ok _ =>
        obtain ⟨hlimit, hwithin, -⟩ := hcell
        have hlimit : pushed.limit = b.limit := hlimit
        rw [← hlimit] at hwithin ⊢
        exact ih pushed hwithin

/-- A conversion of tuples leaves the encoder its limit. -/
theorem convertRows_limit (exprs : List RowExpr) (index : Nat) (rows : List TupleRow)
    (b : RowBuffer) (p : PendingBatch) : (convertRows exprs index rows b p).1.limit = b.limit := by
  induction rows generalizing index b p with
  | nil => rfl
  | cons row rows ih =>
    have hkeeps := pushRow_keeps (RowEncoder.reset b) (Nat.zero_le _) row exprs
    unfold convertRows
    cases hpush : pushRow (RowEncoder.reset b) row exprs with
    | mk encoder result =>
      rw [hpush] at hkeeps
      cases result with
      | error e => exact hkeeps.1
      | ok _ => exact (ih _ _ _).trans hkeeps.1

/-- A conversion of tuples adds a row within the limit for each of them. -/
theorem convertRows_converted (exprs : List RowExpr) (index : Nat) (rows : List TupleRow)
    (b : RowBuffer) (p : PendingBatch) (hopen : p.isOpen = true)
    (hwithin : ∀ row ∈ p.batch.rows, row.length ≤ b.limit) :
    Converted b.limit (p.length + rows.length) (convertRows exprs index rows b p).2.1
      (convertRows exprs index rows b p).2.2 := by
  induction rows generalizing index b p with
  | nil =>
    refine ⟨fun _ => PendingBatch.complete_state hopen, fun _ => ?_, fun _ => ?_,
      fun e he => by cases he⟩
    · show p.complete.batch.rows.length = p.batch.rows.length + 0
      rw [PendingBatch.complete_batch, Nat.add_zero]
    · show ∀ row ∈ p.complete.batch.rows, row.length ≤ b.limit
      rw [PendingBatch.complete_batch]
      exact hwithin
  | cons row rows ih =>
    have hkeeps := pushRow_keeps (RowEncoder.reset b) (Nat.zero_le _) row exprs
    unfold convertRows
    cases hpush : pushRow (RowEncoder.reset b) row exprs with
    | mk encoder result =>
      rw [hpush] at hkeeps
      obtain ⟨hlimit, hrow, herror⟩ := hkeeps
      have hlimit : encoder.limit = b.limit := hlimit
      cases result with
      | error e => exact Converted.of_error (herror e rfl)
      | ok _ =>
        have hnext := ih (index + 1) encoder ((p.begin index).pushRow encoder.bytes)
          (PendingBatch.isOpen_pushRow (PendingBatch.isOpen_begin hopen index) _) (by
            intro other hother
            rw [hlimit]
            rcases List.mem_append.1 hother with hold | hnew
            · rw [PendingBatch.begin_batch] at hold
              exact hwithin other hold
            · rw [List.mem_singleton.1 hnew]
              exact hrow)
        have hlength : ((p.begin index).pushRow encoder.bytes).length + rows.length =
            p.length + (row :: rows).length := by
          show ((p.begin index).batch.rows ++ [encoder.bytes]).length + rows.length =
            p.batch.rows.length + (rows.length + 1)
          rw [PendingBatch.begin_batch, List.length_append, List.length_singleton]
          omega
        rw [hlimit, hlength] at hnext
        exact hnext

/-! ## Blocks -/

/-- The encoders of a column keep their number and limits, and fail with an error
of the conversion. -/
theorem pushColumn_keeps (column row : Nat) {cells : List WireCell}
    (hcells : ∀ cell ∈ cells, ∀ e, cell = .error e → e.IsConversion) {encoders : List RowBuffer}
    {limit : Nat} (h : ∀ b ∈ encoders, b.limit = limit) :
    (∀ b ∈ (pushColumn column row cells encoders).1, b.limit = limit) ∧
      (pushColumn column row cells encoders).1.length = encoders.length ∧
      ∀ e, (pushColumn column row cells encoders).2 = .error e → e.IsConversion := by
  induction encoders generalizing row cells with
  | nil =>
    have hnil : pushColumn column row cells ([] : List RowBuffer) = ([], .ok ()) := by
      cases cells <;> rfl
    rw [hnil]
    exact ⟨h, rfl, fun e he => by cases he⟩
  | cons b encoders ih =>
    have hfirst : b.limit = limit := h b List.mem_cons_self
    have hothers : ∀ b ∈ encoders, b.limit = limit :=
      fun b hb => h b (List.mem_cons_of_mem _ hb)
    cases cells with
    | nil =>
      refine ⟨List.forall_mem_cons.2 ⟨hfirst, hothers⟩, rfl, fun e he => ?_⟩
      cases he
      exact trivial
    | cons cell cells =>
      have hcell := pushCell_keeps (b := RowEncoder.reset b) (Nat.zero_le _)
        (hcells cell List.mem_cons_self)
      unfold pushColumn
      cases hpush : pushCell (RowEncoder.reset b) cell with
      | mk pushed result =>
        rw [hpush] at hcell
        obtain ⟨hsame, -, herror⟩ := hcell
        have hlimit : pushed.limit = limit := hsame.trans hfirst
        cases result with
        | error e => exact ⟨List.forall_mem_cons.2 ⟨hlimit, hothers⟩, rfl, herror⟩
        | ok _ =>
          obtain ⟨hlimits, hlength, hlater⟩ := ih (row + 1)
            (fun cell hcell => hcells cell (List.mem_cons_of_mem _ hcell)) hothers
          exact ⟨List.forall_mem_cons.2 ⟨hlimit, hlimits⟩, congrArg (· + 1) hlength, hlater⟩

/-- A conversion of columns leaves the encoders their number and limits, gives every
row of the batch a cell of each column, and fails with an error of the
conversion. -/
theorem convertColumns_keeps (block : Block) (limit index : Nat)
    (columns : List (ColumnExpr × Nat)) {encoders : List RowBuffer} {p : PendingBatch}
    (hlimits : ∀ b ∈ encoders, b.limit = limit) (hopen : p.isOpen = true)
    (hwithin : ∀ row ∈ p.batch.rows, row.length ≤ limit) :
    (∀ b ∈ (convertColumns block limit index columns encoders p).1, b.limit = limit) ∧
      (convertColumns block limit index columns encoders p).1.length = encoders.length ∧
      Converted limit p.length (convertColumns block limit index columns encoders p).2.1
        (convertColumns block limit index columns encoders p).2.2 := by
  induction columns generalizing index encoders p with
  | nil =>
    refine ⟨hlimits, rfl, fun _ => PendingBatch.complete_state hopen, fun _ => ?_,
      fun _ => ?_, fun e he => by cases he⟩
    · show p.complete.batch.rows.length = p.batch.rows.length
      rw [PendingBatch.complete_batch]
    · show ∀ row ∈ p.complete.batch.rows, row.length ≤ limit
      rw [PendingBatch.complete_batch]
      exact hwithin
  | cons column columns ih =>
    obtain ⟨expr, position⟩ := column
    unfold convertColumns
    dsimp only
    cases hcolumn : block.column? position with
    | none => exact ⟨hlimits, rfl, Converted.of_error trivial⟩
    | some c =>
      dsimp only
      cases hwire : c.column.toWire index expr.type expr.scale encoders.length with
      | error e => exact ⟨hlimits, rfl, Converted.of_error (Column.toWire_error hwire)⟩
      | ok cells =>
        dsimp only
        have hpushed := pushColumn_keeps index 0 (Column.toWire_cell_error hwire) hlimits
        cases hpush : pushColumn index 0 cells encoders with
        | mk filled result =>
          rw [hpush] at hpushed
          obtain ⟨hfilled, hlength, herror⟩ := hpushed
          cases result with
          | error e => exact ⟨hfilled, hlength, Converted.of_error (herror e rfl)⟩
          | ok _ =>
            dsimp only
            cases happend : (p.begin index).appendColumn (filled.map RowEncoder.row) limit with
            | error e =>
              exact ⟨hfilled, hlength,
                Converted.of_error (PendingBatch.appendColumn_error happend)⟩
            | ok p' =>
              dsimp only
              obtain ⟨houtgrown, hp'⟩ := PendingBatch.appendColumn_cases happend
              rw [PendingBatch.begin_batch] at houtgrown hp'
              have hopen' : p'.isOpen = true := by
                rw [hp']
                exact PendingBatch.isOpen_begin hopen index
              have hwithin' : ∀ row ∈ p'.batch.rows, row.length ≤ limit := by
                rw [hp']
                exact PendingBatch.joinCells_within houtgrown hwithin
              have hcount : p'.length = p.length := by
                rw [hp']
                exact PendingBatch.joinCells_length _ _
              obtain ⟨hlast, hsame, hconverted⟩ := ih (index + 1) hfilled hopen' hwithin'
              rw [hlength] at hsame
              rw [hcount] at hconverted
              exact ⟨hlast, hsame, hconverted⟩

/-- An expression whose execution fails with an error of the conversion only. -/
def ColumnExpr.FailsInConversion (expr : ColumnExpr) : Prop :=
  ∀ block e, (expr.execute block).2 = .error e → e.IsConversion

theorem ColumnExpr.executeAll_error {exprs : List ColumnExpr}
    (h : ∀ expr ∈ exprs, expr.FailsInConversion) {block : Block} {e : WriterError}
    (he : (ColumnExpr.executeAll exprs block).2 = .error e) : e.IsConversion := by
  induction exprs generalizing block with
  | nil => cases he
  | cons expr exprs ih =>
    have hfirst := h expr List.mem_cons_self block
    unfold ColumnExpr.executeAll at he
    cases hexecute : expr.execute block with
    | mk extended result =>
      rw [hexecute] at he hfirst
      cases result with
      | error e' =>
        cases he
        exact hfirst e rfl
      | ok position =>
        dsimp only at he
        cases hrest : ColumnExpr.executeAll exprs extended with
        | mk last positions =>
          rw [hrest] at he
          cases positions with
          | error e' =>
            cases he
            exact ih (fun expr hexpr => h expr (List.mem_cons_of_mem _ hexpr))
              (by rw [hrest])
          | ok positions => cases he

/-- A conversion of a block gives a row within the limit for each of its rows, and
leaves the encoders their number and limits. -/
theorem convertBlock_keeps {exprs : List ColumnExpr}
    (hexprs : ∀ expr ∈ exprs, expr.FailsInConversion) (block : Block) (limit rows : Nat)
    {encoders : List RowBuffer} (hlimits : ∀ b ∈ encoders, b.limit = limit) :
    let converted := convertBlock exprs block limit encoders (PendingBatch.withRows rows)
    (∀ b ∈ converted.2.1, b.limit = limit) ∧ converted.2.1.length = encoders.length ∧
      Converted limit rows converted.2.2.1 converted.2.2.2 := by
  have hwithin : ∀ row ∈ (PendingBatch.withRows rows).batch.rows, row.length ≤ limit := by
    intro row hrow
    rw [(List.mem_replicate.1 hrow).2]
    exact Nat.zero_le limit
  have hrows : (PendingBatch.withRows rows).length = rows := List.length_replicate
  unfold convertBlock
  cases hexecute : ColumnExpr.executeAll exprs block with
  | mk extended result =>
    cases result with
    | error e =>
      exact ⟨hlimits, rfl,
        Converted.of_error (ColumnExpr.executeAll_error hexprs (by rw [hexecute]))⟩
    | ok positions =>
      have hkeeps := convertColumns_keeps extended limit 0 (exprs.zip positions) hlimits rfl hwithin
      rw [hrows] at hkeeps
      exact hkeeps

end ResultSet
