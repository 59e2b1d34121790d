import ResultSet.Proofs.Output.CellText
import ResultSet.Proofs.Output.Conversion

/-!
# Assembled rows

Where every value has a text, both conversions assemble the same rows: the cells of
the texts, one behind the other.  Tuples are assembled row by row, a block column by
column, and both fail exactly when some whole row is longer than the limit or some moment
has no date.

* `Assembled` says this of a conversion and the rows that are expected of it.
* `convertRows_assembled` is an induction over the rows, with `pushRow_cases` for the
  cells of one.
* `convertColumns_assembled` is an induction over the columns.  Its invariant is about
  rows that are assembled in part: row `r` starts with `front r`, and every further
  column puts its cell behind that.
-/

namespace ResultSet

/-- A row was longer than the limit. -/
def RowTooLarge (limit : Nat) (result : Except WriterError Unit) : Prop :=
  ∃ size, limit < size ∧ result = .error (.encoding (.tooLarge size limit))

/-- A conversion has assembled the expected lines.  Or one of them is longer than the
limit, or one of the moments that are written has no date, and the conversion failed with
this. -/
inductive Assembled (limit : Nat) (lines : List Bytes) (moments : Moment → Prop) (batch : Batch) :
    Except WriterError Unit → Prop where
  | fits (hlines : ∀ line ∈ lines, line.length ≤ limit) (hdated : ∀ m, moments m → m.Dated)
      (hrows : batch.rows = lines) : Assembled limit lines moments batch (.ok ())
  | tooLarge {result : Except WriterError Unit} (hline : ∃ line ∈ lines, limit < line.length)
      (hresult : RowTooLarge limit result) : Assembled limit lines moments batch result
  | undated {e : WriterError} (h : e.Undated moments) :
    Assembled limit lines moments batch (.error e)

/-- More moments may be written, as long as those have dates. -/
theorem Assembled.widen {limit : Nat} {lines : List Bytes} {moments others : Moment → Prop}
    {batch : Batch} {result : Except WriterError Unit}
    (h : Assembled limit lines moments batch result) (hothers : ∀ m, moments m → others m)
    (hdated : ∀ m, others m → m.Dated ∨ moments m) : Assembled limit lines others batch result := by
  cases h with
  | fits hlines hall hrows =>
    exact .fits hlines (fun m hm => (hdated m hm).elim id (hall m)) hrows
  | tooLarge hline hresult => exact .tooLarge hline hresult
  | undated hundated => exact .undated (hundated.mono hothers)

section Items

variable {ι : Type} {item : ι} {items : List ι} {writes : ι → Moment → Prop} {e : WriterError}

/-- A moment of the first item is one of all items. -/
theorem WriterError.Undated.of_head (item : ι) (h : e.Undated (writes item)) :
    e.Undated fun m => ∃ other ∈ item :: items, writes other m :=
  h.mono fun _ hm => ⟨item, List.mem_cons_self, hm⟩

/-- A moment of a later item is one of all items. -/
theorem WriterError.Undated.of_tail (h : e.Undated fun m => ∃ other ∈ items, writes other m) :
    e.Undated fun m => ∃ other ∈ item :: items, writes other m := by
  refine h.mono fun m hm => ?_
  obtain ⟨other, hother, hm⟩ := hm
  exact ⟨other, List.mem_cons_of_mem _ hother, hm⟩

/-- An item whose moments have dates is put in front. -/
theorem Assembled.cons {limit : Nat} {lines : List Bytes} {batch : Batch}
    {result : Except WriterError Unit}
    (h : Assembled limit lines (fun m => ∃ other ∈ items, writes other m) batch result)
    (hdated : ∀ m, writes item m → m.Dated) :
    Assembled limit lines (fun m => ∃ other ∈ item :: items, writes other m) batch result := by
  refine h.widen (fun m hm => ?_) (fun m hm => ?_)
  · obtain ⟨other, hother, hm⟩ := hm
    exact ⟨other, List.mem_cons_of_mem _ hother, hm⟩
  · obtain ⟨other, hother, hm⟩ := hm
    rcases List.mem_cons.1 hother with rfl | hlater
    · exact .inl (hdated m hm)
    · exact .inr ⟨other, hlater, hm⟩

end Items

/-- A cell is appended, or it outgrows the limit, or its moment has no date. -/
theorem pushCell_cases (b : RowBuffer) {cell : WireCell} {text : Option Bytes}
    {moment : Option Moment} (h : cell.Reads text moment) :
    (b.bytes.length + (encodeCell text).length ≤ b.limit ∧ (∀ m ∈ moment, m.Dated) ∧
        pushCell b cell = (⟨b.bytes ++ encodeCell text, b.limit⟩, .ok ())) ∨
      (b.limit < b.bytes.length + (encodeCell text).length ∧
        RowTooLarge b.limit (pushCell b cell).2) ∨
      ∃ e, e.Undated (· ∈ moment) ∧ (pushCell b cell).2 = .error e := by
  cases h with
  | @written v hdated htext =>
    rw [← htext, pushCell]
    rcases pushValue_cases b v with ⟨hle, hpush⟩ | ⟨hlt, hpush⟩
    · exact .inl ⟨hle, hdated, hpush⟩
    · exact .inr (.inl ⟨hlt, _, hlt, congrArg Prod.snd hpush⟩)
  | undated h => exact .inr (.inr ⟨_, h, rfl⟩)

/-! ## Tuples -/

/-- An expression writes this text for a row, of this moment if it is one. -/
def RowExpr.Writes (expr : RowExpr) (row : TupleRow) (text : Option Bytes)
    (moment : Option Moment) : Prop := (expr.toWire row).Reads text moment

section Tuples

variable {ι κ : Type} {keys : List κ} {expr : κ → RowExpr}

/-- The cells of a row are appended, or they outgrow the limit, or one of the moments has no
date. -/
theorem pushRow_cases {b : RowBuffer} (hb : b.bytes.length ≤ b.limit) (row : TupleRow)
    {text : κ → Option Bytes} {moment : κ → Option Moment}
    (h : ∀ key ∈ keys, (expr key).Writes row (text key) (moment key)) :
    (b.bytes.length + (encodeCells (keys.map text)).length ≤ b.limit ∧
        (∀ key ∈ keys, ∀ m ∈ moment key, m.Dated) ∧
        pushRow b row (keys.map expr) =
          (⟨b.bytes ++ encodeCells (keys.map text), b.limit⟩, .ok ())) ∨
      (b.limit < b.bytes.length + (encodeCells (keys.map text)).length ∧
        RowTooLarge b.limit (pushRow b row (keys.map expr)).2) ∨
      ∃ e, e.Undated (fun m => ∃ key ∈ keys, m ∈ moment key) ∧
        (pushRow b row (keys.map expr)).2 = .error e := by
  induction keys generalizing b with
  | nil =>
    refine .inl ⟨hb, fun key hkey => absurd hkey List.not_mem_nil, ?_⟩
    rw [List.map_nil, List.map_nil, encodeCells_nil, List.append_nil]
    rfl
  | cons key keys ih =>
    have hcell := pushCell_cases b (h key List.mem_cons_self)
    rw [List.map_cons, List.map_cons, encodeCells_cons, List.length_append]
    unfold pushRow
    cases hpush : pushCell b ((expr key).toWire row) with
    | mk pushed result =>
      rw [hpush] at hcell
      rcases hcell with ⟨hle, hdated, hpushed⟩ | ⟨hlt, size, hsize, hresult⟩ | ⟨e, he, hresult⟩
      · cases hpushed
        have hnext := ih (b := ⟨b.bytes ++ encodeCell (text key), b.limit⟩)
          (by rw [List.length_append]; exact hle)
          (fun key hkey => h key (List.mem_cons_of_mem _ hkey))
        rw [List.length_append, Nat.add_assoc, List.append_assoc] at hnext
        rcases hnext with ⟨hfits, hlater, hok⟩ | hlong | ⟨e, he, herror⟩
        · exact .inl ⟨hfits, List.forall_mem_cons.2 ⟨hdated, hlater⟩, hok⟩
        · exact .inr (.inl hlong)
        · exact .inr (.inr ⟨e, he.of_tail, herror⟩)
      · cases hresult
        exact .inr (.inl ⟨by omega, size, hsize, rfl⟩)
      · cases hresult
        exact .inr (.inr ⟨e, he.of_head key, rfl⟩)

/-- Tuples are assembled row by row, behind the rows that the batch has already. -/
theorem convertRows_assembled (index : Nat) {items : List ι} {rows : List TupleRow}
    (b : RowBuffer) (p : PendingBatch) {text : ι → κ → Option Bytes}
    {moment : ι → κ → Option Moment}
    (h : List.Forall₂ (fun item row => ∀ key ∈ keys,
      (expr key).Writes row (text item key) (moment item key)) items rows)
    (hwithin : ∀ row ∈ p.batch.rows, row.length ≤ b.limit) :
    Assembled b.limit
      (p.batch.rows ++ items.map fun item => encodeCells (keys.map (text item)))
      (fun m => ∃ item ∈ items, ∃ key ∈ keys, m ∈ moment item key)
      (convertRows (keys.map expr) index rows b p).2.1.batch
      (convertRows (keys.map expr) index rows b p).2.2 := by
  induction h generalizing index b p with
  | nil =>
    rw [List.map_nil, List.append_nil]
    refine .fits hwithin (fun m hm => ?_) ?_
    · obtain ⟨item, hitem, -⟩ := hm
      exact absurd hitem List.not_mem_nil
    · show p.complete.batch.rows = p.batch.rows
      rw [PendingBatch.complete_batch]
  | @cons item row items rows hrow _ ih =>
    have hcells := pushRow_cases (b := RowEncoder.reset b) (Nat.zero_le _) row hrow
    rw [RowBuffer.reset_bytes, RowBuffer.reset_limit, List.length_nil, Nat.zero_add,
      List.nil_append] at hcells
    unfold convertRows
    cases hpush : pushRow (RowEncoder.reset b) row (keys.map expr) with
    | mk pushed result =>
      rw [hpush] at hcells
      rcases hcells with ⟨hle, hdated, hpushed⟩ | ⟨hlt, size, hsize, hresult⟩ | ⟨e, he, hresult⟩
      · cases hpushed
        have hrows : ((p.begin index).pushRow (encodeCells (keys.map (text item)))).batch.rows =
            p.batch.rows ++ [encodeCells (keys.map (text item))] := by
          show (p.begin index).batch.rows ++ _ = _
          rw [PendingBatch.begin_batch]
        have hnext := ih (index + 1) ⟨encodeCells (keys.map (text item)), b.limit⟩
          ((p.begin index).pushRow (encodeCells (keys.map (text item)))) (by
            intro other hother
            rw [hrows] at hother
            rcases List.mem_append.1 hother with hold | hnew
            · exact hwithin other hold
            · rw [List.mem_singleton.1 hnew]
              exact hle)
        rw [hrows, List.append_assoc] at hnext
        refine hnext.cons fun m hm => ?_
        obtain ⟨key, hkey, hm⟩ := hm
        exact hdated key hkey m hm
      · cases hresult
        exact .tooLarge ⟨_, List.mem_append_right _ List.mem_cons_self, hlt⟩ ⟨size, hsize, rfl⟩
      · cases hresult
        exact .undated (he.of_head item)

end Tuples

/-! ## Blocks -/

namespace PendingBatch

/-- Rows and cells that are computed from the same list are joined item by item. -/
theorem joinCells_map {α : Type} (items : List α) (front cell : α → Bytes) :
    joinCells (items.map front) (items.map cell) = items.map fun a => front a ++ cell a := by
  induction items with
  | nil => rfl
  | cons a items ih => rw [List.map_cons, List.map_cons, List.map_cons, joinCells, ih]

/-- No row is outgrown, or one of them is longer than the limit with its cell. -/
theorem outgrown_map (limit : Nat) {α : Type} (items : List α) (front cell : α → Bytes) :
    (outgrown limit (items.map front) (items.map cell) = none ∧
        ∀ a ∈ items, (front a ++ cell a).length ≤ limit) ∨
      ∃ size, outgrown limit (items.map front) (items.map cell) = some size ∧ limit < size ∧
        ∃ a ∈ items, limit < (front a ++ cell a).length := by
  induction items with
  | nil => exact Or.inl ⟨rfl, fun a ha => absurd ha List.not_mem_nil⟩
  | cons a items ih =>
    rw [List.map_cons, List.map_cons, outgrown]
    by_cases hlt : limit < (front a).length + (cell a).length
    · rw [if_pos hlt]
      refine Or.inr ⟨_, rfl, hlt, a, List.mem_cons_self, ?_⟩
      rw [List.length_append]
      exact hlt
    · rw [if_neg hlt]
      rcases ih with ⟨hnone, hall⟩ | ⟨size, hsome, hsize, other, hother, hlong⟩
      · refine Or.inl ⟨hnone, fun other hother => ?_⟩
        rcases List.mem_cons.1 hother with rfl | hlater
        · rw [List.length_append]
          omega
        · exact hall other hlater
      · exact Or.inr ⟨size, hsome, hsize, other, List.mem_cons_of_mem _ hother, hlong⟩

/-- Every row gets its cell, or one of them would be longer than the limit with it. -/
theorem appendColumn_map {p : PendingBatch} (limit : Nat) {α : Type} {items : List α}
    {front : α → Bytes} (cell : α → Bytes) (hfront : p.batch.rows = items.map front) :
    (p.appendColumn (items.map cell) limit =
        .ok { p with batch := ⟨items.map fun a => front a ++ cell a⟩ } ∧
        ∀ a ∈ items, (front a ++ cell a).length ≤ limit) ∨
      ∃ size, p.appendColumn (items.map cell) limit = .error (.encoding (.tooLarge size limit)) ∧
        limit < size ∧ ∃ a ∈ items, limit < (front a ++ cell a).length := by
  unfold appendColumn
  rw [hfront]
  rcases outgrown_map limit items front cell with ⟨hnone, hfits⟩ | ⟨size, hsome, hlong⟩
  · rw [hnone, joinCells_map]
    exact Or.inl ⟨rfl, hfits⟩
  · rw [hsome]
    exact Or.inr ⟨size, rfl, hlong⟩

end PendingBatch

/-- The encoders of a column hold its cells.  Or one of the cells is longer than the limit, or
one of the moments has no date. -/
theorem pushColumn_cases {ι : Type} (column row : Nat) {items : List ι} {cells : List WireCell}
    {text : ι → Option Bytes} {moment : ι → Option Moment}
    (h : List.Forall₂ (fun item cell => cell.Reads (text item) (moment item)) items cells)
    {encoders : List RowBuffer} {limit : Nat} (hlength : cells.length = encoders.length)
    (hlimits : ∀ b ∈ encoders, b.limit = limit) :
    ((pushColumn column row cells encoders).2 = .ok () ∧
        (pushColumn column row cells encoders).1.map RowEncoder.row =
          items.map (fun item => encodeCell (text item)) ∧
        ∀ item ∈ items, ∀ m ∈ moment item, m.Dated) ∨
      ((∃ item ∈ items, limit < (encodeCell (text item)).length) ∧
        RowTooLarge limit (pushColumn column row cells encoders).2) ∨
      ∃ e, e.Undated (fun m => ∃ item ∈ items, m ∈ moment item) ∧
        (pushColumn column row cells encoders).2 = .error e := by
  induction h generalizing row encoders with
  | nil =>
    cases List.length_eq_zero_iff.1 hlength.symm
    exact .inl ⟨rfl, rfl, fun item hitem => absurd hitem List.not_mem_nil⟩
  | @cons item cell items cells hread _ ih =>
    cases encoders with
    | nil => cases hlength
    | cons b encoders =>
      have hcell := pushCell_cases (RowEncoder.reset b) hread
      rw [RowBuffer.reset_bytes, RowBuffer.reset_limit, hlimits b List.mem_cons_self,
        List.length_nil, Nat.zero_add, List.nil_append] at hcell
      unfold pushColumn
      cases hpush : pushCell (RowEncoder.reset b) cell with
      | mk pushed result =>
        rw [hpush] at hcell
        rcases hcell with ⟨hle, hdated, hpushed⟩ | ⟨hlt, size, hsize, hresult⟩ | ⟨e, he, hresult⟩
        · cases hpushed
          rcases ih (row + 1) (Nat.succ.inj hlength)
            (fun b hb => hlimits b (List.mem_cons_of_mem _ hb)) with
            ⟨hok, hrows, hlater⟩ | ⟨⟨other, hother, hlong⟩, hsize⟩ | ⟨e, he, herror⟩
          · exact .inl ⟨hok, congrArg (encodeCell (text item) :: ·) hrows,
              List.forall_mem_cons.2 ⟨hdated, hlater⟩⟩
          · exact .inr (.inl ⟨⟨other, List.mem_cons_of_mem _ hother, hlong⟩, hsize⟩)
          · exact .inr (.inr ⟨e, he.of_tail, herror⟩)
        · cases hresult
          exact .inr (.inl ⟨⟨item, List.mem_cons_self, hlt⟩, size, hsize, rfl⟩)
        · cases hresult
          exact .inr (.inr ⟨e, he.of_head item, rfl⟩)

/-- A column of a block has the texts of an expression, for `rows` rows, and they are those of
these moments. -/
def ColumnExpr.Writes (block : Block) (rows : Nat) (column : ColumnExpr × Nat)
    (text : Nat → Option Bytes) (moment : Nat → Option Moment) : Prop :=
  ∃ c, block.column? column.2 = some c ∧ ∀ index, ∃ cells,
    c.column.toWire index column.1.type column.1.scale rows = .ok cells ∧
      Column.RowsRead text moment rows cells

/-- A block is assembled column by column.  The rows of the batch so far are given by
`front`, and each of the columns puts a cell behind them. -/
theorem convertColumns_assembled {block : Block} {limit rows : Nat} (index : Nat)
    {columns : List (ColumnExpr × Nat)} {encoders : List RowBuffer} {p : PendingBatch}
    (front : Nat → Bytes) {text : ColumnExpr × Nat → Nat → Option Bytes}
    {moment : ColumnExpr × Nat → Nat → Option Moment}
    (h : ∀ column ∈ columns, ColumnExpr.Writes block rows column (text column) (moment column))
    (hlength : encoders.length = rows) (hlimits : ∀ b ∈ encoders, b.limit = limit)
    (hfront : p.batch.rows = (List.range rows).map front)
    (hwithin : ∀ row ∈ List.range rows, (front row).length ≤ limit) :
    Assembled limit
      ((List.range rows).map fun row =>
        front row ++ encodeCells (columns.map fun column => text column row))
      (fun m => ∃ column ∈ columns, ∃ row ∈ List.range rows, m ∈ moment column row)
      (convertColumns block limit index columns encoders p).2.1.batch
      (convertColumns block limit index columns encoders p).2.2 := by
  induction columns generalizing index encoders p front with
  | nil =>
    have hlines : ((List.range rows).map fun row => front row ++ encodeCells
        (([] : List (ColumnExpr × Nat)).map fun column => text column row)) =
          (List.range rows).map front :=
      List.map_congr_left fun row _ => List.append_nil (front row)
    rw [hlines]
    refine .fits (fun line hline => ?_) (fun m hm => ?_) ?_
    · obtain ⟨row, hrow, rfl⟩ := List.mem_map.1 hline
      exact hwithin row hrow
    · obtain ⟨column, hcolumn, -⟩ := hm
      exact absurd hcolumn List.not_mem_nil
    · show p.complete.batch.rows = _
      rw [PendingBatch.complete_batch, hfront]
  | cons column columns ih =>
    obtain ⟨c, hcolumn, hwire⟩ := h column List.mem_cons_self
    obtain ⟨cells, hcells, hreads⟩ := hwire index
    have hcount : cells.length = encoders.length :=
      (Column.rowsRead_iff.1 hreads).1.trans hlength.symm
    have hlines : ((List.range rows).map fun row => front row ++ encodeCells
        ((column :: columns).map fun column => text column row)) =
          (List.range rows).map fun row => (front row ++ encodeCell (text column row)) ++
            encodeCells (columns.map fun column => text column row) := by
      refine List.map_congr_left fun row _ => ?_
      rw [List.map_cons, encodeCells_cons, List.append_assoc]
    have hkeeps := pushColumn_keeps index 0 (Column.toWire_cell_error hcells) hlimits
    have hpushed := pushColumn_cases index 0 hreads hcount hlimits
    rw [hlines]
    unfold convertColumns
    dsimp only
    rw [hcolumn]
    dsimp only
    rw [hlength, hcells]
    dsimp only
    cases hpush : pushColumn index 0 cells encoders with
    | mk filled result =>
      rw [hpush] at hkeeps hpushed
      obtain ⟨hfilled, hsame, _⟩ := hkeeps
      rcases hpushed with ⟨hok, hrows, hdated⟩ | ⟨⟨row, hrow, hlong⟩, size, hsize, hresult⟩ |
        ⟨e, he, hresult⟩
      · have hbegun : (p.begin index).batch.rows = (List.range rows).map front := by
          rw [PendingBatch.begin_batch, hfront]
        cases hok
        dsimp only
        rw [hrows]
        rcases PendingBatch.appendColumn_map limit (fun row => encodeCell (text column row))
          hbegun with ⟨happend, hfits⟩ | ⟨size, happend, hsize, row, hrow, hlong⟩
        · rw [happend]
          have hnext := ih (index + 1) (fun row => front row ++ encodeCell (text column row))
            (fun column hcolumn => h column (List.mem_cons_of_mem _ hcolumn))
            (hsame.trans hlength) hfilled
            (p := { p.begin index with
              batch :=
                ⟨(List.range rows).map fun row => front row ++ encodeCell (text column row)⟩ })
            rfl hfits
          refine hnext.cons fun m hm => ?_
          obtain ⟨row, hrow, hm⟩ := hm
          exact hdated row hrow m hm
        · rw [happend]
          refine .tooLarge ⟨_, List.mem_map_of_mem hrow, ?_⟩ ⟨size, hsize, rfl⟩
          rw [List.length_append]
          omega
      · cases hresult
        refine .tooLarge ⟨_, List.mem_map_of_mem hrow, ?_⟩ ⟨size, hsize, rfl⟩
        rw [List.length_append, List.length_append]
        omega
      · cases hresult
        exact .undated (he.of_head column)

end ResultSet
