import ResultSet.Proofs.Output.Columnar

/-!
# Tuples and blocks agree

A table can be given as tuples, row by row, or as a block, column by column.
`Column.Stores` relates a value to the row of a column that holds it, one case for each
declared type, and `Column.Holds` adds nulls, whatever placeholder stands behind them.
`Block.Represents` says that a block is the table of some tuples.

* `Stores.writes` and `Holds.writes` compare the two conversions of one cell.
* `appendRows_handedOver` hands over the rows of the tuples as the lines of the block.
* `append_agrees` puts the two ways of writing the table side by side.
-/

namespace ResultSet

/-! ## Cells -/

/-- The row of a column without nulls holds a value of the declared type. -/
inductive Column.Stores (row : Nat) : SqlType → Column → Datum → Prop where
  | boolean {rows : List (Signed 8)} {stored : Signed 8} {v : Bool} (h : rows[row]? = some stored)
      (hv : stored.val = if v then 1 else 0) : Stores row .boolean (.cells .int8 rows) (.boolean v)
  | booleanByte {rows : List (Signed 8)} {v : Signed 8} (h : rows[row]? = some v) :
      Stores row .boolean (.cells .int8 rows) (.tinyInt v)
  | tinyInt {rows : List (Signed 8)} {v : Signed 8} (h : rows[row]? = some v) :
      Stores row .tinyInt (.cells .int8 rows) (.tinyInt v)
  | smallInt {rows : List (Signed 16)} {v : Signed 16} (h : rows[row]? = some v) :
      Stores row .smallInt (.cells .int16 rows) (.smallInt v)
  | int {rows : List (Signed 32)} {v : Signed 32} (h : rows[row]? = some v) :
      Stores row .int (.cells .int32 rows) (.int v)
  | bigInt {rows : List (Signed 64)} {v : Signed 64} (h : rows[row]? = some v) :
      Stores row .bigInt (.cells .int64 rows) (.bigInt v)
  | largeInt {rows : List (Signed 128)} {v : Signed 128} (h : rows[row]? = some v) :
      Stores row .largeInt (.cells .int128 rows) (.largeInt v)
  | float {rows : List Binary32} {v : Binary32} (h : rows[row]? = some v) :
      Stores row .float (.cells .float32 rows) (.float v)
  | double {rows : List Binary64} {v : Binary64} (h : rows[row]? = some v) :
      Stores row .double (.cells .float64 rows) (.double v)
  | time {rows : List Binary64} {v : Binary64} (h : rows[row]? = some v) :
      Stores row .time (.cells .float64 rows) (.time v)
  | moment {type : SqlType} {rows : List Moment} {v : Moment}
      (htype : type = .date ∨ type = .dateTime) (h : rows[row]? = some v) :
      Stores row type (.cells .moment rows) (.moment v)
  | string {type : SqlType} {c : StringColumn} {bytes : Bytes}
      (htype : type = .char ∨ type = .varchar ∨ type = .string) (h : c.get? row = some bytes) :
      Stores row type (.strings c) (.string (.stored bytes))
  /-- a string without storage that claims no length is the empty string -/
  | emptyString {type : SqlType} {c : StringColumn}
      (htype : type = .char ∨ type = .varchar ∨ type = .string) (h : c.get? row = some []) :
      Stores row type (.strings c) (.string (.detached 0))
  | decimal {rows : List WideDecimal} {v : WideDecimal} (h : rows[row]? = some v) :
      Stores row .decimal (.cells .decimal rows) (.decimal v)
  | decimalV2 {c : DecimalColumn .w128} {v : Billionths} (h : c.rows[row]? = some v.raw) :
      Stores row .decimalV2 (.decimals c) (.decimalV2 v)
  /-- sketches and objects are never looked into -/
  | sketch {type : SqlType} {column : Column} {datum : Datum}
      (htype : type = .hll ∨ type = .object) : Stores row type column datum

/-- The row of a column holds a value of the declared type, or a null. -/
inductive Column.Holds (row : Nat) (type : SqlType) : Column → Option Datum → Prop where
  | null {nested : Column} {nulls : List Bool} (h : nulls[row]? = some true) :
      Holds row type (.nullable nested nulls) none
  | present {nested : Column} {nulls : List Bool} {datum : Datum} (h : nulls[row]? = some false)
      (hstores : nested.Stores row type datum) : Holds row type (.nullable nested nulls) (some datum)
  | plain {column : Column} {datum : Datum} (h : column.isNullable = false)
      (hstores : column.Stores row type datum) : Holds row type column (some datum)

namespace Column

theorem storedText_cells (kind : CellKind) {rows : List kind.Cell} {row : Nat} {v : kind.Cell}
    (h : rows[row]? = some v) (type : SqlType) (scale : Int) :
    some (kind.text type scale v) = rows[row]?.map (kind.text type scale) := by
  rw [h]
  rfl

/-- A value and the row that stores it have the same text, which is that of the same moment. -/
theorem Stores.writes {row : Nat} {type : SqlType} {column : Column} {datum : Datum}
    (h : column.Stores row type datum) (scale : Int) :
    (datum.toWire type scale).Reads (column.storedText type scale row)
      (column.storedMoment? type row) := by
  cases h with
  | @boolean rows stored v h hv =>
    refine WireCell.reads_value (Eq.trans ?_ (storedText_cells .int8 h .boolean scale))
    show _ = some (Digits.ofInt stored.val).utf8
    rw [hv]
    cases v <;> rfl
  | booleanByte h => exact WireCell.reads_value (storedText_cells .int8 h _ scale)
  | tinyInt h => exact WireCell.reads_value (storedText_cells .int8 h _ scale)
  | smallInt h => exact WireCell.reads_value (storedText_cells .int16 h _ scale)
  | int h => exact WireCell.reads_value (storedText_cells .int32 h _ scale)
  | bigInt h => exact WireCell.reads_value (storedText_cells .int64 h _ scale)
  | @largeInt rows v h =>
    refine WireCell.reads_value (Eq.trans ?_ (storedText_cells .int128 h .largeInt scale))
    exact congrArg some (LargeInt.bytes_eq v)
  | float h => exact WireCell.reads_value (storedText_cells .float32 h _ scale)
  | double h => exact WireCell.reads_value (storedText_cells .float64 h .double scale)
  | time h => exact WireCell.reads_value (storedText_cells .float64 h .time scale)
  | @moment _ rows v htype h =>
    have hread : (WireCell.ofMoment v).Reads (rows[row]?.map fun v => v.bytes.getD [])
        rows[row]? := by
      rw [h]
      exact WireCell.reads_ofMoment v
    rcases htype with rfl | rfl
    · exact hread
    · exact hread
  | string htype h =>
    rcases htype with rfl | rfl | rfl
    · exact WireCell.reads_value h.symm
    · exact WireCell.reads_value h.symm
    · exact WireCell.reads_value h.symm
  | emptyString htype h =>
    rcases htype with rfl | rfl | rfl
    · exact WireCell.reads_value h.symm
    · exact WireCell.reads_value h.symm
    · exact WireCell.reads_value h.symm
  | decimal h => exact WireCell.reads_value (storedText_cells .decimal h _ scale)
  | @decimalV2 c v h =>
    refine WireCell.reads_value ?_
    show some (v.text (textScale scale)).utf8 = c.rows[row]?.map _
    rw [h]
    rfl
  | sketch htype =>
    rcases htype with rfl | rfl
    · cases column <;> exact WireCell.reads_value rfl
    · cases column <;> exact WireCell.reads_value rfl

/-- An expression writes its value with the text of the row that holds it. -/
theorem Holds.writes {row : Nat} {expr : RowExpr} {tuple : TupleRow} {column : Column}
    (h : column.Holds row expr.type (expr.value tuple)) :
    expr.Writes tuple (column.cellText expr.type expr.scale row)
      (column.moment? expr.type row) := by
  unfold RowExpr.Writes RowExpr.toWire
  generalize expr.value tuple = slot at h ⊢
  cases h with
  | null h =>
    rw [cellText, moment?, if_pos h, if_pos h]
    exact WireCell.reads_value rfl
  | present h hstores =>
    rw [cellText, moment?, h, if_neg (by decide), if_neg (by decide)]
    exact hstores.writes expr.scale
  | plain h hstores =>
    cases column with
    | nullable nested nulls => cases h
    | cells kind rows => exact hstores.writes expr.scale
    | strings c => exact hstores.writes expr.scale
    | decimals c => exact hstores.writes expr.scale
    | sketches c => exact hstores.writes expr.scale

end Column

/-! ## Tables -/

/-- A block is the table of some tuples, as far as the references reach: it is well
formed and has a row for every tuple, and where a reference finds a slot in the tuple
it finds the row of a suitable column that holds it. -/
structure Block.Represents (block : Block) (refs : List Reference) (tuples : List TupleRow) :
    Prop where
  supports : block.Supports refs
  rows_eq : block.rows = tuples.length
  holds : ∀ ref ∈ refs, ∀ c, block.column? ref.position = some c →
    ∀ row tuple, tuples[row]? = some tuple → c.column.Holds row ref.type (tuple.get? ref.position)

namespace Block.Represents

variable {block : Block} {refs : List Reference} {tuples : List TupleRow}

/-- What the references write for the tuples has the texts that they find in the rows of the
block. -/
theorem writes (h : block.Represents refs tuples) :
    List.Forall₂ (fun row tuple => ∀ ref ∈ refs,
      ref.toRowExpr.Writes tuple (block.textAt ref row) (block.momentAt ref row))
      (List.range block.rows) tuples := by
  refine List.forall₂_iff_get.2 ⟨List.length_range.trans h.rows_eq, fun row _ htuple ref href => ?_⟩
  obtain ⟨c, hc, _⟩ := h.supports.suits ref href
  have hholds : c.column.Holds row ref.toRowExpr.type (ref.toRowExpr.value tuples[row]) :=
    h.holds ref href c hc row _ (List.getElem?_eq_getElem htuple)
  simp only [List.get_eq_getElem, List.getElem_range]
  rw [Block.textAt, Block.momentAt, hc]
  exact hholds.writes

/-- The tuples of `Block.sample`. -/
def sampleTuples : List TupleRow :=
  [⟨[some (.decimalV2 ⟨.wrap 128 1500000000⟩), some (.int (.wrap 32 7)),
      some (.string (.detached 0)), some (.object [1])]⟩,
    ⟨[some (.decimalV2 ⟨.wrap 128 (-5000000)⟩), none, some (.string (.stored [0xFB])),
      some (.object [2])]⟩]

theorem represents_sample : Block.sample.Represents Block.sampleRefs sampleTuples where
  supports := Block.supports_sample
  rows_eq := rfl
  holds := by
    intro ref href c hc row tuple htuple
    match row with
    | 0 =>
      cases htuple
      simp only [Block.sampleRefs, List.mem_cons, List.not_mem_nil, or_false] at href
      rcases href with rfl | rfl | rfl | rfl
      · cases hc
        exact .plain rfl (.decimalV2 rfl)
      · cases hc
        exact .present rfl (.int rfl)
      · cases hc
        exact .plain rfl (.emptyString (Or.inr (Or.inl rfl)) rfl)
      · cases hc
        exact .plain rfl (.sketch (Or.inl rfl))
    | 1 =>
      cases htuple
      simp only [Block.sampleRefs, List.mem_cons, List.not_mem_nil, or_false] at href
      rcases href with rfl | rfl | rfl | rfl
      · cases hc
        exact .plain rfl (.decimalV2 rfl)
      · cases hc
        exact .null rfl
      · cases hc
        exact .plain rfl (.string (Or.inr (Or.inl rfl)) rfl)
      · cases hc
        exact .plain rfl (.sketch (Or.inl rfl))
    | row + 2 => cases htuple

end Block.Represents

namespace Writer

/-- A ready writer hands over the rows of tuples as the lines of the block that
represents them, if its moments have dates. -/
theorem appendRows_handedOver {w : Writer RowBuffer} {refs : List Reference}
    {config : WriterConfig} (hw : w.Ready false refs config) {block : Block}
    {tuples : List TupleRow} (h : block.Represents refs tuples) (htuples : tuples ≠ []) :
    w.HandedOver (w.step (.rows tuples)).2 config.maxRowBytes (block.lines refs)
      (block.WritesMoment refs) (w.step (.rows tuples)).1 := by
  have hexprs : w.exprs = .rows (refs.map Reference.toRowExpr) := hw.exprs_eq
  obtain ⟨encoder, hencoder⟩ := Option.isSome_iff_exists.1 hw.initialized
  have hlimit : encoder.limit = w.config.maxRowBytes := hw.coherent.encoder_limit encoder hencoder
  have hnone : ∀ row ∈ PendingBatch.new.batch.rows, row.length ≤ encoder.limit :=
    fun row hrow => absurd hrow List.not_mem_nil
  have hassembled := convertRows_assembled 0 encoder .new h.writes hnone
  have hconverted := convertRows_converted (refs.map Reference.toRowExpr) 0 tuples encoder .new
    rfl hnone
  have hstep := appendRows_eq hexprs hencoder htuples
  have hwritten : Assembled encoder.limit _ (block.WritesMoment refs) _ _ :=
    hassembled.widen
      (fun m ⟨row, hrow, ref, href, hm⟩ => ⟨ref, href, row, List.mem_range.1 hrow, hm⟩)
      fun m ⟨ref, href, row, hrow, hm⟩ => .inr ⟨row, List.mem_range.2 hrow, ref, href, hm⟩
  rw [show PendingBatch.new.batch.rows = [] from rfl, List.nil_append, hlimit] at hwritten
  rw [← hw.config_eq]
  show w.HandedOver (w.appendRows tuples).2 _ _ _ (w.appendRows tuples).1
  rw [hstep]
  exact finish_handedOver rfl hw.accepts hconverted.complete hwritten

/-- A table whose moments have dates is written to the same rows from its tuples and from its
block, whatever was called before on either writer.  If every row stays within the limit, both
succeed and hand over the same batch; if one does not, both fail with this and hand over
nothing.  With a moment that has no date, neither succeeds and nothing is handed over. -/
theorem append_agrees (refs : List Reference) (config : WriterConfig) (block : Block)
    (tuples : List TupleRow) (rowCalls blockCalls : List WriterCall)
    (hsize : 0 < config.batchSize) (hrowInit : .init ∈ rowCalls)
    (hblockInit : .init ∈ blockCalls) (h : block.Represents refs tuples)
    (htuples : tuples ≠ []) :
    let rows := (forText (some .accepting) (.ofReferences false refs) config).run rowCalls
    let columns := (forText (some .accepting) (.ofReferences true refs) config).run blockCalls
    let byRows := rows.step (.rows tuples)
    let byColumns := columns.step (.block block)
    (block.Dated refs →
      ((∀ line ∈ block.lines refs, line.length ≤ config.maxRowBytes) →
        byRows.1 = .ok () ∧ byColumns.1 = .ok () ∧
          byRows.2.offers = rows.offers ++ [⟨⟨block.lines refs⟩, none⟩] ∧
          byColumns.2.offers = columns.offers ++ [⟨⟨block.lines refs⟩, none⟩]) ∧
      ((∃ line ∈ block.lines refs, config.maxRowBytes < line.length) →
        RowTooLarge config.maxRowBytes byRows.1 ∧ RowTooLarge config.maxRowBytes byColumns.1 ∧
          byRows.2.offers = rows.offers ∧ byColumns.2.offers = columns.offers)) ∧
    (¬block.Dated refs →
      byRows.2.offers = rows.offers ∧ byColumns.2.offers = columns.offers ∧
        ∀ answer ∈ [byRows.1, byColumns.1], RowTooLarge config.maxRowBytes answer ∨
          ∃ m, block.WritesMoment refs m ∧ ¬m.Dated ∧ answer = .error (.undated m.day.val)) := by
  intro rows columns byRows byColumns
  have hrows : 0 < block.rows := by
    rw [h.rows_eq]
    exact List.length_pos_iff.2 htuples
  have hbyRows := appendRows_handedOver (ready_run false refs hsize hrowInit) h htuples
  have hbyColumns :=
    appendBlock_handedOver (ready_run true refs hsize hblockInit) h.supports hrows
  refine ⟨fun hdated => ⟨fun hlines => ?_, fun hline => ?_⟩, fun hundated => ?_⟩
  · have hrowsOk := hbyRows.ok_iff.2 ⟨hdated, hlines⟩
    have hcolumnsOk := hbyColumns.ok_iff.2 ⟨hdated, hlines⟩
    exact ⟨hrowsOk, hcolumnsOk, hbyRows.of_ok hrowsOk, hbyColumns.of_ok hcolumnsOk⟩
  · obtain ⟨hrowsSize, hrowsOffers⟩ := hbyRows.of_tooLong hdated hline
    obtain ⟨hcolumnsSize, hcolumnsOffers⟩ := hbyColumns.of_tooLong hdated hline
    exact ⟨hrowsSize, hcolumnsSize, hrowsOffers, hcolumnsOffers⟩
  · obtain ⟨hrowsOffers, hrowsAnswer⟩ :=
      hbyRows.of_failed fun hok => hundated (hbyRows.ok_iff.1 hok).1
    obtain ⟨hcolumnsOffers, hcolumnsAnswer⟩ :=
      hbyColumns.of_failed fun hok => hundated (hbyColumns.ok_iff.1 hok).1
    refine ⟨hrowsOffers, hcolumnsOffers, fun answer hanswer => ?_⟩
    simp only [List.mem_cons, List.not_mem_nil, or_false] at hanswer
    rcases hanswer with rfl | rfl
    · exact hrowsAnswer.imp_left And.right
    · exact hcolumnsAnswer.imp_left And.right

/-- Rows of nine and of ten bytes are written both ways within a limit of ten, and
neither way within a limit of nine. -/
theorem append_agrees_sample :
    let rows (limit : Nat) :=
      ((forText (some .accepting) (.ofReferences false Block.sampleRefs) ⟨1, limit⟩).run
        [.init]).step (.rows Block.Represents.sampleTuples)
    let columns (limit : Nat) :=
      ((forText (some .accepting) (.ofReferences true Block.sampleRefs) ⟨1, limit⟩).run
        [.init]).step (.block Block.sample)
    Block.sample.Represents Block.sampleRefs Block.Represents.sampleTuples ∧
      Block.sample.Dated Block.sampleRefs ∧
      WriterCall.init ∈ [WriterCall.init] ∧ Block.Represents.sampleTuples ≠ [] ∧
      (rows 10).1 = .ok () ∧ (columns 10).1 = .ok () ∧
      (rows 10).2.offers = [⟨⟨[[4, 0x31, 0x2E, 0x35, 0x30, 1, 0x37, 0, 0xFB],
        [5, 0x2D, 0x30, 0x2E, 0x30, 0x31, 0xFB, 1, 0xFB, 0xFB]]⟩, none⟩] ∧
      (columns 10).2.offers = (rows 10).2.offers ∧
      RowTooLarge 9 (rows 9).1 ∧ RowTooLarge 9 (columns 9).1 ∧
      (rows 9).2.offers = [] ∧ (columns 9).2.offers = [] := by
  intro rows columns
  have hlines : Block.sample.lines Block.sampleRefs =
      [[4, 0x31, 0x2E, 0x35, 0x30, 1, 0x37, 0, 0xFB],
        [5, 0x2D, 0x30, 0x2E, 0x30, 0x31, 0xFB, 1, 0xFB, 0xFB]] := by
    rfl
  have hfits := ((append_agrees Block.sampleRefs ⟨1, 10⟩ Block.sample
    Block.Represents.sampleTuples [.init] [.init] (by decide) List.mem_cons_self
    List.mem_cons_self Block.Represents.represents_sample (List.cons_ne_nil _ _)).1
    Block.dated_sample).1 (by
      rw [hlines]
      decide)
  have hlong := ((append_agrees Block.sampleRefs ⟨1, 9⟩ Block.sample
    Block.Represents.sampleTuples [.init] [.init] (by decide) List.mem_cons_self
    List.mem_cons_self Block.Represents.represents_sample (List.cons_ne_nil _ _)).1
    Block.dated_sample).2 (by
      rw [hlines]
      decide)
  rw [hlines] at hfits
  obtain ⟨hrowsOk, hcolumnsOk, hrowsOffers, hcolumnsOffers⟩ := hfits
  obtain ⟨hrowsSize, hcolumnsSize, hrowsNone, hcolumnsNone⟩ := hlong
  exact ⟨Block.Represents.represents_sample, Block.dated_sample, List.mem_cons_self,
    List.cons_ne_nil _ _, hrowsOk, hcolumnsOk, hrowsOffers,
    hcolumnsOffers.trans hrowsOffers.symm, hrowsSize, hcolumnsSize, hrowsNone, hcolumnsNone⟩

/-- A moment that a document names, but that has no date: its row is short, and yet neither way
writes it. -/
theorem append_agrees_undated :
    let tuples : List TupleRow := [⟨[some (.moment Moment.lastMidnight)]⟩]
    let rows := ((forText (some .accepting) (.ofReferences false Block.undatedRefs) .default).run
      [.init]).step (.rows tuples)
    let columns := ((forText (some .accepting) (.ofReferences true Block.undatedRefs) .default).run
      [.init]).step (.block Block.undatedSample)
    Json.decodeText Moment.decode Moment.lastMidnightDocument = some Moment.lastMidnight ∧
      Block.undatedSample.Represents Block.undatedRefs tuples ∧
      (∀ line ∈ Block.undatedSample.lines Block.undatedRefs,
        line.length ≤ WriterConfig.default.maxRowBytes) ∧
      rows.1 = .error (.undated 2147483647) ∧ columns.1 = .error (.undated 2147483647) ∧
      rows.2.offers = [] ∧ columns.2.offers = [] := by
  intro tuples rows columns
  have hrepresents : Block.undatedSample.Represents Block.undatedRefs tuples := by
    refine ⟨Block.supports_undatedSample, rfl, fun ref href c hc row tuple htuple => ?_⟩
    cases List.mem_singleton.1 href
    cases hc
    match row with
    | 0 =>
      cases htuple
      exact .plain rfl (.moment (Or.inr rfl) rfl)
    | row + 1 => cases htuple
  exact ⟨Moment.decodeText_lastMidnight, hrepresents, by decide +kernel, rfl, rfl, rfl, rfl⟩

end Writer

end ResultSet
