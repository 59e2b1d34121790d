import ResultSet.Proofs.Calendar.Origins
import ResultSet.Proofs.Output.Delivery

/-!
# Writing blocks

`Block.rowTexts` says what a row of a block reads as through a list of references, row
by row and column by column.  `Block.Supports` is what a block is promised to be: its
columns have one length and are well formed, and every reference finds a column of the
layout that its type is written from.  `Block.Dated` is what it has to be besides: the
moments that are written have dates.

* `convertBlock_assembled` ties the texts to the conversion of a block.
* `appendBlock_handedOver` follows the batch to the sink.
* `appendBlock_decodes` reads every row back.
-/

namespace ResultSet

/-! ## Texts of a block -/

namespace Block

/-- The text that a reference finds in a row. -/
def textAt (b : Block) (ref : Reference) (row : Nat) : Option Bytes :=
  (b.column? ref.position).bind fun c => c.column.cellText ref.type ref.scale row

/-- The moment whose text a reference finds in a row. -/
def momentAt (b : Block) (ref : Reference) (row : Nat) : Option Moment :=
  (b.column? ref.position).bind fun c => c.column.moment? ref.type row

/-- The moment is written through one of the references. -/
def WritesMoment (b : Block) (refs : List Reference) (m : Moment) : Prop :=
  ∃ ref ∈ refs, ∃ row < b.rows, b.momentAt ref row = some m

/-- All moments that are written have dates. -/
def Dated (b : Block) (refs : List Reference) : Prop := ∀ m, b.WritesMoment refs m → m.Dated

/-- The texts of a row, one for each reference. -/
def rowTexts (b : Block) (refs : List Reference) (row : Nat) : List (Option Bytes) :=
  refs.map fun ref => b.textAt ref row

/-- The rows as they are handed over. -/
def lines (b : Block) (refs : List Reference) : List Bytes :=
  (List.range b.rows).map fun row => encodeCells (b.rowTexts refs row)

/-- A well-formed block in which every reference finds a column that suits its type. -/
structure Supports (b : Block) (refs : List Reference) : Prop where
  rectangular : b.Rectangular
  wellFormed : ∀ c ∈ b.columns, c.column.WellFormed
  suits : ∀ ref ∈ refs, ∃ c, b.column? ref.position = some c ∧
    c.column.nested.Suits ref.type

theorem forall_mem_lines {b : Block} {refs : List Reference} {P : Bytes → Prop} :
    (∀ line ∈ b.lines refs, P line) ↔
      ∀ row < b.rows, P (encodeCells (b.rowTexts refs row)) := by
  refine ⟨fun h row hrow => h _ (List.mem_map_of_mem (List.mem_range.2 hrow)), ?_⟩
  intro h line hline
  obtain ⟨row, hrow, rfl⟩ := List.mem_map.1 hline
  exact h row (List.mem_range.1 hrow)

/-- Two rows of a price, a count that may be null, a name and a sketch. -/
def sample : Block :=
  ⟨[⟨"price".toList, .plain .decimalV2, .decimals
      ⟨[.wrap 128 1500000000, .wrap 128 (-5000000)], ⟨9, by decide⟩⟩⟩,
    ⟨"count".toList, ⟨.int, true⟩,
      .nullable (.cells .int32 [Signed.wrap 32 7, Signed.wrap 32 99]) [false, true]⟩,
    ⟨"name".toList, .plain .varchar, .strings ⟨[1, 3], [0, 0xFB, 0]⟩⟩,
    ⟨"users".toList, .plain .hll, .sketches ⟨"hll_union".toList, [[1], [2]]⟩⟩]⟩

/-- One reference for each column of `sample`, the price with two fractional digits. -/
def sampleRefs : List Reference :=
  [⟨0, .decimalV2, 2⟩, ⟨1, .int, -1⟩, ⟨2, .varchar, -1⟩, ⟨3, .hll, -1⟩]

theorem supports_sample : sample.Supports sampleRefs where
  rectangular := by
    show ∀ c ∈ sample.columns, c.column.length = sample.rows
    decide
  wellFormed := by
    intro c hc
    simp only [sample, List.mem_cons, List.not_mem_nil, or_false] at hc
    rcases hc with rfl | rfl | rfl | rfl
    · exact trivial
    · exact ⟨trivial, rfl⟩
    · exact ⟨by decide, rfl, by decide⟩
    · exact trivial
  suits := by
    intro ref href
    simp only [sampleRefs, List.mem_cons, List.not_mem_nil, or_false] at href
    rcases href with rfl | rfl | rfl | rfl
    · exact ⟨_, rfl, rfl⟩
    · exact ⟨_, rfl, trivial⟩
    · exact ⟨_, rfl, trivial⟩
    · exact ⟨_, rfl, trivial⟩

/-- The sample has no moments. -/
theorem dated_sample : sample.Dated sampleRefs := by
  rintro m ⟨ref, href, row, hrow, hm⟩
  have hnone : ∀ ref ∈ sampleRefs, ∀ row < sample.rows, sample.momentAt ref row = none := by
    decide
  rw [hnone ref href row hrow] at hm
  cases hm

/-- One row, with a moment that has no date. -/
def undatedSample : Block :=
  ⟨[⟨"at".toList, .plain .dateTime, .cells .moment [Moment.lastMidnight]⟩]⟩

/-- The reference to the moment of `undatedSample`. -/
def undatedRefs : List Reference := [⟨0, .dateTime, unsetScale⟩]

theorem supports_undatedSample : undatedSample.Supports undatedRefs where
  rectangular := by
    show ∀ c ∈ undatedSample.columns, c.column.length = undatedSample.rows
    decide
  wellFormed := by
    intro c hc
    cases List.mem_singleton.1 hc
    exact trivial
  suits := by
    intro ref href
    cases List.mem_singleton.1 href
    exact ⟨_, rfl, trivial⟩

end Block

/-! ## Conversion -/

/-- References within the block are their own positions. -/
theorem executeAll_references {block : Block} {refs : List Reference}
    (h : ∀ ref ∈ refs, ref.position < block.width) :
    ColumnExpr.executeAll (refs.map Reference.toColumnExpr) block =
      (block, .ok (refs.map Reference.position)) := by
  induction refs with
  | nil => rfl
  | cons ref refs ih =>
    have hexecute : ref.toColumnExpr.execute block = (block, .ok ref.position) :=
      if_pos (h ref List.mem_cons_self)
    rw [List.map_cons, ColumnExpr.executeAll, hexecute]
    dsimp only
    rw [ih fun ref href => h ref (List.mem_cons_of_mem _ href)]
    rfl

/-- A supported block is assembled to its lines. -/
theorem convertBlock_assembled {block : Block} {refs : List Reference} (h : block.Supports refs)
    {limit : Nat} {encoders : List RowBuffer} (hlength : encoders.length = block.rows)
    (hlimits : ∀ b ∈ encoders, b.limit = limit) :
    let converted := convertBlock (refs.map Reference.toColumnExpr) block limit encoders
      (PendingBatch.withRows block.rows)
    Assembled limit (block.lines refs) (block.WritesMoment refs) converted.2.2.1.batch
      converted.2.2.2 := by
  have hrange : ∀ ref ∈ refs, ref.position < block.width := by
    intro ref href
    obtain ⟨c, hc, _⟩ := h.suits ref href
    exact (List.getElem?_eq_some_iff.1 hc).1
  have hwrites : ∀ column ∈ refs.map (fun ref => (ref.toColumnExpr, ref.position)),
      ColumnExpr.Writes block block.rows column
        (fun row => (block.column? column.2).bind fun c =>
          c.column.cellText column.1.type column.1.scale row)
        (fun row => (block.column? column.2).bind fun c => c.column.moment? column.1.type row) := by
    intro column hcolumn
    obtain ⟨ref, href, rfl⟩ := List.mem_map.1 hcolumn
    obtain ⟨c, hc, hsuits⟩ := h.suits ref href
    have hmem : c ∈ block.columns := List.mem_of_getElem? hc
    refine ⟨c, hc, fun index => ?_⟩
    have hreads := Column.toWire_reads hsuits (h.wellFormed c hmem) index ref.scale
    rw [h.rectangular c hmem] at hreads
    dsimp only
    rw [hc]
    exact hreads
  have hassembled := convertColumns_assembled 0 (p := .withRows block.rows) (fun _ => [])
    hwrites hlength hlimits
    (by rw [List.map_const', List.length_range]; rfl) (fun row _ => Nat.zero_le limit)
  intro converted
  have hconverted : converted = (block, convertColumns block limit 0
      (refs.map fun ref => (ref.toColumnExpr, ref.position)) encoders
      (PendingBatch.withRows block.rows)) := by
    show convertBlock _ _ _ _ _ = _
    rw [convertBlock, executeAll_references hrange]
    dsimp only
    rw [List.zip_map']
  have hlines : (List.range block.rows).map (fun row => [] ++ encodeCells
      ((refs.map fun ref => (ref.toColumnExpr, ref.position)).map fun column =>
        (block.column? column.2).bind fun c =>
          c.column.cellText column.1.type column.1.scale row)) = block.lines refs := by
    refine List.map_congr_left fun row _ => ?_
    rw [List.nil_append, List.map_map]
    rfl
  rw [hlines] at hassembled
  rw [hconverted]
  refine hassembled.widen (fun m hm => ?_) (fun m hm => .inr ?_)
  · obtain ⟨column, hcolumn, row, hrow, hm⟩ := hm
    obtain ⟨ref, href, rfl⟩ := List.mem_map.1 hcolumn
    exact ⟨ref, href, row, List.mem_range.1 hrow, hm⟩
  · obtain ⟨ref, href, row, hrow, hm⟩ := hm
    exact ⟨_, List.mem_map_of_mem href, row, List.mem_range.2 hrow, hm⟩

namespace Writer

/-- A ready writer hands over the lines of a supported block, if its moments have dates. -/
theorem appendBlock_handedOver {w : Writer RowBuffer} {refs : List Reference}
    {config : WriterConfig} (hw : w.Ready true refs config) {block : Block}
    (h : block.Supports refs) (hrows : 0 < block.rows) :
    w.HandedOver (w.step (.block block)).2 config.maxRowBytes (block.lines refs)
      (block.WritesMoment refs) (w.step (.block block)).1 := by
  have hexprs : w.exprs = .columns (refs.map Reference.toColumnExpr) := hw.exprs_eq
  obtain ⟨encoder, hencoder⟩ := Option.isSome_iff_exists.1 hw.initialized
  have hlimits : ∀ b ∈ (w.grownPool block.rows).take block.rows,
      b.limit = w.config.maxRowBytes :=
    fun b hb => grownPool_limit hw.coherent block.rows b (List.mem_of_mem_take hb)
  have hlength : ((w.grownPool block.rows).take block.rows).length = block.rows := by
    rw [List.length_take, grownPool, List.length_append, List.length_replicate]
    omega
  have hassembled := convertBlock_assembled h hlength hlimits
  obtain ⟨_, _, hconverted⟩ := convertBlock_keeps (hw.coherent.exprs_fail _ hexprs) block
    w.config.maxRowBytes block.rows hlimits
  have hstep := appendBlock_eq hexprs hencoder (Nat.ne_of_gt hrows)
  rw [← hw.config_eq]
  show w.HandedOver ((w.appendBlock block).1, (w.appendBlock block).2.1).2 _ _ _
    ((w.appendBlock block).1, (w.appendBlock block).2.1).1
  rw [hstep]
  exact finish_handedOver rfl hw.accepts hconverted.complete hassembled

/-- Whatever was called before, writing a supported block succeeds exactly if its moments have
dates and each of its rows stays within the limit.  One batch is handed over then, with a row
for every row of the block, and each is read back as the texts of the row, one for each
reference and in their order.  Otherwise nothing is handed over, and the answer is the size of
a row that is too long or the day of a moment without a date.  Only nulls, sketches and objects
have no text. -/
theorem appendBlock_decodes (refs : List Reference) (config : WriterConfig)
    (calls : List WriterCall) (block : Block) (hsize : 0 < config.batchSize)
    (hinit : .init ∈ calls) (hblock : block.Supports refs) (hrows : 0 < block.rows)
    (hmemory : ∀ row < block.rows,
      (encodeCells (block.rowTexts refs row)).length < 2 ^ (62 : Nat)) :
    let w := (forText (some .accepting) (.ofReferences true refs) config).run calls
    let result := (w.step (.block block)).1
    let after := (w.step (.block block)).2
    (result = .ok () ↔ block.Dated refs ∧ ∀ row < block.rows,
        (encodeCells (block.rowTexts refs row)).length ≤ config.maxRowBytes) ∧
      (result = .ok () → ∃ batch, after.offers = w.offers ++ [⟨batch, none⟩] ∧
        batch.length = block.rows ∧ ∀ row < block.rows,
          batch.rows[row]?.map decodeRow =
            some (.ok (refs.map fun ref => block.textAt ref row))) ∧
      (result ≠ .ok () → after.offers = w.offers ∧
        ((∃ row < block.rows,
            config.maxRowBytes < (encodeCells (block.rowTexts refs row)).length) ∧
          RowTooLarge config.maxRowBytes result ∨
        ∃ m, block.WritesMoment refs m ∧ ¬m.Dated ∧ result = .error (.undated m.day.val))) ∧
      ∀ ref ∈ refs, ∃ c, block.column? ref.position = some c ∧ ∀ row < block.rows,
        (block.textAt ref row = none ↔
          (ref.type = .hll ∨ ref.type = .object) ∨ c.column.isNullAt? row = some true) := by
  intro w result after
  have h := appendBlock_handedOver (ready_run true refs hsize hinit) hblock hrows
  have hiff : result = .ok () ↔ block.Dated refs ∧ ∀ row < block.rows,
      (encodeCells (block.rowTexts refs row)).length ≤ config.maxRowBytes :=
    h.ok_iff.trans (and_congr_right fun _ => Block.forall_mem_lines)
  refine ⟨hiff, fun hok => ?_, fun hfailed => ?_, fun ref href => ?_⟩
  · refine ⟨⟨block.lines refs⟩, h.of_ok hok, ?_, fun row hrow => ?_⟩
    · show (block.lines refs).length = block.rows
      rw [Block.lines, List.length_map, List.length_range]
    · show (block.lines refs)[row]?.map decodeRow = _
      rw [Block.lines, List.getElem?_map, List.getElem?_range hrow]
      exact congrArg some (decodeRow_encodeCells_of_length (hmemory row hrow))
  · obtain ⟨hoffers, hanswer⟩ := h.of_failed hfailed
    refine ⟨hoffers, hanswer.imp_left fun ⟨⟨line, hline, hlong⟩, hresult⟩ => ?_⟩
    obtain ⟨row, hrow, rfl⟩ := List.mem_map.1 hline
    exact ⟨⟨row, List.mem_range.1 hrow, hlong⟩, hresult⟩
  · obtain ⟨c, hc, hsuits⟩ := hblock.suits ref href
    have hmem : c ∈ block.columns := List.mem_of_getElem? hc
    refine ⟨c, hc, fun row hrow => ?_⟩
    rw [Block.textAt, hc]
    refine Column.cellText_eq_none_iff hsuits (hblock.wellFormed c hmem) ref.scale ?_
    rw [hblock.rectangular c hmem]
    exact hrow

/-- Rows of nine and of ten bytes within a limit of ten, and more rows than encoders.  A
placeholder behind a null and a byte that would mark a null do not show. -/
theorem appendBlock_decodes_sample :
    let config : WriterConfig := ⟨1, 10⟩
    let w := (forText (some .accepting) (.ofReferences true Block.sampleRefs) config).run [.init]
    let after := w.step (.block Block.sample)
    0 < config.batchSize ∧ WriterCall.init ∈ [WriterCall.init] ∧
      Block.sample.Supports Block.sampleRefs ∧ Block.sample.Dated Block.sampleRefs ∧
      0 < Block.sample.rows ∧ (∀ row < Block.sample.rows,
        (encodeCells (Block.sample.rowTexts Block.sampleRefs row)).length < 2 ^ (62 : Nat)) ∧
      after.1 = .ok () ∧ ∃ batch, after.2.offers = w.offers ++ [⟨batch, none⟩] ∧
        batch.rows[0]?.map decodeRow =
          some (.ok [some [0x31, 0x2E, 0x35, 0x30], some [0x37], some [], none]) ∧
        batch.rows[1]?.map decodeRow =
          some (.ok [some [0x2D, 0x30, 0x2E, 0x30, 0x31], none, some [0xFB], none]) := by
  intro config w after
  have hfits : ∀ row < Block.sample.rows,
      (encodeCells (Block.sample.rowTexts Block.sampleRefs row)).length ≤ 10 := by
    decide +kernel
  have hmemory : ∀ row < Block.sample.rows,
      (encodeCells (Block.sample.rowTexts Block.sampleRefs row)).length < 2 ^ (62 : Nat) :=
    fun row hrow => Nat.lt_of_le_of_lt (hfits row hrow) (by decide)
  obtain ⟨hiff, hok, _⟩ := appendBlock_decodes Block.sampleRefs config [.init] Block.sample
    (by decide) List.mem_cons_self Block.supports_sample (by decide) hmemory
  have hwritten := hiff.2 ⟨Block.dated_sample, hfits⟩
  obtain ⟨batch, hoffers, _, hread⟩ := hok hwritten
  exact ⟨by decide, List.mem_cons_self, Block.supports_sample, Block.dated_sample, by decide,
    hmemory, hwritten, batch, hoffers, hread 0 (by decide), hread 1 (by decide)⟩

/-- A document can name a moment without a date.  Its row is short, and yet the block is not
written. -/
theorem appendBlock_decodes_undated :
    let w := (forText (some .accepting) (.ofReferences true Block.undatedRefs) .default).run
      [.init]
    let after := w.step (.block Block.undatedSample)
    Json.decodeText Moment.decode Moment.lastMidnightDocument = some Moment.lastMidnight ∧
      Block.undatedSample.Supports Block.undatedRefs ∧
      (∀ row < Block.undatedSample.rows,
        (encodeCells (Block.undatedSample.rowTexts Block.undatedRefs row)).length ≤
          WriterConfig.default.maxRowBytes) ∧
      after.1 = .error (.undated 2147483647) ∧ after.2.offers = [] :=
  ⟨Moment.decodeText_lastMidnight, Block.supports_undatedSample, by decide +kernel, rfl, rfl⟩

end Writer

end ResultSet
