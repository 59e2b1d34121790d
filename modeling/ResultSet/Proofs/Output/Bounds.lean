import ResultSet.Proofs.Column.Run
import ResultSet.Proofs.Output.Columnar
import ResultSet.Proofs.Output.References

/-!
# Blocks are written within bounds

Encoders number the rows of a block, and a reference numbers its columns.  Neither number is
checked when a value is read, so that nothing goes wrong rests on the block: its columns have
its number of rows, and each is well formed.

* `WriterError.OfCells` are the errors that values and columns can give.
  `convertColumns_answers` finds no other ones in a conversion, in particular neither a column
  nor a row that is missing, but for a moment without a date.
* `Block.Answers` lists what an initialized writer can answer to a block whose moments have
  dates.
* `BlockCall.run_safe` puts this together with the run of the block.
-/

namespace ResultSet

/-! ## Answers -/

/-- The error is about the type, the scale or the size of what is written. -/
inductive WriterError.OfCells : WriterError → Prop
  | unsupportedType (type : SqlType) : OfCells (.unsupportedType type)
  | columnType (index : Nat) (declared : SqlType) (stored : String) :
      OfCells (.columnType index declared stored)
  | columnScale (index scale expected : Nat) : OfCells (.columnScale index scale expected)
  | encoding (e : RowError) : OfCells (.encoding e)

/-- What an initialized writer can answer to a block whose moments have dates. -/
inductive Block.Answers (b : Block) (refs : List Reference) : Except WriterError Unit → Prop
  | ok : Answers b refs (.ok ())
  /-- the execution of a reference behind the last column fails -/
  | missingColumn {ref : Reference} (href : ref ∈ refs) (h : b.width ≤ ref.position) :
      Answers b refs (.error (.missingColumn ref.position b.width))
  | cells {e : WriterError} (he : e.OfCells) : Answers b refs (.error e)
  | delivery (e : SinkError) : Answers b refs (.error (.delivery e))

/-! ## Conversion -/

theorem Shape.accept_error {index : Nat} {declared : SqlType} {shape : Shape} {e : WriterError}
    (h : shape.accept index declared = .error e) : e.OfCells := by
  unfold accept at h
  split at h
  case h_16 =>
    split at h
    · cases h
    · cases h
      exact .columnScale _ _ _
  all_goals cases h
  · exact .unsupportedType _
  · exact .unsupportedType _
  · exact .unsupportedType _
  · exact .columnType _ _ _

/-- The cells of a column are as many as the block has rows, and those that cannot be written
are moments without a date. -/
theorem Block.toWire_cases {b : Block} (hb : b.WellFormed) {column : ColumnExpr × Nat}
    (hposition : column.2 < b.width) {moments : Moment → Prop}
    (hmoments : ∀ row < b.rows, ∀ c, b.column? column.2 = some c →
      ∀ m ∈ c.column.moment? column.1.type row, moments m) (index : Nat) :
    (∃ cells, b.toWire index b.rows column = .ok cells ∧ cells.length = b.rows ∧
        ∀ e, .error e ∈ cells → e.Undated moments) ∨
      ∃ e, b.toWire index b.rows column = .error e ∧ e.OfCells := by
  have hc : b.column? column.2 = some b.columns[column.2] := List.getElem?_eq_getElem hposition
  have hmem : b.columns[column.2] ∈ b.columns := List.getElem_mem hposition
  have hwell := hb.columns _ hmem
  have hrows := hb.rectangular _ hmem
  have hwire := Column.toWire_eq hwell index column.1.type column.1.scale
  rw [hrows] at hwire
  rw [toWire, hc]
  dsimp only
  cases haccept : b.columns[column.2].column.shape.nested.accept index column.1.type with
  | error e =>
    rw [haccept] at hwire
    exact .inr ⟨e, hwire, Shape.accept_error haccept⟩
  | ok _ =>
    rw [haccept] at hwire
    have hlength : (b.columns[column.2].column.rows.map
        (StoredRow.wire column.1.type (textScale column.1.scale))).length = b.rows := by
      rw [List.length_map, Column.rows_length hwell, hrows]
    refine .inl ⟨_, hwire, hlength, fun e he => ?_⟩
    obtain ⟨row, hrow, hcell⟩ := List.mem_iff_getElem.1 he
    refine (Column.toWire_undated hwire (List.getElem?_eq_some_iff.2 ⟨hrow, hcell⟩)).mono ?_
    exact hmoments row (hlength ▸ hrow) _ hc

section Conversion

variable {E : Type} [RowEncoder E]

/-- With a cell for every encoder, only an encoder or a cell can refuse. -/
theorem pushColumn_answers (column row : Nat) {cells : List WireCell} {encoders : List E}
    (h : cells.length = encoders.length) :
    (pushColumn column row cells encoders).2 = .ok () ∨
      ∃ e, (pushColumn column row cells encoders).2 = .error e ∧
        (e.OfCells ∨ .error e ∈ cells) := by
  induction encoders generalizing row cells with
  | nil => cases cells <;> exact .inl rfl
  | cons encoder encoders ih =>
    cases cells with
    | nil => cases h
    | cons cell cells =>
      cases cell with
      | error e => exact .inr ⟨e, rfl, .inr List.mem_cons_self⟩
      | ok v =>
        rw [pushColumn, pushCell, pushValue]
        cases RowEncoder.push v (RowEncoder.reset encoder) with
        | error e => exact .inr ⟨_, rfl, .inl (.encoding e)⟩
        | ok pushed =>
          rcases ih (row + 1) (Nat.succ.inj h) with hok | ⟨e, herror, he⟩
          · exact .inl hok
          · exact .inr ⟨e, herror, he.imp_right (List.mem_cons_of_mem _)⟩

/-- A conversion of columns that exist completes the batch or ends with an error of a cell. -/
theorem convertColumns_answers {b : Block} (hb : b.WellFormed) (limit index : Nat)
    {columns : List (ColumnExpr × Nat)} (hpositions : ∀ column ∈ columns, column.2 < b.width)
    {moments : Moment → Prop}
    (hmoments : ∀ column ∈ columns, ∀ row < b.rows, ∀ c, b.column? column.2 = some c →
      ∀ m ∈ c.column.moment? column.1.type row, moments m)
    {encoders : List E} (hlength : encoders.length = b.rows) {pending : PendingBatch}
    (hopen : pending.isOpen = true) :
    ((convertColumns b limit index columns encoders pending).2.2 = .ok () ∧
        (convertColumns b limit index columns encoders pending).2.1.state = .complete) ∨
      ∃ e, (convertColumns b limit index columns encoders pending).2.2 = .error e ∧
        (e.OfCells ∨ e.Undated moments) := by
  induction columns generalizing index encoders pending with
  | nil => exact .inl ⟨rfl, PendingBatch.complete_state hopen⟩
  | cons column columns ih =>
    rw [convertColumns_cons, hlength]
    rcases Block.toWire_cases hb (hpositions column List.mem_cons_self)
      (hmoments column List.mem_cons_self) index with
      ⟨cells, hwire, hcount, hcells⟩ | ⟨e, hwire, he⟩
    · have hfilled := pushColumn_length index 0 cells encoders
      have hpushed := pushColumn_answers index 0 (hcount.trans hlength.symm)
      rw [hwire]
      dsimp only
      cases hpush : pushColumn index 0 cells encoders with
      | mk filled result =>
        rw [hpush] at hfilled hpushed
        rcases hpushed with hok | ⟨e, herror, he⟩
        · cases hok
          dsimp only
          cases happend : (pending.begin index).appendColumn (filled.map RowEncoder.row) limit with
          | error e =>
            refine .inr ⟨e, rfl, .inl ?_⟩
            unfold PendingBatch.appendColumn at happend
            split at happend
            · cases happend
              exact .encoding _
            · cases happend
          | ok appended =>
            have hopen' : appended.isOpen = true := by
              rw [(PendingBatch.appendColumn_cases happend).2]
              exact PendingBatch.isOpen_begin hopen index
            exact ih (index + 1)
              (fun column hcolumn => hpositions column (List.mem_cons_of_mem _ hcolumn))
              (fun column hcolumn => hmoments column (List.mem_cons_of_mem _ hcolumn))
              (hfilled.trans hlength) hopen'
        · cases herror
          exact .inr ⟨e, rfl, he.imp_right (hcells e)⟩
    · rw [hwire]
      exact .inr ⟨e, rfl, .inl he⟩

end Conversion

/-- An initialized writer answers a well-formed block with success, with the first reference
that is behind the last column, or with an error of a cell or of the sink.  Only a moment
without a date can keep it from an answer. -/
theorem Writer.appendBlock_answers {E : Type} [RowEncoder E] {w : Writer E}
    {refs : List Reference} (hexprs : w.exprs = .ofReferences true refs)
    (hencoder : w.encoder.isSome = true) (hsink : w.sink.isSome = true) {b : Block}
    (hb : b.WellFormed) :
    b.Answers refs (w.appendBlock b).1 ∨
      ∃ e, (w.appendBlock b).1 = .error e ∧ e.Undated (b.WritesMoment refs) := by
  have hexprs : w.exprs = .columns (refs.map Reference.toColumnExpr) := hexprs
  obtain ⟨encoder, hencoder⟩ := Option.isSome_iff_exists.1 hencoder
  obtain ⟨sink, hsink⟩ := Option.isSome_iff_exists.1 hsink
  by_cases hrows : b.rows = 0
  · rw [appendBlock, hexprs, hencoder]
    dsimp only
    rw [if_pos hrows]
    exact .inl .ok
  · have hanswer := congrArg Prod.fst (appendBlock_eq hexprs hencoder hrows)
    rw [convertBlock_references] at hanswer
    dsimp only at hanswer
    rw [hanswer]
    cases hfind : refs.find? fun ref => decide (b.width ≤ ref.position) with
    | some ref =>
      have hbehind := List.find?_some hfind
      exact .inl (.missingColumn (List.mem_of_find?_eq_some hfind) (of_decide_eq_true hbehind))
    | none =>
      have hpositions : ∀ column ∈ refs.map fun ref => (ref.toColumnExpr, ref.position),
          column.2 < b.width := by
        intro column hcolumn
        obtain ⟨ref, href, rfl⟩ := List.mem_map.1 hcolumn
        have hbefore := List.find?_eq_none.1 hfind ref href
        simpa using hbefore
      have hmoments : ∀ column ∈ refs.map fun ref => (ref.toColumnExpr, ref.position),
          ∀ row < b.rows, ∀ c, b.column? column.2 = some c →
            ∀ m ∈ c.column.moment? column.1.type row, b.WritesMoment refs m := by
        intro column hcolumn row hrow c hc m hm
        obtain ⟨ref, href, rfl⟩ := List.mem_map.1 hcolumn
        exact ⟨ref, href, row, hrow, Option.bind_eq_some_iff.2 ⟨c, hc, hm⟩⟩
      have hopen : (PendingBatch.withRows b.rows).isOpen = true := rfl
      have hconverted := convertColumns_answers hb w.config.maxRowBytes 0 hpositions hmoments
        (w.taken_length b.rows) hopen
      dsimp only
      generalize convertColumns b w.config.maxRowBytes 0
        (refs.map fun ref => (ref.toColumnExpr, ref.position))
        ((w.grownPool b.rows).take b.rows) (.withRows b.rows) = converted at hconverted
      obtain ⟨encoders, pending, result⟩ := converted
      rcases hconverted with ⟨hok, hcomplete⟩ | ⟨e, herror, he⟩
      · cases hok
        unfold finish PendingBatch.deliver Sink.offer
        dsimp only
        rw [hsink]
        dsimp only
        rw [if_pos hcomplete]
        cases sink.refuse sink.offers pending.batch with
        | none => exact .inl .ok
        | some e => exact .inl (.delivery e)
      · cases herror
        dsimp only
        rw [finish_error]
        exact he.imp .cells fun hundated => ⟨e, rfl, hundated⟩

/-- Positions that were executed are those of columns, and every row that an encoder stands for
can be read from them. -/
theorem Block.inBounds_of_executed {b : Block} (hb : b.WellFormed) {refs : List Reference}
    {positions : List Nat}
    (h : (ColumnExpr.executeAll (refs.map Reference.toColumnExpr) b).2 = .ok positions) :
    ∀ position ∈ positions, ∃ c, b.column? position = some c ∧
      ∀ row < b.rows, c.column.InBounds row := by
  rw [executeAll_eq] at h
  dsimp only at h
  split at h
  · next hfind =>
    cases h
    intro position hposition
    obtain ⟨ref, href, rfl⟩ := List.mem_map.1 hposition
    have hbefore : ref.position < b.width := by
      have hnot := List.find?_eq_none.1 hfind ref href
      simpa using hnot
    refine ⟨b.columns[ref.position], List.getElem?_eq_getElem hbefore, fun row hrow => ?_⟩
    have hmem : b.columns[ref.position] ∈ b.columns := List.getElem_mem hbefore
    rw [Column.inBounds_iff (hb.columns _ hmem), hb.rectangular _ hmem]
    exact hrow
  · cases h

namespace BlockCall

/-- Whatever calls a block comes from, its columns have one length.  A column is refused
exactly when there are columns and its length is another, and the block is then left as it
was.  A filter keeps names, types and their order.

Whatever the references are, an initialized writer answers such a block with one of
`Block.Answers`, so no row is missing, and a column is missing only to the execution of a
reference behind the last one.  There is no answer only if a moment that is written has no date,
and moments of years in range have one: finding it stays in words of 32 bits, and so does the
year without its sign.  Positions that were executed are those of columns, and all rows that
encoders stand for are read within the bounds of the column.  The digits of a large integer stay
in their scratch buffer. -/
theorem run_safe {calls : List BlockCall}
    (hcalls : ∀ call ∈ calls, ∀ c ∈ call.columns, c.column.WellFormed) :
    let b := run calls
    (∀ c ∈ b.columns, c.column.length = b.rows) ∧
      (∀ c, (b.columns ≠ [] ∧ c.column.length ≠ b.rows →
          (insert c).step b = (.error (.rowCount c.name b.rows c.column.length), b)) ∧
        (b.columns = [] ∨ c.column.length = b.rows →
          (insert c).step b = (.ok (), ⟨b.columns ++ [c]⟩))) ∧
      (∀ mask hint kept, b.filter mask hint = .ok kept →
        kept.columns.map (fun c => (c.name, c.type)) = b.columns.map fun c => (c.name, c.type)) ∧
      (∀ (E : Type) [RowEncoder E] (w : Writer E) (refs : List Reference),
        w.exprs = .ofReferences true refs → w.encoder.isSome = true → w.sink.isSome = true →
          ((∀ m, b.WritesMoment refs m → m.Checked) → b.Answers refs (w.appendBlock b).1) ∧
          (b.Answers refs (w.appendBlock b).1 ∨
            ∃ m, b.WritesMoment refs m ∧ ¬m.Dated ∧
              (w.appendBlock b).1 = .error (.undated m.day.val)) ∧
          ∀ positions,
            (ColumnExpr.executeAll (refs.map Reference.toColumnExpr) b).2 = .ok positions →
              ∀ position ∈ positions, ∃ c, b.column? position = some c ∧
                ∀ row < ((w.grownPool b.rows).take b.rows).length, c.column.InBounds row) ∧
      (∀ m : Moment, m.Checked → m.Dated ∧ ∃ date, m.date = some date ∧ InWord (-date.year)) ∧
      ∀ (v : Signed 128) (buffer : Bytes), buffer.length = LargeInt.capacity →
        (LargeInt.render v.val buffer).isSome = true := by
  intro b
  have hb : b.WellFormed := run_wellFormed hcalls
  refine ⟨hb.rectangular, fun c => ⟨fun hdiffers => ?_, fun hfits => ?_⟩,
    fun mask hint kept hkept => ?_, fun E _ w refs hexprs hencoder hsink => ?_,
    fun m hm => ⟨hm.dated, _, hm.dated.date_eq, Moment.inWord_neg_year hm.dated.date_eq⟩,
    fun v buffer hbuffer => ?_⟩
  · obtain ⟨hfits, -⟩ | ⟨-, herror⟩ := b.insert_cases c
    · exact absurd hfits (not_or.2 hdiffers)
    · rw [step, outcome, herror]
  · obtain ⟨-, hok⟩ | ⟨hdiffers, -⟩ := b.insert_cases c
    · rw [step, outcome, hok]
    · exact absurd hfits (not_or.2 hdiffers)
  · obtain ⟨-, hok⟩ | ⟨-, herror⟩ := Block.filter_cases hb mask hint
    · cases hok.symm.trans hkept
      rw [Block.keep, List.map_map]
      rfl
    · cases herror.symm.trans hkept
  · have hanswer := Writer.appendBlock_answers hexprs hencoder hsink hb
    refine ⟨fun hchecked => ?_, ?_, fun positions hexecuted => ?_⟩
    · rcases hanswer with hanswer | ⟨e, -, m, hm, hundated, -⟩
      · exact hanswer
      · exact absurd (hchecked m hm).dated hundated
    · exact hanswer.imp_right fun ⟨e, he, m, hm, hundated, hday⟩ =>
        ⟨m, hm, hundated, hday ▸ he⟩
    · rw [w.taken_length]
      exact Block.inBounds_of_executed hb hexecuted
  · rw [LargeInt.render_word v hbuffer]
    rfl

/-- Strings and nullable integers; a column that is too short is refused, and two of the three
rows are kept.  The second reference is behind the last column. -/
theorem run_safe_filtered :
    let names : NamedColumn :=
      ⟨"name".toList, .plain .varchar, .strings (.ofList [[1], [], [2, 3]])⟩
    let counts : NamedColumn := ⟨"count".toList, ⟨.int, true⟩,
      .nullable (.cells .int32 [.zero 32, .zero 32, .zero 32]) [false, true, false]⟩
    let short : NamedColumn := ⟨"short".toList, .plain .double, .cells .float64 []⟩
    let calls : List BlockCall :=
      [.ofColumns [names, counts], .insert short, .filter [true, false, true] 0]
    let refs : List Reference := [⟨1, .int, unsetScale⟩, ⟨2, .int, unsetScale⟩]
    let w := (Writer.forText (some (.new fun _ _ => none)) (.ofReferences true refs) ⟨1, 9⟩).run
      [.init]
    (∀ call ∈ calls, ∀ c ∈ call.columns, c.column.WellFormed) ∧ (run calls).rows = 2 ∧
      (insert short).step (run calls) = (.error (.rowCount short.name 2 0), run calls) ∧
      (run calls).Answers refs (w.appendBlock (run calls)).1 := by
  intro names counts short calls refs w
  have hcalls : ∀ call ∈ calls, ∀ c ∈ call.columns, c.column.WellFormed := by
    simp only [calls, columns, List.mem_cons, List.not_mem_nil, or_false, forall_eq_or_imp,
      forall_eq]
    exact ⟨⟨StringColumn.packed_ofList _, trivial, rfl⟩, trivial, fun c hc => absurd hc (by simp)⟩
  obtain ⟨-, hinsert, -, hwriter, -⟩ := run_safe hcalls
  refine ⟨hcalls, rfl, (hinsert short).1 ⟨List.cons_ne_nil _ _, by decide⟩, ?_⟩
  refine (hwriter RowBuffer w refs rfl rfl rfl).1 fun m hm => ?_
  obtain ⟨ref, href, row, hrow, hm⟩ := hm
  have hnone : ∀ ref ∈ refs, ∀ row < (run calls).rows, (run calls).momentAt ref row = none := by
    decide
  rw [hnone ref href row hrow] at hm
  cases hm

end BlockCall

end ResultSet
