import ResultSet.Proofs.Output.Delivery
import ResultSet.Proofs.Output.Isolation
import ResultSet.Proofs.Output.References

/-!
# Filtered blocks

A filter keeps the rows of a block that a mask marks, and to write the block that is left is to
write those rows.

* `Column.toWire_keep`: filtered columns have the filtered cells.
* `pushColumn_keepRows` and `PendingBatch.appendColumn_keep` follow one column of the filtered
  block next to the same column of the whole one, and `convertColumns_keepRows` all of them.
  The encoders of the filtered block are those of the marked rows.
* `Writer.Reached.appendBlock_filter` is about two writers with any histories.  Their encoders
  differ, but a reset makes them the same.
-/

namespace ResultSet

open RowEncoder (reset)

open Selection (keepRows keepRows_map keepRows_replicate)

/-! ## Cells -/

/-- A column that is written is written after a filter, too, with the cells of the marked
rows. -/
theorem Column.toWire_keep {c : Column} (h : c.WellFormed) {mask : List Bool}
    (hmask : mask.length = c.length) {index : Nat} {declared : SqlType} {outputScale : Int}
    {cells : List WireCell} (hcells : c.toWire index declared outputScale c.length = .ok cells) :
    (c.keep mask).toWire index declared outputScale (mask.count true) =
      .ok (keepRows mask cells) := by
  obtain ⟨-, hparts⟩ := filter_of_length h hmask 0
  have hcount : (keepRows mask c.rows).length = mask.count true :=
    Selection.keepRows_length (hmask.trans (rows_length h).symm)
  have hkept := toWire_eq hparts.wellFormed index declared outputScale
  rw [hparts.length_eq, hcount, hparts.shape_eq, hparts.rows_eq, ← keepRows_map] at hkept
  rw [toWire_eq h] at hcells
  rw [hkept]
  cases haccept : c.shape.nested.accept index declared with
  | error e =>
    rw [haccept] at hcells
    cases hcells
  | ok _ =>
    rw [haccept] at hcells
    cases hcells
    rfl

theorem Block.toWire_keep {b : Block} (hb : b.WellFormed) {mask : List Bool}
    (hmask : mask.length = b.rows) {index : Nat} {column : ColumnExpr × Nat}
    {cells : List WireCell} (hcells : b.toWire index b.rows column = .ok cells) :
    (b.keep mask).toWire index (mask.count true) column = .ok (keepRows mask cells) := by
  have hcolumn : (b.keep mask).column? column.2 =
      (b.column? column.2).map (NamedColumn.keep mask) := List.getElem?_map
  unfold toWire at hcells ⊢
  rw [hcolumn]
  cases hc : b.column? column.2 with
  | none =>
    rw [hc] at hcells
    cases hcells
  | some c =>
    have hmem : c ∈ b.columns := List.mem_of_getElem? hc
    have hlength : c.column.length = b.rows := hb.rectangular c hmem
    rw [hc] at hcells
    rw [← hlength] at hcells hmask
    exact Column.toWire_keep (hb.columns c hmem) hmask hcells

/-! ## Conversion -/

section Conversion

variable {E : Type} [RowEncoder E]

/-- What was pushed for all rows is pushed for the marked ones alone. -/
theorem pushColumn_keepRows {mask : List Bool} {column row : Nat} (row' : Nat)
    {cells : List WireCell} {encoders filled : List E} (hmask : mask.length = encoders.length)
    (h : pushColumn column row cells encoders = (filled, .ok ())) :
    pushColumn column row' (keepRows mask cells) (keepRows mask encoders) =
      (keepRows mask filled, .ok ()) := by
  induction mask generalizing row row' cells encoders filled with
  | nil => rfl
  | cons marked mask ih =>
    cases encoders with
    | nil => cases hmask
    | cons encoder encoders =>
      cases cells with
      | nil => cases h
      | cons cell cells =>
        rw [pushColumn] at h
        cases hpush : pushCell (reset encoder) cell with
        | mk pushed result =>
          rw [hpush] at h
          cases result with
          | error e => cases h
          | ok _ =>
            cases hrest : pushColumn column (row + 1) cells encoders with
            | mk rest result =>
              rw [hrest] at h
              cases h
              cases marked with
              | false => exact ih row' (Nat.succ.inj hmask) hrest
              | true =>
                have hkept := ih (row' + 1) (Nat.succ.inj hmask) hrest
                rw [keepRows, keepRows, pushColumn, hpush]
                dsimp only
                rw [hkept, keepRows]

namespace PendingBatch

/-- The batch with the rows that a mask marks. -/
def keep (mask : List Bool) (p : PendingBatch) : PendingBatch :=
  { p with batch := ⟨keepRows mask p.batch.rows⟩ }

theorem keep_rows (mask : List Bool) (p : PendingBatch) :
    (p.keep mask).batch.rows = keepRows mask p.batch.rows := rfl

theorem keep_begin (mask : List Bool) (p : PendingBatch) (position : Nat) :
    (p.keep mask).begin position = (p.begin position).keep mask := by
  by_cases hopen : p.isOpen = true
  · rw [begin, begin, if_pos hopen]
    exact if_pos hopen
  · rw [begin, begin, if_neg hopen]
    exact if_neg hopen

theorem keep_complete (mask : List Bool) (p : PendingBatch) :
    (p.keep mask).complete = p.complete.keep mask := by
  by_cases hopen : p.isOpen = true
  · rw [complete, complete, if_pos hopen]
    exact if_pos hopen
  · rw [complete, complete, if_neg hopen]
    exact if_neg hopen

theorem keep_withRows (mask : List Bool) :
    (withRows mask.length).keep mask = withRows (mask.count true) := by
  rw [withRows, keep, keepRows_replicate, withRows]

theorem joinCells_keepRows (mask : List Bool) (rows cells : List Bytes) :
    joinCells (keepRows mask rows) (keepRows mask cells) = keepRows mask (joinCells rows cells) := by
  induction mask generalizing rows cells with
  | nil => rfl
  | cons marked mask ih =>
    cases rows with
    | nil => cases marked <;> cases cells <;> rfl
    | cons row rows =>
      cases cells with
      | nil =>
        have hnil : joinCells (keepRows (marked :: mask) (row :: rows)) [] =
            keepRows (marked :: mask) (row :: rows) := by
          cases keepRows (marked :: mask) (row :: rows) <;> rfl
        cases marked <;> exact hnil
      | cons cell cells =>
        cases marked with
        | false => exact ih rows cells
        | true => exact congrArg ((row ++ cell) :: ·) (ih rows cells)

theorem outgrown_keepRows {limit : Nat} (mask : List Bool) {rows cells : List Bytes}
    (h : outgrown limit rows cells = none) :
    outgrown limit (keepRows mask rows) (keepRows mask cells) = none := by
  induction mask generalizing rows cells with
  | nil => rfl
  | cons marked mask ih =>
    cases rows with
    | nil => cases marked <;> rfl
    | cons row rows =>
      cases cells with
      | nil =>
        have hnil : outgrown limit (keepRows (marked :: mask) (row :: rows)) [] = none := by
          cases keepRows (marked :: mask) (row :: rows) <;> rfl
        cases marked <;> exact hnil
      | cons cell cells =>
        rw [outgrown] at h
        by_cases hlt : limit < row.length + cell.length
        · rw [if_pos hlt] at h
          cases h
        · rw [if_neg hlt] at h
          cases marked with
          | false => exact ih h
          | true => exact (if_neg hlt).trans (ih h)

/-- The marked rows get their cells, when all rows do. -/
theorem appendColumn_keep {mask : List Bool} {p p' : PendingBatch} {cells : List Bytes}
    {limit : Nat} (h : p.appendColumn cells limit = .ok p') :
    (p.keep mask).appendColumn (keepRows mask cells) limit = .ok (p'.keep mask) := by
  obtain ⟨hfits, rfl⟩ := appendColumn_cases h
  rw [appendColumn, keep_rows, outgrown_keepRows mask hfits]
  dsimp only
  rw [joinCells_keepRows]
  rfl

end PendingBatch

/-- A conversion that completes does so for the marked rows, too, and makes their part of the
batch. -/
theorem convertColumns_keepRows {b kept : Block} {mask : List Bool}
    {columns : List (ColumnExpr × Nat)}
    (hwire : ∀ column ∈ columns, ∀ index cells, b.toWire index mask.length column = .ok cells →
      kept.toWire index (mask.count true) column = .ok (keepRows mask cells))
    {limit index : Nat} {encoders filled : List E} (hmask : mask.length = encoders.length)
    {pending after : PendingBatch}
    (h : convertColumns b limit index columns encoders pending = (filled, after, .ok ())) :
    convertColumns kept limit index columns (keepRows mask encoders) (pending.keep mask) =
        (keepRows mask filled, after.keep mask, .ok ()) ∧
      after.batch.length = pending.batch.length := by
  induction columns generalizing index encoders pending with
  | nil =>
    cases h
    refine ⟨?_, congrArg Batch.length (PendingBatch.complete_batch pending)⟩
    rw [convertColumns, PendingBatch.keep_complete]
  | cons column columns ih =>
    obtain ⟨cells, written, appended, hcells, hpush, happend, hrest⟩ :=
      convertColumns_cons_of_ok h
    have hwritten : written.length = encoders.length := by
      have hpushed := pushColumn_length index 0 cells encoders
      rwa [hpush] at hpushed
    have hwide : appended.batch.length = pending.batch.length := by
      rw [(PendingBatch.appendColumn_cases happend).2]
      show (PendingBatch.joinCells _ _).length = _
      rw [PendingBatch.joinCells_length, PendingBatch.begin_batch]
      rfl
    rw [← hmask] at hcells
    obtain ⟨hkept, hlength⟩ := ih (fun column hcolumn => hwire column
      (List.mem_cons_of_mem _ hcolumn)) (hmask.trans hwritten.symm) hrest
    refine ⟨?_, hlength.trans hwide⟩
    -- the first column of the filtered block, step by step
    rw [convertColumns_cons, Selection.keepRows_length hmask,
      hwire column List.mem_cons_self index cells hcells]
    dsimp only
    rw [pushColumn_keepRows 0 hmask hpush]
    dsimp only
    rw [PendingBatch.keep_begin, ← keepRows_map, PendingBatch.appendColumn_keep happend]
    exact hkept

/-- A block of which all rows are converted is converted after a filter, too, with the encoders
of the marked rows. -/
theorem convertBlock_keep {refs : List Reference} {b : Block} (hb : b.WellFormed)
    {mask : List Bool} (hmask : mask.length = b.rows) {limit : Nat} {encoders : List E}
    (hlength : encoders.length = b.rows) {after : PendingBatch}
    (h : (convertBlock (refs.map Reference.toColumnExpr) b limit encoders (.withRows b.rows)).2.2 =
      (after, .ok ())) :
    (convertBlock (refs.map Reference.toColumnExpr) (b.keep mask) limit (keepRows mask encoders)
        (.withRows (b.keep mask).rows)).2.2 = (after.keep mask, .ok ()) ∧
      after.batch.length = b.rows := by
  rw [convertBlock_references] at h ⊢
  rw [Block.keep_width, Block.keep_rows hb hmask, ← PendingBatch.keep_withRows, hmask]
  cases hfind : refs.find? fun ref => decide (b.width ≤ ref.position) with
  | some ref =>
    rw [hfind] at h
    cases h
  | none =>
    rw [hfind] at h
    dsimp only at h ⊢
    cases hconverted : convertColumns b limit 0
        (refs.map fun ref => (ref.toColumnExpr, ref.position)) encoders (.withRows b.rows) with
    | mk filled converted =>
      rw [hconverted] at h
      cases h
      have hwire : ∀ column ∈ refs.map fun ref => (ref.toColumnExpr, ref.position),
          ∀ index cells, b.toWire index mask.length column = .ok cells →
            (b.keep mask).toWire index (mask.count true) column = .ok (keepRows mask cells) := by
        intro column _ index cells hcells
        rw [hmask] at hcells
        exact Block.toWire_keep hb hmask hcells
      obtain ⟨hkept, hrows⟩ :=
        convertColumns_keepRows hwire (hmask.trans hlength.symm) hconverted
      refine ⟨congrArg Prod.snd hkept, hrows.trans ?_⟩
      exact List.length_replicate

end Conversion

/-! ## Two writers side by side -/

namespace Writer

variable {E : Type} {w : Writer E} {sink : Sink} (hsink : w.sink = some sink)
include hsink

/-- A successful call has offered a complete batch, and the sink took it. -/
theorem finish_of_ok {pending : PendingBatch} {converted : Except WriterError Unit}
    (h : (w.finish pending converted).1 = .ok ()) :
    converted = .ok () ∧ pending.state = .complete ∧
      (w.finish pending converted).2.sink = some (sink.record [⟨pending.batch, none⟩]) := by
  cases converted with
  | error e =>
    rw [finish_error] at h
    cases h
  | ok _ =>
    unfold finish PendingBatch.deliver Sink.offer at h ⊢
    rw [hsink] at h ⊢
    dsimp only at h ⊢
    by_cases hstate : pending.state = .complete
    · rw [if_pos hstate] at h ⊢
      cases hrefusal : sink.refuse sink.offers pending.batch with
      | none => exact ⟨rfl, hstate, rfl⟩
      | some e =>
        rw [hrefusal] at h
        cases h
    · rw [if_neg hstate] at h
      cases h

/-- A complete batch is delivered to a sink that takes it. -/
theorem finish_of_complete {pending : PendingBatch} (hstate : pending.state = .complete)
    (haccepts : sink.refuse sink.offers pending.batch = none) :
    (w.finish pending (.ok ())).1 = .ok () ∧
      (w.finish pending (.ok ())).2.sink = some (sink.record [⟨pending.batch, none⟩]) := by
  unfold finish PendingBatch.deliver Sink.offer
  rw [hsink]
  dsimp only
  rw [if_pos hstate, haccepts]
  exact ⟨rfl, rfl⟩

variable [RowEncoder E] {exprs : List ColumnExpr} (hexprs : w.exprs = .columns exprs)
  (hinit : w.encoder.isSome = true) {b : Block} (hrows : b.rows ≠ 0)
include hexprs hinit hrows

theorem appendBlock_of_ok (h : (w.appendBlock b).1 = .ok ()) :
    ∃ pending, (convertBlock exprs b w.config.maxRowBytes ((w.grownPool b.rows).take b.rows)
        (.withRows b.rows)).2.2 = (pending, .ok ()) ∧ pending.state = .complete ∧
      (w.appendBlock b).2.1.sink = some (sink.record [⟨pending.batch, none⟩]) := by
  obtain ⟨encoder, hencoder⟩ := Option.isSome_iff_exists.1 hinit
  have hafter := appendBlock_eq hexprs hencoder hrows
  have hanswer := congrArg Prod.fst hafter
  have hleft := congrArg (fun after => after.2.sink) hafter
  dsimp only at hanswer hleft
  rw [hanswer] at h
  obtain ⟨hok, hstate, hoffered⟩ := finish_of_ok (by exact hsink) h
  exact ⟨_, Prod.ext rfl hok, hstate, hleft.trans hoffered⟩

theorem appendBlock_of_complete {pending : PendingBatch}
    (h : (convertBlock exprs b w.config.maxRowBytes ((w.grownPool b.rows).take b.rows)
      (.withRows b.rows)).2.2 = (pending, .ok ())) (hstate : pending.state = .complete)
    (haccepts : sink.refuse sink.offers pending.batch = none) :
    (w.appendBlock b).1 = .ok () ∧
      (w.appendBlock b).2.1.sink = some (sink.record [⟨pending.batch, none⟩]) := by
  obtain ⟨encoder, hencoder⟩ := Option.isSome_iff_exists.1 hinit
  have hafter := appendBlock_eq hexprs hencoder hrows
  dsimp only at hafter
  rw [h] at hafter
  obtain ⟨hanswer, hleft⟩ := Prod.mk.inj hafter
  rw [hanswer, hleft]
  exact finish_of_complete (by exact hsink) hstate haccepts

end Writer

/-- To write a filtered block is to write the rows that the mask marks.  Of two writers with the
same expressions and configuration, whatever their histories, one is given a block and the
other what a filter leaves of it.  If the first one delivers rows, the second one delivers
those of them that are marked.  If no row is marked, nothing is delivered and nothing can
fail. -/
theorem Writer.Reached.appendBlock_filter {E : Type} [RowEncoder E] [LawfulRowEncoder E]
    {refs : List Reference} {config : WriterConfig} {makeEncoder : WriterConfig → E}
    {w w' : Writer E} (hw : Reached (.ofReferences true refs) config makeEncoder w)
    (hw' : Reached (.ofReferences true refs) config makeEncoder w')
    (hinit : w.encoder.isSome = true) (hinit' : w'.encoder.isSome = true) {sink sink' : Sink}
    (hsink : w.sink = some sink) (hsink' : w'.sink = some sink')
    (haccepts : ∀ offers batch, sink'.refuse offers batch = none) {b : Block}
    (hb : b.WellFormed) {mask : List Bool} (hmask : mask.length = b.rows) (hint : Nat) :
    ∃ kept, b.filter mask hint = .ok kept ∧
      (true ∈ mask → (w.appendBlock b).1 = .ok () →
        ∃ rows : List Bytes, rows.length = b.rows ∧
          (w.appendBlock b).2.1.sink = some (sink.record [⟨⟨rows⟩, none⟩]) ∧
          (w'.appendBlock kept).1 = .ok () ∧
          (w'.appendBlock kept).2.1.sink = some (sink'.record
            [⟨⟨((rows.zip mask).filter Prod.snd).map Prod.fst⟩, none⟩])) ∧
      (true ∉ mask → w'.appendBlock kept = (.ok (), w', kept)) := by
  have hexprs : w.exprs = .columns (refs.map Reference.toColumnExpr) := hw.likeNew.exprs_eq
  have hexprs' : w'.exprs = .columns (refs.map Reference.toColumnExpr) := hw'.likeNew.exprs_eq
  have hkept := Block.keep_rows hb hmask
  obtain ⟨-, hfilter⟩ | ⟨⟨-, hdiffers⟩, -⟩ := Block.filter_cases hb mask hint
  · refine ⟨b.keep mask, hfilter, fun hmarked hok => ?_, fun hnone => ?_⟩
    · have hpositive := List.length_pos_of_mem hmarked
      have hpositive' := List.count_pos_iff.2 hmarked
      obtain ⟨pending, hconverted, hstate, hoffered⟩ :=
        appendBlock_of_ok hsink hexprs hinit (by omega) hok
      obtain ⟨hconverted', hrows⟩ :=
        convertBlock_keep hb hmask (w.taken_length b.rows) hconverted
      -- the encoders of the filtered block are like those of the marked rows
      have hreset : ((w'.grownPool (b.keep mask).rows).take (b.keep mask).rows).map reset =
          (keepRows mask ((w.grownPool b.rows).take b.rows)).map reset := by
        rw [hw'.likeNew.taken_eq, ← keepRows_map, hw.likeNew.taken_eq, ← hmask,
          keepRows_replicate, hkept]
      have hlimit : w.config.maxRowBytes = w'.config.maxRowBytes := by
        rw [hw.likeNew.config_eq, hw'.likeNew.config_eq]
      rw [← convertBlock_eq_of_reset _ _ _ hreset, hlimit] at hconverted'
      obtain ⟨hanswer, hoffered'⟩ := appendBlock_of_complete hsink' hexprs' hinit' (by omega)
        hconverted' hstate (haccepts _ _)
      refine ⟨pending.batch.rows, hrows, hoffered, hanswer, ?_⟩
      rw [hoffered', ← Selection.keepRows_eq_filter]
      rfl
    · have hrows : (b.keep mask).rows = 0 := by
        rw [hkept]
        exact List.count_eq_zero.2 hnone
      obtain ⟨encoder, hencoder⟩ := Option.isSome_iff_exists.1 hinit'
      rw [appendBlock, hexprs', hencoder]
      exact if_pos hrows
  · exact absurd hmask hdiffers

/-- A name that is null with a long placeholder is filtered out, and another one is kept.  The
second writer has written the whole block before. -/
theorem Writer.Reached.appendBlock_filter_null :
    let refs : List Reference := [⟨1, .int, unsetScale⟩, ⟨0, .varchar, unsetScale⟩]
    let w := (forText (some .accepting) (.ofReferences true refs) ⟨1, 4⟩).init.2
    let names : NamedColumn := ⟨"name".toList, ⟨.varchar, true⟩,
      .nullable (.strings (.ofList [[0x61], List.replicate 10 0x78, []])) [false, true, true]⟩
    let counts : NamedColumn := ⟨"count".toList, .plain .int,
      .cells .int32 [.zero 32, ⟨7, by decide, by decide⟩, ⟨-1, by decide, by decide⟩]⟩
    let b : Block := ⟨[names, counts]⟩
    let mask := [true, false, true]
    let w' := (w.appendBlock b).2.1
    w.encoder.isSome = true ∧ w'.encoder.isSome = true ∧ b.WellFormed ∧ mask.length = b.rows ∧
      true ∈ mask ∧ (w.appendBlock b).1 = .ok () ∧
      w'.offers = [⟨⟨[[1, 0x30, 1, 0x61], [1, 0x37, 0xFB], [2, 0x2D, 0x31, 0xFB]]⟩, none⟩] ∧
      ∃ kept, b.filter mask 9 = .ok kept ∧ (w'.appendBlock kept).1 = .ok () ∧
        (w'.appendBlock kept).2.1.offers =
          w'.offers ++ [⟨⟨[[1, 0x30, 1, 0x61], [2, 0x2D, 0x31, 0xFB]]⟩, none⟩] := by
  intro refs w names counts b mask w'
  have hw : Reached (.ofReferences true refs) ⟨1, 4⟩
      (fun config => RowBuffer.empty config.maxRowBytes) w := .init (.new _)
  have hb : b.WellFormed := by
    apply Block.wellFormed_of_length 3
    simp only [List.mem_cons, List.not_mem_nil, or_false, forall_eq_or_imp, forall_eq]
    exact ⟨⟨⟨StringColumn.packed_ofList _, rfl⟩, rfl⟩, trivial, rfl⟩
  have hoffers : w'.offers =
      [⟨⟨[[1, 0x30, 1, 0x61], [1, 0x37, 0xFB], [2, 0x2D, 0x31, 0xFB]]⟩, none⟩] := rfl
  obtain ⟨kept, hfilter, hmarked, -⟩ := hw.appendBlock_filter (.block hw b) rfl rfl rfl rfl
    (fun _ _ => rfl) hb (show mask.length = b.rows from rfl) 9
  obtain ⟨rows, -, hdelivered, hanswer, hoffered⟩ := hmarked (by decide) rfl
  cases hdelivered
  refine ⟨rfl, rfl, hb, rfl, by decide, rfl, hoffers, kept, hfilter, hanswer, ?_⟩
  rw [hoffers, offers, hoffered]
  rfl

end ResultSet
