import Mathlib.Data.List.Forall2
import ResultSet.Output.Cell
import ResultSet.Proofs.Calendar.Moments
import ResultSet.Proofs.Column.Strings
import ResultSet.Proofs.Number.LargeInt
import ResultSet.Row.Buffer

/-!
# The text of a cell

`Column.cellText` says what a row of a column reads as under a declared type and
output scale, row by row and without any encoder: nothing for a null and for a
sketch or object, otherwise its text.  `Column.moment?` says which moment that is the
text of.  `Column.Suits` says which layouts a type is written from.

* `Column.cellText_eq_none_iff` says which rows of a column that suits its type have no
  text.
* `WireCell.Reads` ties a cell to its text, which a moment without a date cannot be
  written with.
* `Column.toWire_reads` does so for the conversion of a whole column: a column that
  suits its type has a cell for every row, with this text.
-/

namespace ResultSet

/-! ## Texts -/

/-- The text of a value under a declared type and output scale.  Integers of every
width are written in decimal, decimals with the fractional digits asked for.  A moment
without a date has no text, the empty one stands in for it. -/
def CellKind.text (type : SqlType) (scale : Int) : (kind : CellKind) → kind.Cell → Bytes
  | .int8, v => (Digits.ofInt (Signed.val v)).utf8
  | .int16, v => (Digits.ofInt (Signed.val v)).utf8
  | .int32, v => (Digits.ofInt (Signed.val v)).utf8
  | .int64, v => (Digits.ofInt (Signed.val v)).utf8
  | .int128, v => (Digits.ofInt (Signed.val v)).utf8
  | .float32, v => (WireValue.floatLayout.render v).utf8
  | .float64, v =>
    match type with
    | .time => (TimeOfDay.text v).utf8
    | _ => (WireValue.floatLayout.render v).utf8
  | .moment, v => (Moment.bytes v).getD []
  | .decimal, v => (WideDecimal.text v (textScale scale)).utf8

namespace Column

/-- The text of a row of a column without nulls. -/
def storedText (type : SqlType) (scale : Int) (column : Column) (row : Nat) : Option Bytes :=
  match type, column with
  | .hll, _ | .object, _ => none
  | _, .cells kind rows => rows[row]?.map (kind.text type scale)
  | _, .strings c => c.get? row
  | _, .decimals c => c.rows[row]?.map fun raw => (Billionths.text ⟨raw⟩ (textScale scale)).utf8
  | _, _ => none

/-- The text of a row, nothing for a null. -/
def cellText (type : SqlType) (scale : Int) : Column → Nat → Option Bytes
  | .nullable nested nulls, row =>
    if nulls[row]? = some true then none else nested.storedText type scale row
  | column, row => column.storedText type scale row

/-- The moment whose text is written for a row of a column without nulls. -/
def storedMoment? (type : SqlType) (column : Column) (row : Nat) : Option Moment :=
  match type, column with
  | .hll, _ | .object, _ => none
  | _, .cells .moment rows => rows[row]?
  | _, _ => none

/-- The moment whose text is written for a row, nothing if it is the text of anything else. -/
def moment? (type : SqlType) : Column → Nat → Option Moment
  | .nullable nested nulls, row =>
    if nulls[row]? = some true then none else nested.storedMoment? type row
  | column, row => column.storedMoment? type row

/-- The layout is the one that a declared type is written from.  Sketches and
objects are never looked into, so any layout will do for them. -/
def Suits : Column → SqlType → Prop
  | _, .hll | _, .object => True
  | .cells .int8 _, .boolean | .cells .int8 _, .tinyInt => True
  | .cells .int16 _, .smallInt => True
  | .cells .int32 _, .int => True
  | .cells .int64 _, .bigInt => True
  | .cells .int128 _, .largeInt => True
  | .cells .float32 _, .float => True
  | .cells .float64 _, .double | .cells .float64 _, .time => True
  | .cells .moment _, .date | .cells .moment _, .dateTime => True
  | .cells .decimal _, .decimal => True
  | .strings _, .char | .strings _, .varchar | .strings _, .string => True
  | .decimals c, .decimalV2 => c.scale.val = billionthsScale
  | _, _ => False

/-- Sketches and objects have no text. -/
theorem storedText_of_sketch {type : SqlType} (h : type = .hll ∨ type = .object) (scale : Int)
    (column : Column) (row : Nat) : column.storedText type scale row = none := by
  rcases h with rfl | rfl <;> cases column <;> rfl

/-- Of a column that suits its type, sketches and objects are the rows without a
text. -/
theorem storedText_eq_none_iff {column : Column} {type : SqlType} (hsuits : column.Suits type)
    (scale : Int) {row : Nat} (hrow : row < column.length) :
    column.storedText type scale row = none ↔ type = .hll ∨ type = .object := by
  refine ⟨fun hnone => ?_, fun hsketch => storedText_of_sketch hsketch scale column row⟩
  unfold Suits at hsuits
  split at hsuits
  · exact Or.inl rfl
  · exact Or.inr rfl
  case h_19 => exact hsuits.elim
  -- what is left finds the row in a list and maps it to its text
  all_goals
    exact absurd (List.getElem?_eq_none_iff.1 (Option.map_eq_none_iff.1 hnone))
      (Nat.not_le_of_lt hrow)

/-- The rows without a text are the nulls, and all rows of sketches and objects. -/
theorem cellText_eq_none_iff {column : Column} {type : SqlType}
    (hsuits : column.nested.Suits type) (hwell : column.WellFormed) (scale : Int) {row : Nat}
    (hrow : row < column.length) :
    column.cellText type scale row = none ↔
      (type = .hll ∨ type = .object) ∨ column.isNullAt? row = some true := by
  have hplain {column : Column} (hsuits : column.Suits type) (hrow : row < column.length)
      (hnulls : column.nullMap = []) :
      column.storedText type scale row = none ↔
        (type = .hll ∨ type = .object) ∨ column.isNullAt? row = some true := by
    rw [storedText_eq_none_iff hsuits scale hrow, isNullAt?, hnulls, List.getElem?_nil]
    exact ⟨Or.inl, fun h => h.resolve_right fun hmarked => by cases hmarked⟩
  cases column with
  | nullable nested nulls =>
    obtain ⟨_, hlength⟩ := hwell
    have hsuits : nested.Suits type := hsuits
    have hrow : row < nested.length := by
      rw [← hlength]
      exact hrow
    show (if nulls[row]? = some true then none else nested.storedText type scale row) = none ↔
      (type = .hll ∨ type = .object) ∨ nulls[row]? = some true
    by_cases hnull : nulls[row]? = some true
    · rw [if_pos hnull]
      exact ⟨fun _ => Or.inr hnull, fun _ => rfl⟩
    · rw [if_neg hnull, storedText_eq_none_iff hsuits scale hrow]
      exact ⟨Or.inl, fun h => h.resolve_right hnull⟩
  | cells kind rows => exact hplain hsuits hrow rfl
  | strings c => exact hplain hsuits hrow rfl
  | decimals c => exact hplain hsuits hrow rfl
  | sketches c => exact hplain hsuits hrow rfl

end Column

/-! ## Conversion of a column -/

/-- The error names the day of one of the moments, which has no date. -/
def WriterError.Undated (moments : Moment → Prop) (e : WriterError) : Prop :=
  ∃ m, moments m ∧ ¬m.Dated ∧ e = .undated m.day.val

theorem WriterError.Undated.mono {moments others : Moment → Prop} {e : WriterError}
    (h : e.Undated moments) (hothers : ∀ m, moments m → others m) : e.Undated others := by
  obtain ⟨m, hm, hundated⟩ := h
  exact ⟨m, hothers m hm, hundated⟩

/-- The cell is written with the text, unless that is the text of a moment without a date. -/
inductive WireCell.Reads (text : Option Bytes) (moment : Option Moment) : WireCell → Prop where
  | written {v : WireValue} (hdated : ∀ m ∈ moment, m.Dated) (htext : v.text = text) :
      Reads text moment (.ok v)
  | undated {e : WriterError} (h : e.Undated (· ∈ moment)) : Reads text moment (.error e)

/-- A value that is no moment is written with its own text. -/
theorem WireCell.reads_value {v : WireValue} {text : Option Bytes} (h : v.text = text) :
    WireCell.Reads text none (.ok v) :=
  .written (fun _ hm => nomatch hm) h

theorem WireCell.reads_ofMoment (v : Moment) :
    (WireCell.ofMoment v).Reads (some (v.bytes.getD [])) (some v) := by
  unfold ofMoment
  cases hbytes : v.bytes with
  | some bytes =>
    refine .written (fun m hm => ?_) rfl
    cases hm
    exact Classical.not_not.1 (mt Moment.bytes_eq_none_iff.2 (by rw [hbytes]; simp))
  | none => exact .undated ⟨v, rfl, Moment.bytes_eq_none_iff.1 hbytes, rfl⟩

namespace Column

/-- The rows of a column read as these texts, of these moments. -/
def RowsRead (text : Nat → Option Bytes) (moment : Nat → Option Moment) (rows : Nat) :
    List WireCell → Prop :=
  List.Forall₂ (fun row cell => cell.Reads (text row) (moment row)) (List.range rows)

theorem rowsRead_iff {text : Nat → Option Bytes} {moment : Nat → Option Moment} {rows : Nat}
    {wire : List WireCell} :
    RowsRead text moment rows wire ↔ wire.length = rows ∧
      ∀ row (h : row < wire.length), wire[row].Reads (text row) (moment row) := by
  rw [RowsRead, List.forall₂_iff_get]
  constructor
  · rintro ⟨hlength, h⟩
    refine ⟨hlength.symm.trans List.length_range, fun row hrow => ?_⟩
    simpa using h row (hlength ▸ hrow) hrow
  · rintro ⟨rfl, h⟩
    refine ⟨List.length_range, fun row _ hrow => ?_⟩
    simpa using h row hrow

/-- Rows that are written each by itself. -/
theorem rowsRead_map {α : Type} {values : List α} {wire : α → WireCell}
    {text : Nat → Option Bytes} {moment : Nat → Option Moment}
    (h : ∀ row v, values[row]? = some v → (wire v).Reads (text row) (moment row)) :
    RowsRead text moment values.length (values.map wire) := by
  refine rowsRead_iff.2 ⟨List.length_map _, fun row hrow => ?_⟩
  rw [List.getElem_map]
  exact h row _ (List.getElem?_eq_getElem _)

private theorem cells_read (kind : CellKind) {type : SqlType} {scale : Int}
    (rows : List kind.Cell) (wire : kind.Cell → WireValue)
    (hwire : ∀ v, (wire v).text = some (kind.text type scale v))
    (hplain : ∀ row, (Column.cells kind rows).storedText type scale row =
      rows[row]?.map (kind.text type scale))
    (hmoment : ∀ row, (Column.cells kind rows).storedMoment? type row = none) :
    RowsRead ((Column.cells kind rows).storedText type scale)
      ((Column.cells kind rows).storedMoment? type) rows.length (written wire rows) := by
  refine rowsRead_map fun row v hv => ?_
  rw [hplain, hmoment, hv]
  exact WireCell.reads_value (hwire v)

private theorem moments_read {type : SqlType} {scale : Int} (rows : List Moment)
    (hplain : ∀ row, (Column.cells .moment rows).storedText type scale row =
      rows[row]?.map (CellKind.moment.text type scale))
    (hmoment : ∀ row, (Column.cells .moment rows).storedMoment? type row = rows[row]?) :
    RowsRead ((Column.cells .moment rows).storedText type scale)
      ((Column.cells .moment rows).storedMoment? type) rows.length
      (rows.map WireCell.ofMoment) := by
  refine rowsRead_map fun row v hv => ?_
  rw [hplain, hmoment, hv]
  exact WireCell.reads_ofMoment v

private theorem strings_read {c : StringColumn} (hpacked : c.Packed) {type : SqlType}
    {scale : Int} (hplain : ∀ row, (Column.strings c).storedText type scale row = c.get? row)
    (hmoment : ∀ row, (Column.strings c).storedMoment? type row = none) :
    RowsRead ((Column.strings c).storedText type scale)
      ((Column.strings c).storedMoment? type) c.length (written .bytes c.toList) := by
  rw [← StringColumn.toList_length]
  refine rowsRead_map fun row v hv => ?_
  rw [hplain, hmoment, ← StringColumn.getElem?_toList hpacked, hv]
  exact WireCell.reads_value rfl

private theorem decimals_read (c : DecimalColumn .w128) (scale : Int) :
    RowsRead ((Column.decimals c).storedText .decimalV2 scale)
      ((Column.decimals c).storedMoment? .decimalV2) c.length
      (written (fun raw => .ofBillionths (textScale scale) ⟨raw⟩) c.rows) := by
  refine rowsRead_map fun row v hv => WireCell.reads_value ?_
  show _ = c.rows[row]?.map _
  rw [hv]
  rfl

private theorem nulls_read {type : SqlType} (h : type = .hll ∨ type = .object) (scale : Int)
    (column : Column) :
    RowsRead (column.storedText type scale) (column.storedMoment? type) column.length
      (List.replicate column.length (.ok .null)) := by
  refine rowsRead_iff.2 ⟨List.length_replicate, fun row hrow => ?_⟩
  have hmoment : column.storedMoment? type row = none := by
    rcases h with rfl | rfl <;> cases column <;> rfl
  rw [List.getElem_replicate, storedText_of_sketch h, hmoment]
  exact WireCell.reads_value rfl

/-- A column without nulls that suits its type has a cell for every row, with the text
of the row. -/
theorem storedToWire_reads {column : Column} {type : SqlType} (hsuits : column.Suits type)
    (hwell : column.WellFormed) (index : Nat) (scale : Int) :
    ∃ wire,
      column.storedToWire index type (textScale scale) column.length = .ok wire ∧
      RowsRead (column.storedText type scale) (column.storedMoment? type) column.length wire := by
  -- one case for each layout and type of `Suits`, in its order
  unfold Suits at hsuits
  split at hsuits
  · exact ⟨_, rfl, nulls_read (Or.inl rfl) scale column⟩
  · exact ⟨_, rfl, nulls_read (Or.inr rfl) scale column⟩
  · exact ⟨_, rfl, cells_read .int8 _ _ (fun _ => rfl) (fun _ => rfl) fun _ => rfl⟩
  · exact ⟨_, rfl, cells_read .int8 _ _ (fun _ => rfl) (fun _ => rfl) fun _ => rfl⟩
  · exact ⟨_, rfl, cells_read .int16 _ _ (fun _ => rfl) (fun _ => rfl) fun _ => rfl⟩
  · exact ⟨_, rfl, cells_read .int32 _ _ (fun _ => rfl) (fun _ => rfl) fun _ => rfl⟩
  · exact ⟨_, rfl, cells_read .int64 _ _ (fun _ => rfl) (fun _ => rfl) fun _ => rfl⟩
  · exact ⟨_, rfl, cells_read .int128 _ _ (fun v => congrArg some (LargeInt.bytes_eq v))
      (fun _ => rfl) fun _ => rfl⟩
  · exact ⟨_, rfl, cells_read .float32 _ _ (fun _ => rfl) (fun _ => rfl) fun _ => rfl⟩
  · exact ⟨_, rfl, cells_read .float64 _ _ (fun _ => rfl) (fun _ => rfl) fun _ => rfl⟩
  · exact ⟨_, rfl, cells_read .float64 _ _ (fun _ => rfl) (fun _ => rfl) fun _ => rfl⟩
  · exact ⟨_, rfl, moments_read _ (fun _ => rfl) fun _ => rfl⟩
  · exact ⟨_, rfl, moments_read _ (fun _ => rfl) fun _ => rfl⟩
  · exact ⟨_, rfl, cells_read .decimal _ _ (fun _ => rfl) (fun _ => rfl) fun _ => rfl⟩
  · exact ⟨_, rfl, strings_read hwell (fun _ => rfl) fun _ => rfl⟩
  · exact ⟨_, rfl, strings_read hwell (fun _ => rfl) fun _ => rfl⟩
  · exact ⟨_, rfl, strings_read hwell (fun _ => rfl) fun _ => rfl⟩
  · rename_i c
    have hok : (Column.decimals c).storedToWire index .decimalV2 (textScale scale) c.length =
        .ok (written (fun raw => .ofBillionths (textScale scale) ⟨raw⟩) c.rows) := if_pos hsuits
    exact ⟨_, hok, decimals_read c scale⟩
  · exact hsuits.elim

/-! ## Null maps -/

theorem markNulls_eq_zipWith (nulls : List Bool) (wire : List WireCell) :
    markNulls nulls wire =
      List.zipWith (fun isNull cell => bif isNull then .ok .null else cell) nulls wire := by
  induction nulls generalizing wire with
  | nil => rfl
  | cons isNull nulls ih =>
    cases wire with
    | nil => cases isNull <;> rfl
    | cons cell wire =>
      cases isNull with
      | true =>
        rw [markNulls, ih]
        rfl
      | false =>
        rw [markNulls, ih]
        rfl

/-- A null has no text, every other row keeps its own. -/
theorem RowsRead.markNulls {nulls : List Bool} {wire : List WireCell}
    {text : Nat → Option Bytes} {moment : Nat → Option Moment}
    (h : RowsRead text moment nulls.length wire) :
    RowsRead (fun row => if nulls[row]? = some true then none else text row)
      (fun row => if nulls[row]? = some true then none else moment row) nulls.length
      (Column.markNulls nulls wire) := by
  obtain ⟨hlength, hreads⟩ := rowsRead_iff.1 h
  refine rowsRead_iff.2 ⟨?_, fun row hrow => ?_⟩
  · rw [markNulls_eq_zipWith, List.length_zipWith, hlength, Nat.min_self]
  · have hinside : row < nulls.length := by
      rw [markNulls_eq_zipWith, List.length_zipWith] at hrow
      omega
    have hread := hreads row (hlength ▸ hinside)
    simp only [markNulls_eq_zipWith, List.getElem_zipWith]
    rw [List.getElem?_eq_getElem hinside]
    cases nulls[row] with
    | true => exact WireCell.reads_value rfl
    | false => exact hread

/-- A column that suits its type has a cell for every row, with the text of the row. -/
theorem toWire_reads {column : Column} {type : SqlType} (hsuits : column.nested.Suits type)
    (hwell : column.WellFormed) (index : Nat) (scale : Int) :
    ∃ wire,
      column.toWire index type scale column.length = .ok wire ∧
      RowsRead (column.cellText type scale) (column.moment? type) column.length wire := by
  cases column with
  | nullable nested nulls =>
    obtain ⟨hnested, hlength⟩ := hwell
    have hsuits : nested.Suits type := hsuits
    obtain ⟨wire, hwire, hreads⟩ := storedToWire_reads hsuits hnested index scale
    rw [← hlength] at hreads hwire
    refine ⟨markNulls nulls wire, ?_, hreads.markNulls⟩
    show (nested.storedToWire index type (textScale scale) nulls.length).map _ = _
    rw [hwire]
    rfl
  | cells kind rows => exact storedToWire_reads hsuits hwell index scale
  | strings c => exact storedToWire_reads hsuits hwell index scale
  | decimals c => exact storedToWire_reads hsuits hwell index scale
  | sketches c => exact storedToWire_reads hsuits hwell index scale

/-! ## Rows that cannot be written -/

theorem getElem?_written_ne_error {α : Type} {wire : α → WireValue} {values : List α} {row : Nat}
    {e : WriterError} : (written wire values)[row]? ≠ some (.error e) := by
  intro h
  rw [written, List.getElem?_map, Option.map_eq_some_iff] at h
  obtain ⟨_, -, herror⟩ := h
  cases herror

theorem storedToWire_undated {column : Column} {type : SqlType} {index rows : Nat}
    {scale : Option Nat} {wire : List WireCell}
    (h : column.storedToWire index type scale rows = .ok wire) {row : Nat} {e : WriterError}
    (hrow : wire[row]? = some (.error e)) : e.Undated (· ∈ column.storedMoment? type row) := by
  have hmoments {values : List Moment}
      (hwritten : (values.map WireCell.ofMoment)[row]? = some (.error e)) :
      e.Undated (· ∈ values[row]?) := by
    rw [List.getElem?_map, Option.map_eq_some_iff] at hwritten
    obtain ⟨m, hm, herror⟩ := hwritten
    have hread := WireCell.reads_ofMoment m
    rw [herror] at hread
    cases hread with
    | undated hundated =>
      rw [hm]
      exact hundated
  unfold storedToWire at h
  split at h
  case h_10 | h_11 =>
    cases h
    exact hmoments hrow
  case h_16 =>
    split at h
    · cases h
      exact absurd hrow getElem?_written_ne_error
    · cases h
  case h_17 | h_18 =>
    cases h
    cases List.eq_of_mem_replicate (List.mem_of_getElem? hrow)
  all_goals cases h
  all_goals exact absurd hrow getElem?_written_ne_error

/-- Of a column that is written, a row that cannot be written is a moment without a date. -/
theorem toWire_undated {column : Column} {type : SqlType} {index rows : Nat} {scale : Int}
    {wire : List WireCell} (h : column.toWire index type scale rows = .ok wire) {row : Nat}
    {e : WriterError} (hrow : wire[row]? = some (.error e)) :
    e.Undated (· ∈ column.moment? type row) := by
  cases column with
  | nullable nested nulls =>
    rw [toWire] at h
    cases hstored : nested.storedToWire index type (textScale scale) rows with
    | error _ =>
      rw [hstored] at h
      cases h
    | ok stored =>
      rw [hstored] at h
      cases h
      rw [markNulls_eq_zipWith, List.getElem?_zipWith_eq_some] at hrow
      obtain ⟨isNull, cell, hnull, hcell, hcase⟩ := hrow
      cases isNull with
      | true => cases hcase
      | false =>
        have hplain : cell = .error e := hcase
        rw [hplain] at hcell
        rw [moment?, hnull, if_neg (by decide)]
        exact storedToWire_undated hstored hcell
  | cells kind rows => exact storedToWire_undated h hrow
  | strings c => exact storedToWire_undated h hrow
  | decimals c => exact storedToWire_undated h hrow
  | sketches c => exact storedToWire_undated h hrow

end Column

end ResultSet
