import ResultSet.Proofs.Column.Rows
import ResultSet.Proofs.Output.CellText

/-!
# Columns converted row by row

A column is converted as a whole.  This module takes the conversion apart: the layout alone
decides whether the column is written at all (`Shape.accept`), and then each stored row is
written by itself (`StoredRow.wire`), the null flag first.

`Column.toWire_eq` says so.  What is done to the rows of a column, and what is changed about
them, is followed on `StoredRow.wire` from here on.
-/

namespace ResultSet

/-! ## Layouts -/

namespace Shape

/-- The name of the layout in reports. -/
def kindName : Shape → String
  | .cells kind => kind.name
  | .strings => "String"
  | .decimals _ => "Decimal128"
  | .sketches _ => "Opaque"
  | .nullable _ => "Nullable"

/-- Whether rows of the layout are written as a declared type. -/
def accept (index : Nat) (declared : SqlType) (shape : Shape) : Except WriterError Unit :=
  match declared, shape with
  | .boolean, .cells .int8 | .tinyInt, .cells .int8 => .ok ()
  | .smallInt, .cells .int16 => .ok ()
  | .int, .cells .int32 => .ok ()
  | .bigInt, .cells .int64 => .ok ()
  | .largeInt, .cells .int128 => .ok ()
  | .float, .cells .float32 => .ok ()
  | .double, .cells .float64 | .time, .cells .float64 => .ok ()
  | .date, .cells .moment | .dateTime, .cells .moment => .ok ()
  | .char, .strings | .varchar, .strings | .string, .strings => .ok ()
  | .decimal, .cells .decimal => .ok ()
  | .decimalV2, .decimals scale =>
    if scale.val = billionthsScale then .ok ()
    else .error (.columnScale index scale.val billionthsScale)
  | .hll, _ | .object, _ => .ok ()
  | .null, _ | .binary, _ | .array, _ => .error (.unsupportedType declared)
  | _, _ => .error (.columnType index declared shape.kindName)

end Shape

/-! ## Rows -/

namespace StoredRow

/-- What is written for a row without null flag. -/
def storedWire (declared : SqlType) (scale : Option Nat) (row : StoredRow) : WireCell :=
  match declared, row with
  | .hll, _ | .object, _ => .ok .null
  | _, .cell .int8 v => .ok (.tinyInt v)
  | _, .cell .int16 v => .ok (.smallInt v)
  | _, .cell .int32 v => .ok (.int v)
  | _, .cell .int64 v => .ok (.bigInt v)
  | _, .cell .int128 v => .ok (.ofLargeInt v)
  | _, .cell .float32 v => .ok (.float v)
  | .time, .cell .float64 v => .ok (.ofTime v)
  | _, .cell .float64 v => .ok (.double v)
  | _, .cell .moment v => .ofMoment v
  | _, .cell .decimal v => .ok (.ofDecimal scale v)
  | _, .string v => .ok (.bytes v)
  | _, .word v => .ok (.ofBillionths scale ⟨v⟩)
  | _, .state _ | _, .nullable _ _ => .ok .null

/-- What is written for a row.  The null flag comes first. -/
def wire (declared : SqlType) (scale : Option Nat) : StoredRow → WireCell
  | .nullable true _ => .ok .null
  | .nullable false row => row.storedWire declared scale
  | row => row.storedWire declared scale

/-- Nothing is read of a sketch or an object. -/
theorem storedWire_of_textless {declared : SqlType} (h : declared = .hll ∨ declared = .object)
    (scale : Option Nat) (row : StoredRow) : row.storedWire declared scale = .ok .null := by
  rcases h with rfl | rfl <;> rfl

theorem wire_of_textless {declared : SqlType} (h : declared = .hll ∨ declared = .object)
    (scale : Option Nat) (row : StoredRow) : row.wire declared scale = .ok .null := by
  cases row with
  | nullable isNull row =>
    cases isNull with
    | true => rfl
    | false => exact storedWire_of_textless h scale row
  | _ => exact storedWire_of_textless h scale _

end StoredRow

/-! ## Columns -/

namespace Column

/-- Sketches and objects are written without a look at the column. -/
theorem storedToWire_of_textless {declared : SqlType} (h : declared = .hll ∨ declared = .object)
    (c : Column) (index rows : Nat) (scale : Option Nat) :
    c.storedToWire index declared scale rows = .ok (List.replicate rows (.ok .null)) := by
  rcases h with rfl | rfl <;> cases c <;> rfl

/-- Without null flags, the layout decides and every row is written by itself. -/
theorem storedToWire_eq {c : Column} (h : c.WellFormed) (index : Nat) (declared : SqlType)
    (scale : Option Nat) :
    c.storedToWire index declared scale c.length =
      (c.shape.accept index declared).map fun _ =>
        c.rows.map (StoredRow.storedWire declared scale) := by
  by_cases htextless : declared = .hll ∨ declared = .object
  · have haccept : c.shape.accept index declared = .ok () := by
      rcases htextless with rfl | rfl <;> rfl
    have hrows : c.rows.map (StoredRow.storedWire declared scale) =
        List.replicate c.length (.ok .null) := by
      rw [funext (StoredRow.storedWire_of_textless htextless scale), List.map_const', rows_length h]
    rw [storedToWire_of_textless htextless, haccept, ← hrows]
    rfl
  · rw [not_or] at htextless
    obtain ⟨hhll, hobject⟩ := htextless
    cases c with
    | cells kind values =>
      rw [rows, List.map_map]
      cases kind <;> cases declared <;> first | rfl | contradiction
    | strings c =>
      rw [rows, List.map_map]
      cases declared <;> first | rfl | contradiction
    | decimals c =>
      rw [rows, List.map_map]
      cases declared with
      | decimalV2 =>
        show (if c.scale.val = billionthsScale then _ else _) =
          Except.map _ (if c.scale.val = billionthsScale then _ else _)
        split <;> rfl
      | hll => contradiction
      | object => contradiction
      | _ => rfl
    | sketches c => cases declared <;> first | rfl | contradiction
    | nullable nested nulls => cases declared <;> first | rfl | contradiction

/-- The layout decides whether a column is written, and then every row is written by
itself. -/
theorem toWire_eq {c : Column} (h : c.WellFormed) (index : Nat) (declared : SqlType)
    (outputScale : Int) :
    c.toWire index declared outputScale c.length =
      (c.shape.nested.accept index declared).map fun _ =>
        c.rows.map (StoredRow.wire declared (textScale outputScale)) := by
  have hplain (hstored : c.toWire index declared outputScale c.length =
        c.storedToWire index declared (textScale outputScale) c.length)
      (hshape : c.shape.nested = c.shape)
      (hrows : c.rows.map (StoredRow.wire declared (textScale outputScale)) =
        c.rows.map (StoredRow.storedWire declared (textScale outputScale))) :
      c.toWire index declared outputScale c.length =
        (c.shape.nested.accept index declared).map fun _ =>
          c.rows.map (StoredRow.wire declared (textScale outputScale)) := by
    rw [hstored, hshape, hrows]
    exact storedToWire_eq h index declared _
  cases c with
  | nullable nested nulls =>
    obtain ⟨hnested, hlength⟩ := h
    have hlength : (Column.nullable nested nulls).length = nested.length := hlength
    have hmarked : markNulls nulls
        (nested.rows.map (StoredRow.storedWire declared (textScale outputScale))) =
          (List.zipWith StoredRow.nullable nulls nested.rows).map
            (StoredRow.wire declared (textScale outputScale)) := by
      rw [markNulls_eq_zipWith, List.map_zipWith, List.zipWith_map_right]
      congr 1
      funext isNull row
      cases isNull <;> rfl
    rw [toWire, hlength, storedToWire_eq hnested]
    show _ = (nested.shape.accept index declared).map fun _ =>
      (List.zipWith StoredRow.nullable nulls nested.rows).map _
    rw [← hmarked]
    cases nested.shape.accept index declared <;> rfl
  -- the rows of the other layouts have no null flag
  | cells kind values => exact hplain rfl rfl (by simp [rows, StoredRow.wire])
  | strings c => exact hplain rfl rfl (by simp [rows, StoredRow.wire])
  | decimals c => exact hplain rfl rfl (by simp [rows, StoredRow.wire])
  | sketches c => exact hplain rfl rfl (by simp [rows, StoredRow.wire])

end Column

end ResultSet
