import ResultSet.Calendar.TimeOfDay
import ResultSet.Number.LargeInt
import ResultSet.Output.Expr
import ResultSet.Row.Encoder

/-!
# Output cells

What is written for a value of each declared type.  `Datum.toWire` answers for
the value of an expression, `Column.toWire` for all rows of a column.

A column is looked at as a whole before any of its rows is written, so it has an
answer of its own; each of its rows is a `WireCell`, which may still be an error.
-/

namespace ResultSet

/-- What is written for one value, or why it cannot be written. -/
abbrev WireCell : Type := Except WriterError WireValue

namespace WireValue

/-- A large integer is written as text. -/
def ofLargeInt (v : Signed 128) : WireValue := .bytes (LargeInt.bytes v)

/-- A number of seconds is written as a time of day. -/
def ofTime (v : Binary64) : WireValue := .bytes (TimeOfDay.text v).utf8

/-- A decimal is written with the fractional digits asked for. -/
def ofDecimal (scale : Option Nat) (v : WideDecimal) : WireValue := .bytes (v.text scale).utf8

/-- A decimal in billionths is written with the fractional digits asked for. -/
def ofBillionths (scale : Option Nat) (v : Billionths) : WireValue := .bytes (v.text scale).utf8

/-- A string without storage is the empty string when it claims no length, and
null otherwise. -/
def ofString (v : StringValue) : WireValue :=
  match v with
  | .stored content => .bytes content
  | .detached 0 => .bytes []
  | .detached (_ + 1) => .null

end WireValue

/-- A moment is written as its text, which it has only with a date. -/
def WireCell.ofMoment (v : Moment) : WireCell :=
  match v.bytes with
  | some bytes => .ok (.bytes bytes)
  | none => .error (.undated v.day.val)

/-- What is written for a value of a declared type and output scale.  Sketches and
objects have no text and are written as null. -/
def Datum.toWire (declared : SqlType) (outputScale : Int) (datum : Datum) : WireCell :=
  match declared, datum with
  | .boolean, .boolean v => .ok (.tinyInt (if v then ⟨1, by decide, by decide⟩ else .zero 8))
  | .boolean, .tinyInt v | .tinyInt, .tinyInt v => .ok (.tinyInt v)
  | .smallInt, .smallInt v => .ok (.smallInt v)
  | .int, .int v => .ok (.int v)
  | .bigInt, .bigInt v => .ok (.bigInt v)
  | .largeInt, .largeInt v => .ok (.ofLargeInt v)
  | .float, .float v => .ok (.float v)
  | .double, .double v => .ok (.double v)
  | .time, .time v => .ok (.ofTime v)
  | .date, .moment v | .dateTime, .moment v => .ofMoment v
  | .hll, _ | .object, _ => .ok .null
  | .decimal, .decimal v => .ok (.ofDecimal (textScale outputScale) v)
  | .decimalV2, .decimalV2 v => .ok (.ofBillionths (textScale outputScale) v)
  | .char, .string v | .varchar, .string v | .string, .string v => .ok (.ofString v)
  | .null, _ | .binary, _ | .array, _ => .error (.unsupportedType declared)
  | _, _ => .error (.datumType declared datum.kindName)

namespace Column

/-- Rows of a kind that can always be written. -/
def written {α : Type} (wire : α → WireValue) (values : List α) : List WireCell :=
  values.map fun v => .ok (wire v)

/-- What is written for the rows of a column without nulls.  Sketches and objects
have no text: each of the `rows` rows is null, whatever the column holds. -/
def storedToWire (index : Nat) (declared : SqlType) (scale : Option Nat) (rows : Nat)
    (column : Column) : Except WriterError (List WireCell) :=
  match declared, column with
  | .boolean, .cells .int8 values | .tinyInt, .cells .int8 values =>
    .ok (written .tinyInt values)
  | .smallInt, .cells .int16 values => .ok (written .smallInt values)
  | .int, .cells .int32 values => .ok (written .int values)
  | .bigInt, .cells .int64 values => .ok (written .bigInt values)
  | .largeInt, .cells .int128 values => .ok (written .ofLargeInt values)
  | .float, .cells .float32 values => .ok (written .float values)
  | .double, .cells .float64 values => .ok (written .double values)
  | .time, .cells .float64 values => .ok (written .ofTime values)
  | .date, .cells .moment values | .dateTime, .cells .moment values =>
    .ok (values.map .ofMoment)
  | .char, .strings c | .varchar, .strings c | .string, .strings c =>
    .ok (written .bytes c.toList)
  | .decimal, .cells .decimal values => .ok (written (.ofDecimal scale) values)
  | .decimalV2, .decimals c =>
    if c.scale.val = billionthsScale then
      .ok (written (fun raw => .ofBillionths scale ⟨raw⟩) c.rows)
    else .error (.columnScale index c.scale.val billionthsScale)
  | .hll, _ | .object, _ => .ok (List.replicate rows (.ok .null))
  | .null, _ | .binary, _ | .array, _ => .error (.unsupportedType declared)
  | _, _ => .error (.columnType index declared column.kindName)

/-- The cells with a null at every row that is marked in the null map. -/
def markNulls : (nulls : List Bool) → List WireCell → List WireCell
  | true :: nulls, _ :: rest => .ok .null :: markNulls nulls rest
  | false :: nulls, cell :: rest => cell :: markNulls nulls rest
  | _, _ => []

/-- What is written for the rows of a column.  Nulls are looked for on the
outermost level only. -/
def toWire (index : Nat) (declared : SqlType) (outputScale : Int) (rows : Nat) :
    Column → Except WriterError (List WireCell)
  | .nullable nested nulls =>
    (nested.storedToWire index declared (textScale outputScale) rows).map (markNulls nulls)
  | column => column.storedToWire index declared (textScale outputScale) rows

end Column

end ResultSet
