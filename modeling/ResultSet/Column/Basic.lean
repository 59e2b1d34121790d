import ResultSet.Column.Decimals
import ResultSet.Column.Sketches
import ResultSet.Column.Strings

/-!
# Columns

`Column` is a column of any storage layout.  A nullable column pairs a nested
column with a null map; the nested column keeps a placeholder at every null row.

Every operation works layout by layout, and on a nullable column on the nested
column and the null map alike.  `Column.WellFormed` says that the two have the
same length on every level.
-/

namespace ResultSet

/-- The layouts whose rows are stored value by value. -/
inductive CellKind where
  | int8
  | int16
  | int32
  | int64
  | int128
  | float32
  /-- also holds times of day, as seconds -/
  | float64
  | moment
  | decimal
deriving DecidableEq

namespace CellKind

/-- A value of the layout. -/
def Cell : CellKind → Type
  | .int8 => Signed 8
  | .int16 => Signed 16
  | .int32 => Signed 32
  | .int64 => Signed 64
  | .int128 => Signed 128
  | .float32 => Binary32
  | .float64 => Binary64
  | .moment => Moment
  | .decimal => WideDecimal

/-- The value that new rows have. -/
def default : (kind : CellKind) → kind.Cell
  | .int8 => Signed.zero 8
  | .int16 => Signed.zero 16
  | .int32 => Signed.zero 32
  | .int64 => Signed.zero 64
  | .int128 => Signed.zero 128
  | .float32 => Floating.zero .single
  | .float64 => Floating.zero .double
  | .moment => Moment.epoch
  | .decimal => WideDecimal.zero

/-- The value as a field, nothing for a moment without a timestamp. -/
def toField : (kind : CellKind) → kind.Cell → Option Field
  | .int8, v => some (Field.ofSigned (by decide) v)
  | .int16, v => some (Field.ofSigned (by decide) v)
  | .int32, v => some (Field.ofSigned (by decide) v)
  | .int64, v => some (.int64 v)
  | .int128, v => some (.int128 v)
  | .float32, v => some (Field.ofSingle v)
  | .float64, v => some (.float64 v)
  | .moment, v => Field.ofMoment v
  | .decimal, v => some (Field.ofWideDecimal v)

/-- Two values are the same number or moment. -/
def sameValue : (kind : CellKind) → kind.Cell → kind.Cell → Bool
  | .int8, l, r => decide (Signed.val l = Signed.val r)
  | .int16, l, r => decide (Signed.val l = Signed.val r)
  | .int32, l, r => decide (Signed.val l = Signed.val r)
  | .int64, l, r => decide (Signed.val l = Signed.val r)
  | .int128, l, r => decide (Signed.val l = Signed.val r)
  | .float32, l, r => Floating.numericEq l r
  | .float64, l, r => Floating.numericEq l r
  | .moment, l, r => Moment.compare l r == .eq
  | .decimal, l, r => WideDecimal.sameValue l r

/-- Two lists of values agree row by row. -/
def sameRows (kind : CellKind) : List kind.Cell → List kind.Cell → Bool
  | [], [] => true
  | l :: ls, r :: rs => kind.sameValue l r && sameRows kind ls rs
  | _, _ => false

/-- Bytes of a stored value. -/
def byteSize : CellKind → Nat
  | .int8 => 1
  | .int16 => 2
  | .int32 => 4
  | .int64 => 8
  | .int128 => 16
  | .float32 => 4
  | .float64 => 8
  | .moment => 16
  | .decimal => 40

/-- The name of the layout in reports. -/
def name : CellKind → String
  | .int8 => "Int8"
  | .int16 => "Int16"
  | .int32 => "Int32"
  | .int64 => "Int64"
  | .int128 => "Int128"
  | .float32 => "Float32"
  | .float64 => "Float64"
  | .moment => "DateTime"
  | .decimal => "Decimal"

end CellKind

/-- A column of any layout. -/
inductive Column where
  | cells (kind : CellKind) (rows : List kind.Cell)
  | strings (c : StringColumn)
  | decimals (c : DecimalColumn .w128)
  | sketches (c : SketchColumn)
  | nullable (nested : Column) (nulls : List Bool)

namespace Column

/-- The number of rows. -/
def length : Column → Nat
  | .cells _ rows => rows.length
  | .strings c => c.length
  | .decimals c => c.length
  | .sketches c => c.length
  | .nullable _ nulls => nulls.length

/-- On every level of nesting, the null map has one entry per row, and the strings
are packed. -/
def WellFormed : Column → Prop
  | .cells _ _ | .decimals _ | .sketches _ => True
  | .strings c => c.Packed
  | .nullable nested nulls => nested.WellFormed ∧ nulls.length = nested.length

/-- The name of the layout in reports. -/
def kindName : Column → String
  | .cells kind _ => kind.name
  | .strings _ => "String"
  | .decimals _ => "Decimal128"
  | .sketches _ => "Opaque"
  | .nullable _ _ => "Nullable"

/-- The column has a null map. -/
def isNullable : Column → Bool
  | .nullable _ _ => true
  | _ => false

/-- The column with the values: the nested column of a nullable one, otherwise
the column itself. -/
def nested : Column → Column
  | .nullable nested _ => nested
  | c => c

/-- The null map, empty without one. -/
def nullMap : Column → List Bool
  | .nullable _ nulls => nulls
  | _ => []

/-- The number of null rows. -/
def nullCount (c : Column) : Nat := c.nullMap.countP id

/-- A row of a nullable column is null; nothing for a row that does not exist. -/
def isNullAt? (c : Column) (index : Nat) : Option Bool := c.nullMap[index]?

/-- A row as a field, nothing for a row that does not exist or is no field. -/
def fieldAt : Column → Nat → Option Field
  | .cells kind rows, index => rows[index]?.bind kind.toField
  | .strings c, index => c.fieldAt index
  | .decimals c, index => c.fieldAt index
  | .sketches c, index => c.fieldAt index
  | .nullable nested nulls, index =>
    match nulls[index]? with
    | none => none
    | some true => some .null
    | some false => nested.fieldAt index

/-- Bytes held by the column. -/
def byteSize : Column → Nat
  | .cells kind rows => rows.length * kind.byteSize
  | .strings c => c.byteSize
  | .decimals c => c.byteSize
  | .sketches c => c.byteSize
  | .nullable nested nulls => nested.byteSize + nulls.length

/-- Two columns have the same layout and agree row by row, placeholders included.
A NaN differs from itself. -/
def sameRows : Column → Column → Bool
  | .cells kind rows, .cells other otherRows =>
    if h : other = kind then kind.sameRows rows (h ▸ otherRows) else false
  | .strings l, .strings r => l == r
  | .decimals l, .decimals r => l == r
  | .sketches l, .sketches r => l == r
  | .nullable l nulls, .nullable r otherNulls => l.sameRows r && nulls == otherNulls
  | _, _ => false

/-! ## Making nullable columns -/

/-- The column with a null map of the right length. -/
def withNulls (nested : Column) (nulls : List Bool) : Except ColumnError Column :=
  if nested.length = nulls.length then .ok (.nullable nested nulls)
  else .error (.nullMapSize nulls.length nested.length)

/-- The column with a null map in which no row is null. -/
def allPresent (nested : Column) : Column :=
  .nullable nested (List.replicate nested.length false)

/-! ## Appending and removing rows -/

/-- The column with one more row: null in a nullable column, otherwise the value
that new rows have. -/
def pushDefault : Column → Column
  | .cells kind rows => .cells kind (rows ++ [kind.default])
  | .strings c => .strings c.pushDefault
  | .decimals c => .decimals c.pushDefault
  | .sketches c => .sketches c.pushDefault
  | .nullable nested nulls => .nullable nested.pushDefault (nulls ++ [true])

/-- The column with a range of rows of another behind its own.  Both need the same
layout. -/
def appendRange (target source : Column) (start count : Nat) : Except ColumnError Column :=
  match target, source with
  | .cells kind rows, .cells other otherRows =>
    if h : other = kind then do
      return .cells kind (← Selection.appendRange rows (h ▸ otherRows) start count)
    else .error (.kindMismatch other.name kind.name)
  | .strings l, .strings r => do return .strings (← l.appendRange r start count)
  | .decimals l, .decimals r => do return .decimals (← l.appendRange r start count)
  | .sketches l, .sketches r => do return .sketches (← l.appendRange r start count)
  | .nullable l nulls, .nullable r otherNulls => do
    Selection.checkRange start count otherNulls.length
    let nested ← l.appendRange r start count
    return .nullable nested (nulls ++ (otherNulls.drop start).take count)
  | l, r => .error (.kindMismatch r.kindName l.kindName)

/-- The column with one row of another behind its own.  Both need the same
layout. -/
def appendRow (target source : Column) (index : Nat) : Except ColumnError Column :=
  match target, source with
  | .cells kind rows, .cells other otherRows =>
    if h : other = kind then do
      return .cells kind (← Selection.appendRow rows (h ▸ otherRows) index)
    else .error (.kindMismatch other.name kind.name)
  | .strings l, .strings r => do return .strings (← l.appendRow r index)
  | .decimals l, .decimals r => do return .decimals (← l.appendRow r index)
  | .sketches l, .sketches r => do return .sketches (← l.appendRow r index)
  | .nullable l nulls, .nullable r otherNulls => do
    Selection.checkIndex index otherNulls.length
    let nested ← l.appendRange r index 1
    return .nullable nested (nulls ++ (otherNulls.drop index).take 1)
  | l, r => .error (.kindMismatch r.kindName l.kindName)

/-- The column without its last `count` rows. -/
def popBack : Column → Nat → Except ColumnError Column
  | .cells kind rows, count => do return .cells kind (← Selection.dropLast rows count)
  | .strings c, count => do return .strings (← c.popBack count)
  | .decimals c, count => do return .decimals (← c.popBack count)
  | .sketches c, count => do return .sketches (← c.popBack count)
  | .nullable nested nulls, count => do
    let nested ← nested.popBack count
    return .nullable nested (nulls.take (nulls.length - count))

/-! ## Selecting rows -/

/-- The rows kept by a mask. -/
def filter (c : Column) (mask : List Bool) (hint : Nat := 0) : Except ColumnError Column :=
  match c with
  | .cells kind rows => do return .cells kind (← Selection.filter mask rows hint)
  | .strings c => do return .strings (← c.filter mask hint)
  | .decimals c => do return .decimals (← c.filter mask hint)
  | .sketches c => do return .sketches (← c.filter mask hint)
  | .nullable nested nulls => do
    Selection.checkFilter mask nulls.length
    let nested ← nested.filter mask hint
    return .nullable nested (Selection.keepRows mask nulls)

/-- The rows that a permutation picks.  A nullable column works out how many rows are
asked for and hands that number down. -/
def permute : Column → List Nat → (limit : Nat) → Except ColumnError Column
  | .cells kind rows, perm, limit => do
    return .cells kind (← Selection.permute perm limit rows)
  | .strings c, perm, limit => do return .strings (← c.permute perm limit)
  | .decimals c, perm, limit => do return .decimals (← c.permute perm limit)
  | .sketches c, perm, limit => do return .sketches (← c.permute perm limit)
  | .nullable nested nulls, perm, limit => do
    let required ← Selection.checkPermutation perm limit nulls.length
    let nested ← nested.permute perm required
    return .nullable nested (Selection.gatherRows (perm.take required) nulls)

/-- The rows repeated by counts. -/
def replicate : Column → List Nat → Except ColumnError Column
  | .cells kind rows, counts => do return .cells kind (← Selection.replicate counts rows)
  | .strings c, counts => do return .strings (← c.replicate counts)
  | .decimals c, counts => do return .decimals (← c.replicate counts)
  | .sketches c, counts => do return .sketches (← c.replicate counts)
  | .nullable nested nulls, counts => do
    Selection.checkReplicate counts nulls.length
    let nested ← nested.replicate counts
    return .nullable nested (Selection.repeatRows counts nulls)

end Column

end ResultSet
