import ResultSet.Column.Selection
import ResultSet.Field.Basic

/-!
# Columns of fixed-width decimals

The rows of a `DecimalColumn` are words that share one scale.  Rows move from one
column to another as words: their own scale is not looked at.
-/

namespace ResultSet

/-- A column of decimals with one scale. -/
structure DecimalColumn (w : DecimalWidth) where
  rows : List (Signed w.bits)
  scale : Unsigned 32
deriving DecidableEq

namespace DecimalColumn

variable {w : DecimalWidth}

/-- A column without rows. -/
def empty (scale : Unsigned 32) : DecimalColumn w := ⟨[], scale⟩

/-- The number of rows. -/
def length (c : DecimalColumn w) : Nat := c.rows.length

/-- The column with one more word. -/
def push (c : DecimalColumn w) (value : Signed w.bits) : DecimalColumn w :=
  ⟨c.rows ++ [value], c.scale⟩

/-- The column with one more zero. -/
def pushDefault (c : DecimalColumn w) : DecimalColumn w := c.push (Signed.zero w.bits)

/-- The column with the word of a decimal field of the same width. -/
def pushField (c : DecimalColumn w) (f : Field) : Except ColumnError (DecimalColumn w) :=
  match f.get (.decimal w) with
  | .ok d => .ok (c.push (FixedDecimal.value d))
  | .error e => .error (.field e)

/-- A row as a field. -/
def fieldAt (c : DecimalColumn w) (index : Nat) : Option Field :=
  c.rows[index]?.map fun value => .decimal w ⟨value, c.scale⟩

/-- The column with other rows. -/
def withRows (c : DecimalColumn w) (rows : Except ColumnError (List (Signed w.bits))) :
    Except ColumnError (DecimalColumn w) :=
  rows.map fun rows => ⟨rows, c.scale⟩

/-- The column with a range of rows behind its own. -/
def appendRange (c source : DecimalColumn w) (start length : Nat) :
    Except ColumnError (DecimalColumn w) :=
  c.withRows (Selection.appendRange c.rows source.rows start length)

/-- The column with one row of another behind its own. -/
def appendRow (c source : DecimalColumn w) (index : Nat) : Except ColumnError (DecimalColumn w) :=
  c.withRows (Selection.appendRow c.rows source.rows index)

/-- The column without its last `count` rows. -/
def popBack (c : DecimalColumn w) (count : Nat) : Except ColumnError (DecimalColumn w) :=
  c.withRows (Selection.dropLast c.rows count)

/-- The rows kept by a mask. -/
def filter (c : DecimalColumn w) (mask : List Bool) (hint : Nat := 0) :
    Except ColumnError (DecimalColumn w) :=
  c.withRows (Selection.filter mask c.rows hint)

/-- The rows that a permutation picks. -/
def permute (c : DecimalColumn w) (perm : List Nat) (limit : Nat) :
    Except ColumnError (DecimalColumn w) :=
  c.withRows (Selection.permute perm limit c.rows)

/-- The rows repeated by counts. -/
def replicate (c : DecimalColumn w) (counts : List Nat) : Except ColumnError (DecimalColumn w) :=
  c.withRows (Selection.replicate counts c.rows)

/-- Bytes held by the rows. -/
def byteSize (c : DecimalColumn w) : Nat := c.rows.length * (w.bits / 8)

end DecimalColumn

end ResultSet
