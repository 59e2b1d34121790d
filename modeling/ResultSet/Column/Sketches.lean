import ResultSet.Column.Selection
import ResultSet.Field.Basic

/-!
# Columns of aggregate states

The rows of a `SketchColumn` are serialized objects that are never looked into,
such as sketches and bitmaps.  They share the function that made them; rows from
another column are taken as they are.
-/

namespace ResultSet

/-- A column of the states of one aggregate function. -/
structure SketchColumn where
  function : Text
  rows : List Bytes
deriving DecidableEq

namespace SketchColumn

/-- A column without rows. -/
def empty (function : Text) : SketchColumn := ⟨function, []⟩

/-- The number of rows. -/
def length (c : SketchColumn) : Nat := c.rows.length

/-- The column with one more object. -/
def push (c : SketchColumn) (value : Bytes) : SketchColumn := ⟨c.function, c.rows ++ [value]⟩

/-- The column with one more empty object. -/
def pushDefault (c : SketchColumn) : SketchColumn := c.push []

/-- A row as a field. -/
def fieldAt (c : SketchColumn) (index : Nat) : Option Field :=
  c.rows[index]?.map fun data => .aggregateState ⟨c.function, data⟩

/-- The column with other rows. -/
def withRows (c : SketchColumn) (rows : Except ColumnError (List Bytes)) :
    Except ColumnError SketchColumn :=
  rows.map fun rows => ⟨c.function, rows⟩

/-- The column with a range of rows behind its own. -/
def appendRange (c source : SketchColumn) (start length : Nat) :
    Except ColumnError SketchColumn :=
  c.withRows (Selection.appendRange c.rows source.rows start length)

/-- The column with one row of another behind its own. -/
def appendRow (c source : SketchColumn) (index : Nat) : Except ColumnError SketchColumn :=
  c.withRows (Selection.appendRow c.rows source.rows index)

/-- The column without its last `count` rows. -/
def popBack (c : SketchColumn) (count : Nat) : Except ColumnError SketchColumn :=
  c.withRows (Selection.dropLast c.rows count)

/-- The rows kept by a mask. -/
def filter (c : SketchColumn) (mask : List Bool) (hint : Nat := 0) :
    Except ColumnError SketchColumn :=
  c.withRows (Selection.filter mask c.rows hint)

/-- The rows that a permutation picks. -/
def permute (c : SketchColumn) (perm : List Nat) (limit : Nat) :
    Except ColumnError SketchColumn :=
  c.withRows (Selection.permute perm limit c.rows)

/-- The rows repeated by counts. -/
def replicate (c : SketchColumn) (counts : List Nat) : Except ColumnError SketchColumn :=
  c.withRows (Selection.replicate counts c.rows)

/-- Bytes held by the rows. -/
def byteSize (c : SketchColumn) : Nat := c.rows.flatten.length

end SketchColumn

end ResultSet
