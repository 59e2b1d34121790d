import ResultSet.Column.Basic
import ResultSet.SqlType

/-!
# Blocks

A block is a list of named columns.  Columns enter it through `Block.insert`,
which refuses one whose number of rows differs from the block's.
-/

namespace ResultSet

/-- A column with its name and declared type. -/
structure NamedColumn where
  name : Text
  type : ColumnType
  column : Column

/-- Columns of one length. -/
structure Block where
  columns : List NamedColumn

namespace Block

/-- A block without columns. -/
def empty : Block := ⟨[]⟩

/-- The number of rows, zero without columns. -/
def rows (b : Block) : Nat :=
  match b.columns with
  | [] => 0
  | c :: _ => c.column.length

/-- The number of columns. -/
def width (b : Block) : Nat := b.columns.length

/-- Every column has as many rows as the block. -/
def Rectangular (b : Block) : Prop := ∀ c ∈ b.columns, c.column.length = b.rows

/-- The block with one more column.  The first column may have any length. -/
def insert (b : Block) (c : NamedColumn) : Except ColumnError Block :=
  if b.columns.isEmpty || c.column.length == b.rows then .ok ⟨b.columns ++ [c]⟩
  else .error (.rowCount c.name b.rows c.column.length)

/-- The block of some columns. -/
def ofColumns (columns : List NamedColumn) : Except ColumnError Block :=
  columns.foldlM insert empty

/-- The column at a position. -/
def column? (b : Block) (position : Nat) : Option NamedColumn := b.columns[position]?

/-- The first column with a name. -/
def find? (b : Block) (name : Text) : Option NamedColumn :=
  b.columns.find? fun c => c.name == name

/-- The same rows of every column. -/
def filter (b : Block) (mask : List Bool) (hint : Nat := 0) : Except ColumnError Block := do
  let columns ← b.columns.mapM fun c => do
    return { c with column := ← c.column.filter mask hint }
  return ⟨columns⟩

/-- Two lists of columns agree in names, types and rows. -/
def sameColumns : List NamedColumn → List NamedColumn → Bool
  | [], [] => true
  | l :: ls, r :: rs =>
    l.name == r.name && decide (l.type = r.type) && l.column.sameRows r.column &&
      sameColumns ls rs
  | _, _ => false

/-- Two blocks agree in names, types and rows. -/
def sameRows (l r : Block) : Bool := sameColumns l.columns r.columns

end Block

end ResultSet
