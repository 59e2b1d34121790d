import ResultSet.Column.Block
import ResultSet.Output.Datum
import ResultSet.Output.Error

/-!
# Output expressions

An output column is computed by an expression of a declared type.  On the tuple
path it finds a value in a row, on the columnar path it names a column of the
block and may add one to it.
-/

namespace ResultSet

/-- The output scale of an expression that does not declare one. -/
def unsetScale : Int := -1

/-- An expression over rows. -/
structure RowExpr where
  type : SqlType
  /-- the declared number of fractional digits -/
  scale : Int
  value : TupleRow → Option Datum

/-- The value in a slot. -/
def RowExpr.slot (slot : Nat) (type : SqlType) (scale : Int) : RowExpr :=
  ⟨type, scale, fun row => row.get? slot⟩

/-- An expression over blocks. -/
structure ColumnExpr where
  type : SqlType
  /-- the declared number of fractional digits -/
  scale : Int
  /-- the block with the column of the expression in it, and its position -/
  execute : Block → Block × Except WriterError Nat

namespace ColumnExpr

/-- The column at a position. -/
def column (position : Nat) (type : SqlType) (scale : Int) : ColumnExpr :=
  ⟨type, scale, fun block =>
    if position < block.width then (block, .ok position)
    else (block, .error (.missingColumn position block.width))⟩

/-- The column at a position, which is not looked at. -/
def unchecked (position : Nat) (type : SqlType) (scale : Int) : ColumnExpr :=
  ⟨type, scale, fun block => (block, .ok position)⟩

/-- A column that is added to the block. -/
def append (column : NamedColumn) (type : SqlType) (scale : Int) : ColumnExpr :=
  ⟨type, scale, fun block =>
    match block.insert column with
    | .ok extended => (extended, .ok block.width)
    | .error e => (block, .error (.column e))⟩

/-- Executes expressions in order and gathers the positions of their columns. -/
def executeAll : List ColumnExpr → Block → Block × Except WriterError (List Nat)
  | [], block => (block, .ok [])
  | expr :: exprs, block =>
    match expr.execute block with
    | (block, .error e) => (block, .error e)
    | (block, .ok position) =>
      match executeAll exprs block with
      | (block, .error e) => (block, .error e)
      | (block, .ok positions) => (block, .ok (position :: positions))

end ColumnExpr

/-- The output columns of a result. -/
inductive OutputExprs where
  | rows (exprs : List RowExpr)
  | columns (exprs : List ColumnExpr)

namespace OutputExprs

/-- The number of output columns. -/
def length : OutputExprs → Nat
  | .rows exprs => exprs.length
  | .columns exprs => exprs.length

/-- The expressions are over blocks. -/
def isVectorized : OutputExprs → Bool
  | .rows _ => false
  | .columns _ => true

end OutputExprs

end ResultSet
