import ResultSet.Column.Basic

/-!
# Layouts

What every layout of a column offers, whatever its rows look like.
-/

namespace ResultSet

/-- A kind of column. -/
class Layout (C : Type) where
  length : C → Nat
  /-- a row as a field -/
  fieldAt : C → Nat → Option Field
  byteSize : C → Nat
  /-- equality row by row -/
  sameRows : C → C → Bool
  pushDefault : C → C
  appendRow : (target source : C) → (index : Nat) → Except ColumnError C
  appendRange : (target source : C) → (start count : Nat) → Except ColumnError C
  popBack : C → (count : Nat) → Except ColumnError C
  filter : C → List Bool → (hint : Nat := 0) → Except ColumnError C
  permute : C → List Nat → (limit : Nat) → Except ColumnError C
  replicate : C → List Nat → Except ColumnError C

instance : Layout StringColumn where
  length := StringColumn.length
  fieldAt := StringColumn.fieldAt
  byteSize := StringColumn.byteSize
  sameRows l r := l == r
  pushDefault := StringColumn.pushDefault
  appendRow := StringColumn.appendRow
  appendRange := StringColumn.appendRange
  popBack := StringColumn.popBack
  filter c mask hint := StringColumn.filter c mask hint
  permute := StringColumn.permute
  replicate := StringColumn.replicate

instance {w : DecimalWidth} : Layout (DecimalColumn w) where
  length := DecimalColumn.length
  fieldAt := DecimalColumn.fieldAt
  byteSize := DecimalColumn.byteSize
  sameRows l r := l == r
  pushDefault := DecimalColumn.pushDefault
  appendRow := DecimalColumn.appendRow
  appendRange := DecimalColumn.appendRange
  popBack := DecimalColumn.popBack
  filter c mask hint := DecimalColumn.filter c mask hint
  permute := DecimalColumn.permute
  replicate := DecimalColumn.replicate

instance : Layout SketchColumn where
  length := SketchColumn.length
  fieldAt := SketchColumn.fieldAt
  byteSize := SketchColumn.byteSize
  sameRows l r := l == r
  pushDefault := SketchColumn.pushDefault
  appendRow := SketchColumn.appendRow
  appendRange := SketchColumn.appendRange
  popBack := SketchColumn.popBack
  filter c mask hint := SketchColumn.filter c mask hint
  permute := SketchColumn.permute
  replicate := SketchColumn.replicate

instance : Layout Column where
  length := Column.length
  fieldAt := Column.fieldAt
  byteSize := Column.byteSize
  sameRows := Column.sameRows
  pushDefault := Column.pushDefault
  appendRow := Column.appendRow
  appendRange := Column.appendRange
  popBack := Column.popBack
  filter c mask hint := Column.filter c mask hint
  permute := Column.permute
  replicate := Column.replicate

end ResultSet
