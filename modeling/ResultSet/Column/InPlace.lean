import ResultSet.Column.Basic

/-!
# Changing columns in place

The rows of a plain column are changed in one go once the arguments have been checked.  A
nullable column is changed in two steps, first its nested column and then its null map.
Each change here answers what it leaves of the column together with its outcome, also when a
step in the middle is refused.

No layout offers all of them: only strings and fixed decimals take fields, and only nullable
columns take nulls.
-/

namespace ResultSet

namespace Column

/-- The outcome of a change that leaves the column alone unless it is accepted. -/
def leave (c : Column) : Except ColumnError Column → Column × Except ColumnError Unit
  | .ok changed => (changed, .ok ())
  | .error e => (c, .error e)

/-- The outcome on a nullable column of a change of its nested column.  The null map is
replaced only behind an accepted change. -/
def withNested (nulls changed : List Bool) :
    Column × Except ColumnError Unit → Column × Except ColumnError Unit
  | (nested, .ok ()) => (.nullable nested changed, .ok ())
  | (nested, .error e) => (.nullable nested nulls, .error e)

/-- A range of rows of another column is put behind the rows of the column. -/
def insertRange (target source : Column) (start count : Nat) :
    Column × Except ColumnError Unit :=
  match target, source with
  | .nullable l nulls, .nullable r otherNulls =>
    match Selection.checkRange start count otherNulls.length with
    | .error e => (.nullable l nulls, .error e)
    | .ok () =>
      withNested nulls (nulls ++ (otherNulls.drop start).take count)
        (l.insertRange r start count)
  | target, source => leave target (target.appendRange source start count)

/-- One row of another column is put behind the rows of the column. -/
def insertRow (target source : Column) (index : Nat) : Column × Except ColumnError Unit :=
  match target, source with
  | .nullable l nulls, .nullable r otherNulls =>
    match Selection.checkIndex index otherNulls.length with
    | .error e => (.nullable l nulls, .error e)
    | .ok () =>
      withNested nulls (nulls ++ (otherNulls.drop index).take 1) (l.insertRange r index 1)
  | target, source => leave target (target.appendRow source index)

/-- The last `count` rows are removed. -/
def removeLast : Column → (count : Nat) → Column × Except ColumnError Unit
  | .nullable nested nulls, count =>
    withNested nulls (nulls.take (nulls.length - count)) (nested.removeLast count)
  | c, count => leave c (c.popBack count)

/-- The value of a field is put behind the rows, where the layout takes fields. -/
def insertField : Column → Field → Option (Column × Except ColumnError Unit)
  | .strings c, f => some (leave (.strings c) ((c.pushField f).map .strings))
  | .decimals c, f => some (leave (.decimals c) ((c.pushField f).map .decimals))
  | _, _ => none

/-- A null is put behind the rows, where the layout takes nulls. -/
def insertNull : Column → Option Column
  | .nullable nested nulls => some (.nullable nested.pushDefault (nulls ++ [true]))
  | _ => none

end Column

end ResultSet
