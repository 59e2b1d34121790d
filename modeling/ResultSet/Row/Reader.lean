import ResultSet.Row.LengthPrefix

/-!
# Reading rows

A row is a sequence of cells.  `decodeRow` reads all of them; `RowReader` reads
them one by one and stops for good at the first one that is ill-formed.
-/

namespace ResultSet

/-- The value of the cell at the beginning of `rest`, nothing for a null, and the
size of the cell.  `offset` is the number of bytes in front of `rest`. -/
def readCell (offset : Nat) (rest : Bytes) : Except RowError (Option Bytes × Nat) :=
  match LengthPrefix.read offset rest with
  | .error e => .error e
  | .ok none => .ok (none, 1)
  | .ok (some (length, header)) =>
    let value := (rest.drop header).take length
    if value.length = length then .ok (some value, header + length)
    else .error (.truncated (offset + rest.length))

/-- The values of the cells of `rest`, which begins at `offset`. -/
def decodeCells (offset : Nat) : Bytes → Except RowError (List (Option Bytes))
  | [] => .ok []
  | b :: rest =>
    match readCell offset (b :: rest) with
    | .error e => .error e
    | .ok (value, size) =>
      match decodeCells (offset + size) (rest.drop (size - 1)) with
      | .error e => .error e
      | .ok values => .ok (value :: values)
termination_by rest => rest.length
decreasing_by simp only [List.length_drop, List.length_cons]; omega

/-- The values of a row, nulls as nothing. -/
def decodeRow (row : Bytes) : Except RowError (List (Option Bytes)) := decodeCells 0 row

/-- A walk over the cells of a row. -/
structure RowReader where
  row : Bytes
  /-- bytes read so far -/
  offset : Nat
  failed : Bool
deriving DecidableEq

namespace RowReader

/-- A reader at the beginning of a row. -/
def start (row : Bytes) : RowReader := ⟨row, 0, false⟩

/-- The next value and the reader behind it; nothing at the end of the row and
behind an ill-formed cell. -/
def next (r : RowReader) : Option (Except RowError (Option Bytes)) × RowReader :=
  if r.failed || decide (r.row.length ≤ r.offset) then (none, r)
  else
    match readCell r.offset (r.row.drop r.offset) with
    | .ok (value, size) => (some (.ok value), { r with offset := r.offset + size })
    | .error e => (some (.error e), { r with failed := true })

end RowReader

end ResultSet
