import ResultSet.Column.Selection
import ResultSet.Field.Compare

/-!
# Columns of byte strings

The values of a `StringColumn` lie one behind the other in `chars`, each followed
by a zero byte.  `offsets` holds the end of each value, its zero byte included,
so a value spans from the end of its predecessor to its own.

* `StringColumn.Packed` states the layout.
* `StringColumn.get?` reads one value through the offsets,
  `StringColumn.toList` walks over all of them.
* Ranges and runs of rows are copied as one piece of `chars`, with the offsets
  moved to their new place.
-/

namespace ResultSet

/-- A column of byte strings. -/
structure StringColumn where
  offsets : List Nat
  chars : Bytes
deriving DecidableEq

namespace StringColumn

/-- A column without rows. -/
def empty : StringColumn := ⟨[], []⟩

/-- The number of rows. -/
def length (c : StringColumn) : Nat := c.offsets.length

/-- Where row `index` begins: the end of the row before it. -/
def startOf (c : StringColumn) (index : Nat) : Nat :=
  if index = 0 then 0 else c.offsets.getD (index - 1) 0

/-- The bytes from `start` to before `stop`. -/
def slice (c : StringColumn) (start stop : Nat) : Bytes := (c.chars.drop start).take (stop - start)

/-- The offsets increase from one value to the next, the last one is the end of
`chars`, and a zero byte stands in front of each. -/
structure Packed (c : StringColumn) : Prop where
  increasing : (0 :: c.offsets).Pairwise (· < ·)
  ends : (0 :: c.offsets).getLast? = some c.chars.length
  terminated : ∀ o ∈ c.offsets, c.chars[o - 1]? = some 0

/-! ## Reading -/

/-- The stored bytes of a row, its zero byte included. -/
def raw? (c : StringColumn) (index : Nat) : Option Bytes :=
  c.offsets[index]?.map fun stop => c.slice (c.startOf index) stop

/-- The value of a row. -/
def get? (c : StringColumn) (index : Nat) : Option Bytes :=
  c.offsets[index]?.map fun stop => c.slice (c.startOf index) (stop - 1)

/-- The pieces of `chars` that end at the offsets, the first beginning at
`start`. -/
def pieces : (start : Nat) → (offsets : List Nat) → Bytes → List Bytes
  | _, [], _ => []
  | start, stop :: offsets, chars =>
    chars.take (stop - start) :: pieces stop offsets (chars.drop (stop - start))

/-- The values in order. -/
def toList (c : StringColumn) : List Bytes :=
  (pieces 0 c.offsets c.chars).map List.dropLast

/-- A row as a field. -/
def fieldAt (c : StringColumn) (index : Nat) : Option Field := (c.get? index).map .string

/-- Bytes held by the column: the values with their zero bytes, and eight for each
offset. -/
def byteSize (c : StringColumn) : Nat := c.chars.length + c.offsets.length * 8

/-- The order of a row of one column and a row of another, where both exist. -/
def compareAt (c : StringColumn) (row : Nat) (other : StringColumn) (otherRow : Nat) :
    Option Ordering :=
  match c.get? row, other.get? otherRow with
  | some left, some right => some (compareBytes left right)
  | _, _ => none

/-! ## Appending -/

/-- The ends of pieces laid out one behind the other from `start` on. -/
def endsFrom : (start : Nat) → List Bytes → List Nat
  | _, [] => []
  | start, piece :: pieces => (start + piece.length) :: endsFrom (start + piece.length) pieces

/-- The column with stored rows behind its own. -/
def appendRaw (c : StringColumn) (rows : List Bytes) : StringColumn :=
  ⟨c.offsets ++ endsFrom c.chars.length rows, c.chars ++ rows.flatten⟩

/-- How a value is stored. -/
def terminated (value : Bytes) : Bytes := value ++ [0]

/-- The column with values behind its own. -/
def extend (c : StringColumn) (values : List Bytes) : StringColumn :=
  c.appendRaw (values.map terminated)

/-- The column of these values. -/
def ofList (values : List Bytes) : StringColumn := empty.extend values

/-- The column with one more value. -/
def push (c : StringColumn) (value : Bytes) : StringColumn := c.extend [value]

/-- The column with one more empty value. -/
def pushDefault (c : StringColumn) : StringColumn := c.push []

/-- The column with the value of a string field. -/
def pushField (c : StringColumn) (f : Field) : Except ColumnError StringColumn :=
  match f.get .string with
  | .ok value => .ok (c.push value)
  | .error e => .error (.field e)

/-- The column with the rows of `source` from `start` to before `stop` behind its
own.  Their bytes are copied as one piece, and the offsets moved along. -/
def appendSpan (c source : StringColumn) (start stop : Nat) : StringColumn :=
  if stop ≤ start then c
  else
    let first := source.startOf start
    let last := source.startOf stop
    let base := c.chars.length
    ⟨c.offsets ++ ((source.offsets.drop start).take (stop - start)).map (· - first + base),
      c.chars ++ source.slice first last⟩

/-- The column with a range of rows behind its own. -/
def appendRange (c source : StringColumn) (start length : Nat) :
    Except ColumnError StringColumn := do
  Selection.checkRange start length source.length
  return c.appendSpan source start (start + length)

/-- The column with one row of another behind its own. -/
def appendRow (c source : StringColumn) (index : Nat) : Except ColumnError StringColumn := do
  Selection.checkIndex index source.length
  return c.appendRaw (source.raw? index).toList

/-! ## Selecting and cutting -/

/-- The first `size` rows. -/
def truncate (c : StringColumn) (size : Nat) : StringColumn :=
  ⟨c.offsets.take size, c.chars.take (c.startOf size)⟩

/-- The column without its last `count` rows. -/
def popBack (c : StringColumn) (count : Nat) : Except ColumnError StringColumn := do
  Selection.checkPop count c.length
  return c.truncate (c.length - count)

/-- The first `size` rows, padded with empty values. -/
def resized (c : StringColumn) (size : Nat) : StringColumn :=
  if size ≤ c.length then c.truncate size
  else c.extend (List.replicate (size - c.length) [])

/-- The runs of set entries, each from its first position to behind its last.
`row` is the position of the first entry, `start` that of an open run. -/
def runs : (row : Nat) → (start : Option Nat) → List Bool → List (Nat × Nat)
  | _, none, [] => []
  | row, some start, [] => [(start, row)]
  | row, none, true :: mask => runs (row + 1) (some row) mask
  | row, none, false :: mask => runs (row + 1) none mask
  | row, some start, true :: mask => runs (row + 1) (some start) mask
  | row, some start, false :: mask => (start, row) :: runs (row + 1) none mask

/-- The rows kept by a mask; neighbours are copied together.  The hint only makes room
ahead. -/
def filter (c : StringColumn) (mask : List Bool) (_hint : Nat := 0) :
    Except ColumnError StringColumn := do
  Selection.checkFilter mask c.length
  return (runs 0 none mask).foldl (fun kept run => kept.appendSpan c run.1 run.2) empty

/-- The rows that a permutation picks. -/
def permute (c : StringColumn) (perm : List Nat) (limit : Nat) :
    Except ColumnError StringColumn := do
  let required ← Selection.checkPermutation perm limit c.length
  return empty.appendRaw ((perm.take required).filterMap c.raw?)

/-- The rows repeated by counts. -/
def replicate (c : StringColumn) (counts : List Nat) : Except ColumnError StringColumn := do
  Selection.checkReplicate counts c.length
  return empty.appendRaw (Selection.repeatRows counts (pieces 0 c.offsets c.chars))

end StringColumn

end ResultSet
