import ResultSet.Column.Error

/-!
# Row selections

Three ways to select rows: a mask keeps some, a permutation picks them by
number, and counts repeat them.  This module checks the arguments of a selection
and applies it to a list of rows.
-/

namespace ResultSet

namespace Selection

/-! ## Checks -/

/-- A mask has one entry per row. -/
def checkFilter (mask : List Bool) (size : Nat) : Except ColumnError Unit :=
  if mask.length = size then .ok () else .error (.filterSize mask.length size)

/-- The number of rows that a permutation is asked for.  A limit of zero means
the whole column. -/
def permutationSize (limit size : Nat) : Nat := if limit = 0 then size else min limit size

/-- The number of rows of a permutation that is long enough and stays within the
column. -/
def checkPermutation (perm : List Nat) (limit size : Nat) : Except ColumnError Nat :=
  let required := permutationSize limit size
  if perm.length < required then .error (.permutationLength perm.length required)
  else
    match (perm.take required).find? fun index => decide (size ≤ index) with
    | some index => .error (.permutationIndex index size)
    | none => .ok required

/-- Counts have one entry per row. -/
def checkReplicate (counts : List Nat) (size : Nat) : Except ColumnError Unit :=
  if counts.length = size then .ok () else .error (.replicateSize counts.length size)

/-- A range ends within the rows of its source. -/
def checkRange (start length size : Nat) : Except ColumnError Unit :=
  if start + length ≤ size then .ok () else .error (.range start length size)

/-- A row exists. -/
def checkIndex (index size : Nat) : Except ColumnError Unit :=
  if index < size then .ok () else .error (.index index size)

/-- There are enough rows to remove. -/
def checkPop (count size : Nat) : Except ColumnError Unit :=
  if count ≤ size then .ok () else .error (.pop count size)

/-! ## Rows -/

variable {α : Type}

/-- The rows whose mask entry is set. -/
def keepRows : List Bool → List α → List α
  | true :: mask, row :: rows => row :: keepRows mask rows
  | false :: mask, _ :: rows => keepRows mask rows
  | _, _ => []

/-- The rows with these numbers. -/
def gatherRows (indices : List Nat) (rows : List α) : List α :=
  indices.filterMap fun i => rows[i]?

/-- Each row as often as its count says. -/
def repeatRows : List Nat → List α → List α
  | count :: counts, row :: rows => List.replicate count row ++ repeatRows counts rows
  | _, _ => []

/-- The rows kept by a mask of the right length.  The hint says for how many rows to
make room ahead, at most for all of them; no row depends on it. -/
def filter (mask : List Bool) (rows : List α) (_hint : Nat := 0) :
    Except ColumnError (List α) := do
  checkFilter mask rows.length
  return keepRows mask rows

/-- The rows that a permutation picks. -/
def permute (perm : List Nat) (limit : Nat) (rows : List α) : Except ColumnError (List α) := do
  let required ← checkPermutation perm limit rows.length
  return gatherRows (perm.take required) rows

/-- The rows repeated by counts of the right length. -/
def replicate (counts : List Nat) (rows : List α) : Except ColumnError (List α) := do
  checkReplicate counts rows.length
  return repeatRows counts rows

/-- The rows of `target` with a range of the rows of `source` behind them. -/
def appendRange (target source : List α) (start length : Nat) :
    Except ColumnError (List α) := do
  checkRange start length source.length
  return target ++ (source.drop start).take length

/-- The rows of `target` with one row of `source` behind them. -/
def appendRow (target source : List α) (index : Nat) : Except ColumnError (List α) := do
  checkIndex index source.length
  return target ++ (source.drop index).take 1

/-- The rows without the last `count`. -/
def dropLast (rows : List α) (count : Nat) : Except ColumnError (List α) := do
  checkPop count rows.length
  return rows.take (rows.length - count)

end Selection

end ResultSet
