import ResultSet.Field.Error

/-!
# Column errors

Why an operation on a column or block has no result, and the text that reports
it.  Arguments are checked before anything is changed.
-/

namespace ResultSet

/-- An operation on columns that was refused. -/
inductive ColumnError where
  /-- a mask needs one entry per row -/
  | filterSize (filter column : Nat)
  /-- a permutation needs at least as many entries as rows are asked for -/
  | permutationLength (permutation required : Nat)
  /-- a permutation names a row that does not exist -/
  | permutationIndex (index size : Nat)
  /-- replication needs one count per row -/
  | replicateSize (counts column : Nat)
  /-- a range ends behind the last row of its source -/
  | range (start length size : Nat)
  /-- a row does not exist -/
  | index (index size : Nat)
  /-- more rows are to be removed than there are -/
  | pop (count size : Nat)
  /-- a null map needs one entry per row -/
  | nullMapSize (nullMap nested : Nat)
  /-- all columns of a block need the same number of rows -/
  | rowCount (name : Text) (expected actual : Nat)
  /-- rows move between columns of one layout only -/
  | kindMismatch (source target : String)
  /-- a field of the wrong kind was to be stored -/
  | field (e : FieldError)
deriving DecidableEq

/-- The name of a column error in answers. -/
def ColumnError.code : ColumnError → String
  | .filterSize _ _ => "FilterSizeMismatch"
  | .permutationLength _ _ => "PermutationTooShort"
  | .permutationIndex _ _ => "PermutationIndexOutOfBounds"
  | .replicateSize _ _ => "ReplicateSizeMismatch"
  | .range _ _ _ => "RangeOutOfBounds"
  | .index _ _ => "IndexOutOfBounds"
  | .pop _ _ => "PopOutOfBounds"
  | .nullMapSize _ _ => "NullMapSizeMismatch"
  | .rowCount _ _ _ => "RowCountMismatch"
  | .kindMismatch _ _ => "ColumnKindMismatch"
  | .field e => e.code

/-- The report of a column error. -/
def ColumnError.message : ColumnError → Text
  | .filterSize filter column =>
    "Size of filter (".toList ++ Digits.ofNat filter ++
      ") doesn't match size of column (".toList ++ Digits.ofNat column ++ [')']
  | .permutationLength permutation required =>
    "Size of permutation (".toList ++ Digits.ofNat permutation ++
      ") is less than required (".toList ++ Digits.ofNat required ++ [')']
  | .permutationIndex row size =>
    "Permutation index ".toList ++ Digits.ofNat row ++
      " is out of bounds for column of size ".toList ++ Digits.ofNat size
  | .replicateSize counts column =>
    "Size of replicate counts (".toList ++ Digits.ofNat counts ++
      ") doesn't match size of column (".toList ++ Digits.ofNat column ++ [')']
  | .range start length size =>
    "Parameter out of bound in insert_range_from: start=".toList ++ Digits.ofNat start ++
      ", length=".toList ++ Digits.ofNat length ++ ", source size=".toList ++ Digits.ofNat size
  | .index row size =>
    "Row ".toList ++ Digits.ofNat row ++ " is out of bounds for column of size ".toList ++
      Digits.ofNat size
  | .pop count size =>
    "Cannot pop ".toList ++ Digits.ofNat count ++ " rows from column of size ".toList ++
      Digits.ofNat size
  | .nullMapSize nullMap nested =>
    "Null map has ".toList ++ Digits.ofNat nullMap ++ " entries, nested column has ".toList ++
      Digits.ofNat nested ++ " rows".toList
  | .rowCount name expected actual =>
    "Column '".toList ++ name ++ "' has ".toList ++ Digits.ofNat actual ++
      " rows, block has ".toList ++ Digits.ofNat expected
  | .kindMismatch source target =>
    "Cannot insert ".toList ++ source.toList ++ " column data into ".toList ++ target.toList ++
      " column".toList
  | .field e => e.message

end ResultSet
