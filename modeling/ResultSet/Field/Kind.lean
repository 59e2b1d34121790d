import ResultSet.Decimal.Fixed

/-!
# Kinds of fields

The kinds that a dynamically typed value can have, each with the tag that ranks
it and the name that reports use.
-/

namespace ResultSet

/-- The kind of a field. -/
inductive FieldKind where
  | null
  | uint64
  | int64
  | float64
  | uint128
  | int128
  | string
  | array
  | tuple
  | decimal (width : DecimalWidth)
  | aggregateState
deriving DecidableEq

namespace FieldKind

/-- The number that stands for the kind and ranks it among the others. -/
def tag : FieldKind → Nat
  | .null => 0
  | .uint64 => 1
  | .int64 => 2
  | .float64 => 3
  | .uint128 => 4
  | .int128 => 5
  | .string => 16
  | .array => 17
  | .tuple => 18
  | .decimal .w32 => 19
  | .decimal .w64 => 20
  | .decimal .w128 => 21
  | .aggregateState => 22

/-- The name of the kind in reports. -/
def name : FieldKind → String
  | .null => "Null"
  | .uint64 => "UInt64"
  | .int64 => "Int64"
  | .float64 => "Float64"
  | .uint128 => "UInt128"
  | .int128 => "Int128"
  | .string => "String"
  | .array => "Array"
  | .tuple => "Tuple"
  | .decimal .w32 => "Decimal32"
  | .decimal .w64 => "Decimal64"
  | .decimal .w128 => "Decimal128"
  | .aggregateState => "AggregateFunctionState"

/-- Every kind, in the order of the tags. -/
def all : List FieldKind :=
  [.null, .uint64, .int64, .float64, .uint128, .int128, .string, .array, .tuple,
    .decimal .w32, .decimal .w64, .decimal .w128, .aggregateState]

/-- The list leaves out no kind. -/
theorem mem_all (k : FieldKind) : k ∈ all := by
  cases k with
  | decimal w => cases w <;> decide
  | _ => decide

/-- Different kinds have different tags. -/
theorem tag_inj {k l : FieldKind} (h : k.tag = l.tag) : k = l :=
  (by decide : ∀ k ∈ all, ∀ l ∈ all, k.tag = l.tag → k = l) k (mem_all k) l (mem_all l) h

/-- The kind is one of the fixed-width decimals. -/
def isDecimal : FieldKind → Bool
  | .decimal _ => true
  | _ => false

/-- A value of the kind has a size of its own. -/
def isHeap : FieldKind → Bool
  | .string | .array | .tuple | .aggregateState => true
  | _ => false

end FieldKind

end ResultSet
