import ResultSet.Binary.Basic
import ResultSet.Calendar.Moment
import ResultSet.Decimal.Billionths
import ResultSet.Decimal.Wide

/-!
# Tuples

The values that expressions produce row by row.  A slot without a value is a
null.
-/

namespace ResultSet

/-- A string as an expression hands it over. -/
inductive StringValue where
  | stored (bytes : Bytes)
  /-- a string without storage, of which only the length is known -/
  | detached (length : Nat)
deriving DecidableEq

namespace StringValue

/-- The bytes, if there is storage. -/
def bytes? : StringValue → Option Bytes
  | .stored bytes => some bytes
  | .detached _ => none

/-- The length that the string claims. -/
def length : StringValue → Nat
  | .stored bytes => bytes.length
  | .detached length => length

/-- The string claims no length. -/
def isEmpty (v : StringValue) : Bool := v.length == 0

/-- The string that stands for no value at all. -/
def default : StringValue := .detached 0

end StringValue

/-- The value of an expression for one row. -/
inductive Datum where
  | boolean (v : Bool)
  | tinyInt (v : Signed 8)
  | smallInt (v : Signed 16)
  | int (v : Signed 32)
  | bigInt (v : Signed 64)
  | largeInt (v : Signed 128)
  | float (v : Binary32)
  | double (v : Binary64)
  /-- seconds since midnight -/
  | time (v : Binary64)
  | moment (v : Moment)
  | string (v : StringValue)
  | decimal (v : WideDecimal)
  | decimalV2 (v : Billionths)
  | object (v : Bytes)

namespace Datum

/-- The name of the kind in reports. -/
def kindName : Datum → String
  | .boolean _ => "Boolean"
  | .tinyInt _ => "TinyInt"
  | .smallInt _ => "SmallInt"
  | .int _ => "Int"
  | .bigInt _ => "BigInt"
  | .largeInt _ => "LargeInt"
  | .float _ => "Float"
  | .double _ => "Double"
  | .time _ => "Time"
  | .moment _ => "DateTime"
  | .string _ => "String"
  | .decimal _ => "Decimal"
  | .decimalV2 _ => "DecimalV2"
  | .object _ => "Object"

/-- The value as a string, if it is one. -/
def string? : Datum → Option StringValue
  | .string v => some v
  | _ => none

end Datum

/-- One row of values. -/
structure TupleRow where
  slots : List (Option Datum)

namespace TupleRow

/-- The value in a slot; nothing for a null and for a slot that does not exist. -/
def get? (row : TupleRow) (slot : Nat) : Option Datum := (row.slots[slot]?).join

/-- The number of slots. -/
def length (row : TupleRow) : Nat := row.slots.length

end TupleRow

end ResultSet
