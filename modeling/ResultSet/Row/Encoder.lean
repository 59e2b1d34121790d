import ResultSet.Binary.Basic
import ResultSet.Number.Sized
import ResultSet.Row.Error

/-!
# Row encoders

A row is encoded value by value, in the order of the output columns.
`RowEncoder` is what an encoder offers; a push that fails leaves it as it was.
-/

namespace ResultSet

/-- A value of an output row. -/
inductive WireValue where
  | null
  | tinyInt (v : Signed 8)
  | smallInt (v : Signed 16)
  | int (v : Signed 32)
  | bigInt (v : Signed 64)
  | float (v : Binary32)
  | double (v : Binary64)
  /-- raw bytes, not required to be valid UTF-8 -/
  | bytes (v : Bytes)
deriving DecidableEq

/-- An encoder of output rows. -/
class RowEncoder (E : Type) where
  /-- the encoder at the beginning of a row -/
  reset : E → E
  /-- the encoder with one more value in its row -/
  push : WireValue → E → Except RowError E
  /-- the row so far -/
  row : E → Bytes

end ResultSet
