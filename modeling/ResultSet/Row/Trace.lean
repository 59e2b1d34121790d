import ResultSet.Number.Digits
import ResultSet.Row.Encoder
import ResultSet.Text.Hex

/-!
# Row traces

An encoder for inspection: every value is written as the name of its kind and its
content, floats and bytes in hexadecimal.  Beyond its limit a trace accepts nulls
only.
-/

namespace ResultSet

/-- A trace of the values of a row. -/
structure RowTrace where
  bytes : Bytes
  limit : Nat
deriving DecidableEq

namespace RowTrace

/-- A value as the name of its kind and its content. -/
def entry : WireValue → Text
  | .null => "null;".toList
  | .tinyInt v => "tinyint:".toList ++ Digits.ofInt v.val ++ [';']
  | .smallInt v => "smallint:".toList ++ Digits.ofInt v.val ++ [';']
  | .int v => "int:".toList ++ Digits.ofInt v.val ++ [';']
  | .bigInt v => "bigint:".toList ++ Digits.ofInt v.val ++ [';']
  | .float v => "float:".toList ++ Hex.ofNat 8 v.bits ++ [';']
  | .double v => "double:".toList ++ Hex.ofNat 16 v.bits ++ [';']
  | .bytes v => "string:".toList ++ Hex.ofBytes v ++ [';']

/-- An empty trace. -/
def empty (limit : Nat) : RowTrace := ⟨[], limit⟩

/-- The trace with one more value. -/
def push (v : WireValue) (t : RowTrace) : Except RowError RowTrace :=
  if v ≠ .null ∧ t.limit ≤ t.bytes.length then .error .format
  else .ok ⟨t.bytes ++ (entry v).utf8, t.limit⟩

instance : RowEncoder RowTrace where
  reset t := empty t.limit
  push := push
  row := bytes

end RowTrace

end ResultSet
