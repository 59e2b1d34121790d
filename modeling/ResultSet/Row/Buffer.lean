import ResultSet.Binary.Layout
import ResultSet.Row.Encoder
import ResultSet.Row.LengthPrefix

/-!
# Row buffers

`RowBuffer` encodes a row for the text protocol: a null is one byte, every other
value is written as text behind its length.  The row never grows beyond its
limit.
-/

namespace ResultSet

/-- A row that is being written. -/
structure RowBuffer where
  bytes : Bytes
  limit : Nat
deriving DecidableEq

namespace WireValue

/-- Very large and very small numbers have an exponent, whole numbers no point. -/
def floatLayout : FloatLayout where
  tie := .up
  positional := fun lead => decide (-5 ≤ lead ∧ lead < 16)
  whole := []
  positiveSign := []
  notANumber := "NaN".toList
  infinite := "inf".toList

/-- The bytes that stand for a value, nothing for a null. -/
def text : WireValue → Option Bytes
  | .null => none
  | .tinyInt v => some (Text.utf8 (Digits.ofInt v.val))
  | .smallInt v => some (Text.utf8 (Digits.ofInt v.val))
  | .int v => some (Text.utf8 (Digits.ofInt v.val))
  | .bigInt v => some (Text.utf8 (Digits.ofInt v.val))
  | .float v => some (Text.utf8 (floatLayout.render v))
  | .double v => some (Text.utf8 (floatLayout.render v))
  | .bytes v => some v

end WireValue

namespace RowBuffer

/-- The limit of a row unless another one is set: 16 MiB. -/
def defaultLimit : Nat := 16 * 1024 * 1024

/-- An empty row. -/
def empty (limit : Nat) : RowBuffer := ⟨[], limit⟩

/-- The row with more bytes behind it, if they stay within the limit. -/
def append (b : RowBuffer) (size : Nat) (cell : Bytes) : Except RowError RowBuffer :=
  let total := b.bytes.length + size
  if total ≤ b.limit then .ok ⟨b.bytes ++ cell, b.limit⟩ else .error (.tooLarge total b.limit)

/-- The row with one more value. -/
def push (v : WireValue) (b : RowBuffer) : Except RowError RowBuffer :=
  match v.text with
  | none => b.append 1 [LengthPrefix.nullMark]
  | some value =>
    b.append (LengthPrefix.size value.length + value.length)
      (LengthPrefix.encode value.length ++ value)

instance : RowEncoder RowBuffer where
  reset b := empty b.limit
  push := push
  row := bytes

end RowBuffer

end ResultSet
