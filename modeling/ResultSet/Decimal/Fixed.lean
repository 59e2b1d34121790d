import ResultSet.Decimal.Error
import ResultSet.Decimal.Point
import ResultSet.Decimal.Scaled
import ResultSet.Number.Sized

/-!
# Fixed-width decimals

A fixed-width decimal is a signed word and the number of fractional digits it
carries.  Two of them compare by value, whatever their widths and scales; a sum
exists between equal scales only.
-/

namespace ResultSet

/-- The widths of fixed decimals. -/
inductive DecimalWidth where
  | w32
  | w64
  | w128
deriving DecidableEq

namespace DecimalWidth

/-- Bits of the word. -/
def bits : DecimalWidth → Nat
  | .w32 => 32
  | .w64 => 64
  | .w128 => 128

/-- The number of digits that every word of the width can hold. -/
def maxPrecision : DecimalWidth → Nat
  | .w32 => 9
  | .w64 => 18
  | .w128 => 38

end DecimalWidth

/-- The decimal `value * 10 ^ (-scale)` in a word of width `w`. -/
structure FixedDecimal (w : DecimalWidth) where
  value : Signed w.bits
  scale : Unsigned 32
deriving DecidableEq

/-- The largest power of ten in a word of 128 bits. -/
def maxWordPower : Nat := 38

namespace FixedDecimal

variable {w : DecimalWidth}

/-- The decimal as a scaled integer. -/
def toScaled (d : FixedDecimal w) : Scaled := ⟨d.value.val, d.scale.val⟩

/-- `10 ^ scale` as a word of the width, unless it does not fit. -/
def scaleMultiplier (d : FixedDecimal w) : Option (Signed w.bits) :=
  if d.scale.val ≤ maxWordPower then Signed.ofInt? w.bits ((10 ^ d.scale.val : Nat) : Int)
  else none

/-- `v * 10 ^ gap`, unless the power or the product leaves the 128-bit word. -/
def shiftedWord? (v : Int) (gap : Nat) : Option Int :=
  if gap ≤ maxWordPower then (Signed.ofInt? 128 (v * ((10 ^ gap : Nat) : Int))).map (·.val)
  else none

/-- The order of the values: the words are compared at the larger scale as long as that fits 128
bits.  Otherwise `order` compares the numbers themselves. -/
def compareBy {v : DecimalWidth} (order : Scaled → Scaled → Ordering) (left : FixedDecimal w)
    (right : FixedDecimal v) : Ordering :=
  let l := left.value.val
  let r := right.value.val
  if left.scale.val = right.scale.val then Ord.compare l r
  else if left.scale.val < right.scale.val then
    match shiftedWord? l (right.scale.val - left.scale.val) with
    | some l => Ord.compare l r
    | none => order left.toScaled right.toScaled
  else
    match shiftedWord? r (left.scale.val - right.scale.val) with
    | some r => Ord.compare l r
    | none => order left.toScaled right.toScaled

/-- The order of the values. -/
def compare {v : DecimalWidth} (left : FixedDecimal w) (right : FixedDecimal v) : Ordering :=
  compareBy Scaled.compare left right

/-- The values are the same number. -/
def sameValue {v : DecimalWidth} (left : FixedDecimal w) (right : FixedDecimal v) : Bool :=
  left.compare right == .eq

/-- The result of an operation on the words, between equal scales. -/
def combine (op : Int → Int → Int) (left right : FixedDecimal w) :
    Except DecimalError (FixedDecimal w) :=
  if left.scale.val = right.scale.val then
    match Signed.ofInt? w.bits (op left.value.val right.value.val) with
    | some value => .ok ⟨value, left.scale⟩
    | none => .error .overflow
  else .error (.scaleMismatch left.scale.val right.scale.val)

/-- The sum, between equal scales. -/
def add (left right : FixedDecimal w) : Except DecimalError (FixedDecimal w) :=
  combine (· + ·) left right

/-- The difference, between equal scales. -/
def sub (left right : FixedDecimal w) : Except DecimalError (FixedDecimal w) :=
  combine (· - ·) left right

/-- The decimal with exactly `scale` fractional digits. -/
def text (d : FixedDecimal w) : Text :=
  placePoint (Digits.ofNat d.value.val.natAbs) d.scale.val (decide (d.value.val < 0))

end FixedDecimal

end ResultSet
