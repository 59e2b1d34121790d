import ResultSet.Decimal.Billionths
import ResultSet.Decimal.Fixed
import ResultSet.Decimal.Wide
import ResultSet.Json.Decode

/-!
# Decimals in JSON

A fixed-width decimal is a record, a decimal in billionths the bare integer, and
a wide decimal the string of its compact text.  A wide decimal may also be read
from a number, and each of these forms may be wrapped: it then stands alone in an
object, under the key `Scaled.wrapperKey`.
-/

namespace ResultSet

open Json

namespace FixedDecimal

/-- The keys of a fixed-width decimal. -/
def keys : List String := ["value", "scale"]

/-- The record of value and scale. -/
def toJson {w : DecimalWidth} (d : FixedDecimal w) : Json :=
  Json.record [("value", Json.int d.value.val), ("scale", Json.int d.scale.val)]

/-- Reads a word of the width. -/
def decodeValue : (w : DecimalWidth) → Decoder (Signed w.bits)
  | .w32 => decodeSigned 32
  | .w64 => decodeSigned 64
  | .w128 => decodeSigned128

/-- Reads the record of value and scale. -/
def decode (w : DecimalWidth) : Decoder (FixedDecimal w) := fun depth document =>
  match fields? keys depth document with
  | some (depth, [some value, some scale]) =>
    match decodeValue w depth value, decodeUnsigned 32 depth scale with
    | some value, some scale => some ⟨value, scale⟩
    | _, _ => none
  | _ => none

end FixedDecimal

namespace Billionths

/-- The number of billionths. -/
def toJson (v : Billionths) : Json := Json.int v.raw.val

/-- Reads a number of billionths. -/
def decode : Decoder Billionths := fun depth document =>
  (decodeSigned128 depth document).map (⟨·⟩)

end Billionths

namespace Scaled

/-- The exact value of a double. -/
def ofDouble? (x : Binary64) : Option Scaled :=
  match x.magnitude with
  | .finite significand e =>
    if significand = 0 then some ⟨0, 0⟩
    else
      let quotient := significand * Floating.powerUp e
      let divisor := Nat.gcd quotient (Floating.powerDown e)
      let places := (Floating.powerDown e / divisor).log2
      let digits : Int := (quotient / divisor * 5 ^ places : Nat)
      some ⟨if x.negative then -digits else digits, places⟩
  | _ => none

/-- The only key of an object that wraps a number.  It is recognized without
escapes only. -/
def wrapperKey : JsonKey := .plain "$serde_json::private::Number".toList

/-- The decimal of a number literal: an integer, or a double taken at its exact
value. -/
def ofNumber? (literal : Text) : Option Scaled :=
  match wordInt? literal with
  | some v => some ⟨v, 0⟩
  | none => (double? literal).bind ofDouble?

/-- Reads a decimal: a string with a literal that `read` takes, a number, or an object that wraps
one of the three. -/
def decodeBy (read : Text → Option Scaled) : Decoder Scaled
  | _, .string content => content.bind read
  | _, .number literal => ofNumber? literal
  | depth + 1, .object [(key, document)] =>
    if key = wrapperKey then decodeBy read depth document else none
  | _, _ => none

end Scaled

namespace WideDecimal

/-- The text that `write` gives for the number. -/
def toJsonBy (write : Scaled → Text) (v : WideDecimal) : Json := Json.text (write v.toScaled)

/-- The compact text of the number. -/
def toJson (v : WideDecimal) : Json := toJsonBy Scaled.compactText v

/-- Reads a decimal whose scale is in range. -/
def decodeBy (read : Text → Option Scaled) : Decoder WideDecimal := fun depth document =>
  (Scaled.decodeBy read depth document).bind fun v => (ofScaled v).toOption

/-- Reads a decimal with a literal of the grammar. -/
def decode : Decoder WideDecimal := decodeBy Literal.read?

end WideDecimal

end ResultSet
