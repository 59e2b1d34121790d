import ResultSet.Decimal.Compact
import ResultSet.Decimal.Error
import ResultSet.Decimal.Literal
import ResultSet.Number.Rounding
import ResultSet.Text.Blank

/-!
# Wide decimals

`WideDecimal` is the decimal of the type `DECIMAL`: any number of digits, and a
scale between `-68` and `68`.  Its digits and scale are kept as given, so two
equal numbers may be stored differently; `WideDecimal.compare` is the order of
the numbers.
-/

namespace ResultSet

/-- The largest magnitude of a wide decimal's scale: 38 digits before the point
and the widest output scale. -/
def maxWideScale : Nat := 68

/-- A decimal of any number of digits with a bounded scale. -/
structure WideDecimal extends Scaled where
  scale_le : scale.natAbs ≤ maxWideScale
deriving DecidableEq

namespace WideDecimal

/-- The scaled integer as a wide decimal, unless its scale is out of range. -/
def ofScaled (v : Scaled) : Except DecimalError WideDecimal :=
  if h : v.scale.natAbs ≤ maxWideScale then .ok ⟨v, h⟩
  else .error (.exponentOutOfRange v.scale)

/-- A mantissa of 128 bits with a number of fractional digits. -/
def ofParts (mantissa : Int) (scale : Nat) : Except DecimalError WideDecimal :=
  ofScaled ⟨mantissa, scale⟩

/-- The text with surrounding white space and underscores taken out.  White
space is looked for only when an ASCII blank stands at one of the two ends. -/
def cleaned (text : Text) : Text :=
  let trimmed :=
    if text.head?.any isAsciiBlank || text.getLast?.any isAsciiBlank then text.trim else text
  trimmed.filter (· != '_')

/-- The value that `read` gives for a literal; surrounding blanks and underscores are ignored. -/
def parseBy (read : Text → Option Scaled) (text : Text) : Except DecimalError WideDecimal :=
  if (cleaned text).isEmpty then .error (.invalidLiteral text)
  else
    match read (cleaned text) with
    | none => .error (.invalidLiteral text)
    | some v =>
      if h : v.scale.natAbs ≤ maxWideScale then .ok ⟨v, h⟩ else .error (.invalidLiteral text)

/-- The value of a literal. -/
def parse (text : Text) : Except DecimalError WideDecimal := parseBy Literal.read? text

/-- The order of the numbers. -/
def compare (left right : WideDecimal) : Ordering := left.toScaled.compare right.toScaled

/-- The two are the same number. -/
def sameValue (left right : WideDecimal) : Bool := left.compare right == .eq

/-- The number is below zero. -/
def negative (v : WideDecimal) : Bool := decide (v.digits < 0)

/-- The scale, brought within the bound.  The type has the bound already, so this is the
scale itself. -/
def clampedScale (v : WideDecimal) : Int :=
  max (-(maxWideScale : Int)) (min v.scale maxWideScale)

/-- The magnitude with a number of fractional digits. -/
def unscaled (v : WideDecimal) : Nat × Nat := Scaled.unscaled ⟨v.digits, v.clampedScale⟩

/-- The number at its own scale, in plain notation. -/
def naturalText (v : WideDecimal) : Text :=
  let (magnitude, scale) := v.unscaled
  placePoint (Digits.ofNat magnitude) scale v.negative

/-- The number with exactly `scale` fractional digits, a half rounded away from
zero. -/
def fixedText (v : WideDecimal) (scale : Nat) : Text :=
  let (magnitude, current) := v.unscaled
  let rescaled :=
    if scale < current then roundDiv .up magnitude (10 ^ (current - scale))
    else magnitude * 10 ^ (scale - current)
  placePoint (Digits.ofNat rescaled) scale v.negative

/-- The number with the fractional digits asked for, or at its own scale. -/
def text (v : WideDecimal) : Option Nat → Text
  | some scale => v.fixedText scale
  | none => v.naturalText

/-- Zero without fractional digits. -/
def zero : WideDecimal := ⟨⟨0, 0⟩, by decide⟩

end WideDecimal

end ResultSet
