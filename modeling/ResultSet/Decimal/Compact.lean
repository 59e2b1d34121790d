import ResultSet.Decimal.Point
import ResultSet.Decimal.Scaled

/-!
# Compact decimals

The text of a scaled integer that stays short: an exponent replaces long runs
of zeros before or behind the digits.
-/

namespace ResultSet

namespace Scaled

/-- Zeros between point and first digit that are still written. -/
def maxLeadingZeros : Nat := 5

/-- Zeros between last digit and point that are still written. -/
def maxTrailingZeros : Nat := 15

/-- An integer with its sign, a plus included. -/
def signedText (v : Int) : Text :=
  if v < 0 then Digits.ofInt v else '+' :: Digits.ofInt v

/-- The number in plain notation, or with an exponent where plain notation would
need more than five leading or fifteen trailing zeros. -/
def compactText (v : Scaled) : Text :=
  let digits := Digits.ofNat v.digits.natAbs
  let sign := if v.digits < 0 then ['-'] else []
  if v.digits = 0 then ['0']
  else if v.scale > digits.length + maxLeadingZeros then
    let mantissa := match digits with
      | first :: second :: rest => first :: '.' :: second :: rest
      | digits => digits
    sign ++ mantissa ++ ['E'] ++ signedText ((digits.length : Int) - 1 - v.scale)
  else if v.scale < -(maxTrailingZeros : Int) then
    sign ++ digits ++ ['e'] ++ signedText (-v.scale)
  else
    let (magnitude, scale) := v.unscaled
    placePoint (Digits.ofNat magnitude) scale (decide (v.digits < 0))

end Scaled

end ResultSet
