import ResultSet.Number.Digits
import ResultSet.Number.Power

/-!
# Scaled integers

`Scaled` is an integer with the number of digits behind its point: the decimal
`digits * 10 ^ (-scale)`, with no bound on either.  `Scaled.compare` is the
order of the numbers.
-/

namespace ResultSet

/-- The decimal number `digits * 10 ^ (-scale)`. -/
structure Scaled where
  digits : Int
  scale : Int
deriving DecidableEq

namespace Scaled

/-- The order of `left * 10 ^ gap` and `right`.  A power of ten that is longer
than `right` decides by the sign of `left`, whatever its exact size. -/
def compareShifted (left : Int) (gap : Nat) (right : Int) : Ordering :=
  if left = 0 then compare 0 right
  else if (Digits.ofNat right.natAbs).length ≤ gap then compare left 0
  else compare (left * 10 ^ gap) right

/-- The order of two numbers. -/
def compare (left right : Scaled) : Ordering :=
  if left.scale ≤ right.scale then
    compareShifted left.digits (right.scale - left.scale).toNat right.digits
  else
    (compareShifted right.digits (left.scale - right.scale).toNat left.digits).swap

/-- A natural number and a number of fractional digits with the same magnitude. -/
def unscaled (v : Scaled) : Nat × Nat :=
  if 0 ≤ v.scale then (v.digits.natAbs, v.scale.toNat)
  else (v.digits.natAbs * 10 ^ (-v.scale).toNat, 0)

end Scaled

end ResultSet
