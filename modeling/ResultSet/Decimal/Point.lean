import ResultSet.Number.Digits

/-!
# Placing a decimal point

Every decimal is written by putting a point into the digits of a natural
number.
-/

namespace ResultSet

/-- The digits with a point `scale` digits from the right, and a minus sign for
a negative value other than zero. -/
def placePoint (digits : Text) (scale : Nat) (negative : Bool) : Text :=
  let sign := if negative && digits.any (· != '0') then ['-'] else []
  if scale = 0 then sign ++ digits
  else if digits.length ≤ scale then
    sign ++ ['0', '.'] ++ List.replicate (scale - digits.length) '0' ++ digits
  else
    sign ++ digits.take (digits.length - scale) ++ ['.'] ++
      digits.drop (digits.length - scale)

/-- The largest number of fractional digits that an output scale can ask for. -/
def maxOutputScale : Nat := 30

/-- The number of fractional digits that an output scale asks for; a scale
outside `1` to `maxOutputScale` leaves the value its own digits. -/
def textScale (outputScale : Int) : Option Nat :=
  if 0 < outputScale ∧ outputScale ≤ maxOutputScale then some outputScale.toNat else none

end ResultSet
