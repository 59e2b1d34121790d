import ResultSet.Number.Digits

/-!
# Decimal errors

What can be wrong with a decimal, and the text that reports it.
-/

namespace ResultSet

/-- A decimal operation that has no result. -/
inductive DecimalError where
  /-- the operands have different numbers of fractional digits -/
  | scaleMismatch (left right : Nat)
  /-- the result does not fit the width of the operands -/
  | overflow
  /-- the text is no decimal -/
  | invalidLiteral (text : Text)
  /-- the exponent is beyond the bound of wide decimals -/
  | exponentOutOfRange (exponent : Int)
deriving DecidableEq

/-- The name of a decimal error in answers. -/
def DecimalError.code : DecimalError → String
  | .scaleMismatch _ _ => "DecimalScaleMismatch"
  | .overflow => "DecimalOverflow"
  | .invalidLiteral _ | .exponentOutOfRange _ => "InvalidDecimal"

/-- The report of a decimal error. -/
def DecimalError.message : DecimalError → Text
  | .scaleMismatch left right =>
    "Cannot combine decimals with scales ".toList ++ Digits.ofNat left ++ " and ".toList ++
      Digits.ofNat right
  | .overflow => "Decimal arithmetic overflow".toList
  | .invalidLiteral text => "Invalid decimal literal '".toList ++ text ++ ['\'']
  | .exponentOutOfRange exponent =>
    "Invalid decimal literal 'exponent ".toList ++ Digits.ofInt exponent ++
      " is out of range'".toList

end ResultSet
