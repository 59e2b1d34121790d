import ResultSet.Binary.Shortest

/-!
# Text of a floating-point value

`FloatLayout.render` writes the shortest digits of a value.  Where the point
goes and when an exponent is written is the choice of a `FloatLayout`; each
output format has its own.
-/

namespace ResultSet

/-- How the digits of a number are laid out. -/
structure FloatLayout where
  /-- which of two equally short and equally near numbers is taken -/
  tie : Tie
  /-- the exponents of the first digit that are written without an exponent part -/
  positional : Int → Bool
  /-- what follows a whole number without an exponent part -/
  whole : Text
  /-- what stands between the mark and a positive exponent -/
  positiveSign : Text
  notANumber : Text
  infinite : Text

namespace FloatLayout

/-- The digits with a point and no exponent part; `lead` is the exponent of the
first digit. -/
def pointForm (layout : FloatLayout) (digits : Text) (lead : Int) : Text :=
  if lead < 0 then
    ['0', '.'] ++ List.replicate (-lead - 1).toNat '0' ++ digits
  else
    let places := lead.toNat + 1
    if digits.length ≤ places then
      digits ++ List.replicate (places - digits.length) '0' ++ layout.whole
    else
      digits.take places ++ ['.'] ++ digits.drop places

/-- One digit before the point and an exponent part behind the digits. -/
def exponentForm (layout : FloatLayout) (digits : Text) (lead : Int) : Text :=
  let mantissa := match digits with
    | [] => ['0']
    | [d] => [d]
    | d :: rest => d :: '.' :: rest
  let sign := if lead < 0 then [] else layout.positiveSign
  mantissa ++ ['e'] ++ sign ++ Digits.ofInt lead

/-- The digits of a number that is not negative. -/
def renderDigits (layout : FloatLayout) (number : DecimalDigits) : Text :=
  if number.digits.isEmpty then '0' :: layout.whole
  else
    let lead := number.point - 1
    if layout.positional lead then layout.pointForm number.digits lead
    else layout.exponentForm number.digits lead

/-- The text of a value.  Zeros have a sign, NaNs have none. -/
def render (layout : FloatLayout) {f : FloatFormat} (x : Floating f) : Text :=
  let sign := if x.negative then ['-'] else []
  match x.magnitude with
  | .finite significand e =>
    sign ++ layout.renderDigits (shortestDigits f layout.tie significand e)
  | .infinite => sign ++ layout.infinite
  | .nan => layout.notANumber

end FloatLayout

end ResultSet
