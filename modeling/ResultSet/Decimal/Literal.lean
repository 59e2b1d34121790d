import ResultSet.Decimal.Scaled

/-!
# Decimal literals

The grammar of a decimal number with an exponent: an integer with a point in
it, then `e` or `E` and a signed exponent.

The point is taken out before the digits are read, and the characters behind it
are counted for the scale.  The sign is therefore looked for behind a leading
point too.  Underscores may stand between digits and are not counted.
-/

namespace ResultSet

namespace Literal

/-- The digits of an unsigned integer: a decimal digit, then digits with
underscores between and behind them. -/
def unsigned? (text : Text) : Option Nat :=
  match text with
  | [] => none
  | '_' :: _ => none
  | _ =>
    let digits := text.filter (· != '_')
    if Digits.allDigits digits then some (Digits.value digits) else none

/-- An integer with an optional sign. -/
def integer? : Text → Option Int
  | '-' :: rest => (unsigned? rest).map fun n => -n
  | '+' :: rest => (unsigned? rest).map fun n => n
  | text => (unsigned? text).map fun n => n

/-- An exponent: an optional sign and at least one digit, no underscore. -/
def exponent? (text : Text) : Option Int :=
  if text.contains '_' then none else integer? text

/-- The mantissa without its point, and the number of digits behind the point. A
point at the very end is dropped. -/
def splitPoint (mantissa : Text) : Text × Nat :=
  let whole := mantissa.takeWhile (· != '.')
  match mantissa.dropWhile (· != '.') with
  | [] => (mantissa, 0)
  | [_] => (whole, 0)
  | _ :: fraction => (whole ++ fraction, (fraction.filter (· != '_')).length)

/-- The texts before and behind the exponent mark; `none` without a mark. -/
def splitExponent (text : Text) : Text × Option Text :=
  let isMark := fun c => c == 'e' || c == 'E'
  let mantissa := text.takeWhile (!isMark ·)
  match text.dropWhile (!isMark ·) with
  | [] => (mantissa, none)
  | _ :: exponent => (mantissa, some exponent)

/-- The decimal number that a literal denotes. -/
def read? (text : Text) : Option Scaled :=
  let (mantissa, mark) := splitExponent text
  let exponent := match mark with
    | none => some 0
    | some exponent => exponent? exponent
  let (digits, places) := splitPoint mantissa
  match exponent, integer? digits with
  | some exponent, some digits => some ⟨digits, places - exponent⟩
  | _, _ => none

end Literal

end ResultSet
