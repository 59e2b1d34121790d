import ResultSet.Binary.Basic
import ResultSet.Number.Digits

/-!
# Shortest decimal digits

The decimal digits of a finite value: as few as still round to that value and
no other, and among those as near to the value as possible.

The value and the two ends of the interval of numbers that round to it are
integer multiples of one power of ten, so the search is exact.  For one digit,
two digits and so on, `Rounding.onGrid?` tries the two neighbours of the value
among the numbers with that many digits.
-/

namespace ResultSet

/-- A decimal number `0.d₁d₂… * 10 ^ point`. -/
structure DecimalDigits where
  digits : Text
  point : Int
deriving DecidableEq

/-- The numbers that round to a binary value: those from `value - below` to
`value + above`, counted in units of `10 ^ exponent`. -/
structure RoundingInterval where
  value : Nat
  below : Nat
  above : Nat
  /-- the two ends round to the value as well -/
  closed : Bool
  exponent : Int
deriving DecidableEq

namespace RoundingInterval

/-- The interval of `significand * 2 ^ e` in a format: half way to the next
value above and below.  Below a power of two the values lie twice as close,
unless it is the least normal one. -/
def ofBinary (f : FloatFormat) (significand : Nat) (e : Int) : RoundingInterval :=
  let quarter := e - 2
  let unit := if 0 ≤ quarter then 2 ^ quarter.toNat else 5 ^ (-quarter).toNat
  let narrow := significand == 2 ^ f.fractionBits && decide (f.minExponent < e)
  ⟨4 * significand * unit, (if narrow then 1 else 2) * unit, 2 * unit,
    significand % 2 == 0, min 0 quarter⟩

/-- The distance from the value to a number of the interval is within `reach`. -/
def within (i : RoundingInterval) (distance reach : Nat) : Bool :=
  if i.closed then distance ≤ reach else distance < reach

/-- The multiple of `step` in the interval that is nearest to the value, if one
of the value's two neighbouring multiples lies in the interval. -/
def onGrid? (i : RoundingInterval) (tie : Tie) (step : Nat) : Option Nat :=
  let low := i.value / step
  let down := i.value % step
  let up := step - down
  match i.within down i.below, i.within up i.above with
  | true, true => some (roundDiv tie i.value step)
  | true, false => some low
  | false, true => some (low + 1)
  | false, false => none

/-- The digits without the zeros at their end. -/
def significant (digits : Text) : Text :=
  (digits.reverse.dropWhile (· == '0')).reverse

/-- The decimal number `n * 10 ^ e`. -/
def scaled (n : Nat) (e : Int) : DecimalDigits :=
  let digits := Digits.ofNat n
  ⟨significant digits, digits.length + e⟩

/-- The shortest decimal number of the interval, nearest to the value. -/
def shortest (i : RoundingInterval) (tie : Tie) : DecimalDigits :=
  let length := (Digits.ofNat i.value).length
  let found := (List.range length).findSome? fun fewer =>
    let cut := length - 1 - fewer
    (i.onGrid? tie (10 ^ cut)).map fun n => scaled n (i.exponent + cut)
  found.getD (scaled i.value i.exponent)

end RoundingInterval

/-- The shortest digits of `significand * 2 ^ e`, of no digit for zero. -/
def shortestDigits (f : FloatFormat) (tie : Tie) (significand : Nat) (e : Int) :
    DecimalDigits :=
  if significand = 0 then ⟨[], 0⟩
  else (RoundingInterval.ofBinary f significand e).shortest tie

end ResultSet
