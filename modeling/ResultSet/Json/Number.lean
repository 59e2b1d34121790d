import ResultSet.Binary.Layout
import ResultSet.Json.Basic
import ResultSet.Number.Sized

/-!
# JSON numbers

What the literal of a number denotes.

* `Json.exactInt?` is the integer of a literal without fraction and exponent.
* `Json.wordInt?` is that integer when it fits a word of 64 bits.  Negative zero
  counts as a float there, and so does any longer integer.
* `Json.double?` is a double.  It is reached by one multiplication or division of
  the leading digits by a power of ten, so it need not be the nearest one.
* `Json.ofDouble` writes the shortest digits of a double.
-/

namespace ResultSet

namespace Json

/-- The sign of a literal, its digits before and behind the point, and its
exponent. -/
structure NumberParts where
  negative : Bool
  whole : Text
  fraction : Text
  exponent : Int
deriving DecidableEq

/-- The literal has neither a fraction nor an exponent. -/
def isPlain (literal : Text) : Bool :=
  literal.all fun c => c != '.' && c != 'e' && c != 'E'

/-- The exponent part of a literal, zero without one. -/
def exponentOf : Text → Int
  | _ :: '-' :: digits => -(Digits.value digits : Int)
  | _ :: '+' :: digits => Digits.value digits
  | _ :: digits => Digits.value digits
  | [] => 0

/-- The parts of a literal. -/
def partsOf (literal : Text) : NumberParts :=
  let (negative, unsigned) := match literal with
    | '-' :: rest => (true, rest)
    | rest => (false, rest)
  let rest := unsigned.dropWhile Char.isDigit
  let fraction := match rest with
    | '.' :: rest => rest.takeWhile Char.isDigit
    | _ => []
  let mark := rest.dropWhile fun c => c != 'e' && c != 'E'
  ⟨negative, unsigned.takeWhile Char.isDigit, fraction, exponentOf mark⟩

/-- The integer that a literal without fraction and exponent denotes. -/
def exactInt? (literal : Text) : Option Int :=
  if isPlain literal then
    let parts := partsOf literal
    let magnitude : Int := Digits.value parts.whole
    some (if parts.negative then -magnitude else magnitude)
  else none

/-- The integer of a literal in the range of the words of 64 bits.  Negative
zero is not among them. -/
def wordInt? (literal : Text) : Option Int :=
  match exactInt? literal with
  | none => none
  | some v =>
    if literal.head? = some '-' then
      if v < 0 ∧ -(2 ^ (63 : Nat) : Int) ≤ v then some v else none
    else if v < 2 ^ (64 : Nat) then some v else none

/-! ## Doubles -/

/-- The largest number that the leading digits may add up to. -/
def maxSignificand : Nat := 2 ^ (64 : Nat) - 1

/-- Appends decimal digits to a number as long as it stays in the word, and
counts them. -/
def appendDigits : Nat → Text → Nat × Nat
  | significand, [] => (significand, 0)
  | significand, d :: digits =>
    let next := significand * 10 + (d.toNat - '0'.toNat)
    if next ≤ maxSignificand then
      let (significand, count) := appendDigits next digits
      (significand, count + 1)
    else (significand, 0)

/-- The magnitude of a finite value as a quotient of two numbers. -/
def quotient (x : Binary64) : Nat × Nat :=
  match x.magnitude with
  | .finite significand e => (significand * Floating.powerUp e, Floating.powerDown e)
  | _ => (0, 1)

/-- The largest power of ten that is a double. -/
def maxPower : Nat := 308

/-- The double nearest to a power of ten. -/
def powerOfTen (exponent : Nat) : Binary64 := Floating.nearest .double false (10 ^ exponent) 1

/-- The magnitude of `x / y`, rounded. -/
def divide (x y : Binary64) : Binary64 :=
  let (a, b) := quotient x
  let (c, d) := quotient y
  Floating.nearest .double false (a * d) (b * c)

/-- The magnitude of `x * y`, rounded. -/
def multiply (x y : Binary64) : Binary64 :=
  let (a, b) := quotient x
  let (c, d) := quotient y
  Floating.nearest .double false (a * c) (b * d)

/-- `x / 10 ^ exponent`, dividing by the largest power of ten as long as the
exponent is beyond it and the value is not zero yet. -/
def scaleDown : (steps : Nat) → Binary64 → (exponent : Nat) → Binary64
  | 0, x, _ => x
  | steps + 1, x, exponent =>
    if exponent ≤ maxPower then divide x (powerOfTen exponent)
    else if x.bits = 0 then x
    else scaleDown steps (divide x (powerOfTen maxPower)) (exponent - maxPower)

/-- `significand * 10 ^ exponent`, nothing when that is beyond every double. -/
def scaled? (significand : Nat) (exponent : Int) : Option Binary64 :=
  let x := Floating.ofInt .double significand
  if exponent < 0 then
    let exponent := exponent.natAbs
    some (scaleDown (exponent / maxPower + 1) x exponent)
  else if exponent ≤ maxPower then
    let product := multiply x (powerOfTen exponent.toNat)
    if product.isFinite then some product else none
  else if significand = 0 then some x
  else none

/-- The double that a literal denotes, nothing when it is out of range. -/
def double? (literal : Text) : Option Binary64 :=
  let parts := partsOf literal
  let (significand, used) := appendDigits 0 parts.whole
  let (significand, places) := appendDigits significand parts.fraction
  let exponent : Int := (parts.whole.length - used : Nat) - (places : Int) + parts.exponent
  (scaled? significand exponent).map fun x =>
    if parts.negative then Floating.ofBits .double (x.bits + 2 ^ FloatFormat.double.magnitudeBits)
    else x

/-- Numbers from `0.00001` to below `10 ^ 16` have no exponent part, and whole
numbers keep a zero behind the point. -/
def floatLayout : FloatLayout where
  tie := .even
  positional := fun lead => decide (-5 ≤ lead ∧ lead < 16)
  whole := ".0".toList
  positiveSign := ['+']
  notANumber := "null".toList
  infinite := "null".toList

/-- A double as a number; infinities and NaNs have no literal and become null. -/
def ofDouble (x : Binary64) : Json :=
  if x.isFinite then .number (floatLayout.render x) else .null

end Json

end ResultSet
