import ResultSet.Decimal.Error
import ResultSet.Decimal.Point
import ResultSet.Number.Sized
import ResultSet.Text.Blank

/-!
# Decimals in billionths

`Billionths` is the fixed-point decimal of the type `DECIMALV2`: a signed word
of 128 bits that counts billionths.

* `Billionths.naturalText` drops the zeros at the end of the fraction.
* `Billionths.fixedText` rounds to a number of fractional digits, a half away
  from zero.
* `Billionths.parse` reads an optional sign, digits and at most one point.

Rounding and reading are arithmetic in words, and reading cuts the text at bytes.  The definitions
whose names end in `InWord?` take these steps: nothing stands for a step that is not checked and
leaves the word, or for a cut inside a character.
-/

namespace ResultSet

/-- Fractional digits of a value in billionths. -/
def billionthsScale : Nat := 9

/-- Billionths in one. -/
def oneBillion : Nat := 10 ^ billionthsScale

/-- A number of billionths. -/
structure Billionths where
  raw : Signed 128
deriving DecidableEq

namespace Billionths

/-- The value of a whole part and a number of billionths. -/
def ofParts (whole : Signed 64) (fraction : Signed 32) : Billionths :=
  ⟨Signed.wrap 128 (whole.val * oneBillion + fraction.val)⟩

/-- The part before the point, with the sign of the value. -/
def wholePart (v : Billionths) : Int := v.raw.val.tdiv oneBillion

/-- The billionths behind the point, with the sign of the value. -/
def fractionPart (v : Billionths) : Int := v.raw.val.tmod oneBillion

/-- The value is below zero. -/
def negative (v : Billionths) : Bool := decide (v.raw.val < 0)

/-- A magnitude with `scale` fractional digits, without the zeros at the end of
its fraction. -/
def trimFraction : (scale magnitude : Nat) → Nat × Nat
  | 0, magnitude => (magnitude, 0)
  | scale + 1, magnitude =>
    if magnitude % 10 = 0 then trimFraction scale (magnitude / 10) else (magnitude, scale + 1)

/-- The value without zeros at the end of its fraction, and without a point when
it is whole. -/
def naturalText (v : Billionths) : Text :=
  let (magnitude, scale) := trimFraction billionthsScale v.raw.val.natAbs
  placePoint (Digits.ofNat magnitude) scale v.negative

/-- The natural number as a word of 128 bits, nothing when it does not fit. -/
def unsignedWord? (n : Nat) : Option Nat := (Unsigned.ofNat? 128 n).map (·.val)

/-- The value with exactly `scale` fractional digits.  Every product, sum and power is taken in a
word of 128 bits. -/
def fixedTextInWord? (v : Billionths) (scale : Nat) : Option Text := do
  let magnitude ← unsignedWord? v.raw.val.natAbs
  if scale ≤ billionthsScale then
    let divisor ← unsignedWord? (10 ^ (billionthsScale - scale))
    let doubled ← unsignedWord? (magnitude % divisor * 2)
    let rounded ←
      if divisor ≤ doubled then unsignedWord? (magnitude / divisor + 1)
      else some (magnitude / divisor)
    return placePoint (Digits.ofNat rounded) scale v.negative
  else
    return placePoint
      (Digits.ofNat magnitude ++ List.replicate (scale - billionthsScale) '0') scale v.negative

/-- The value with exactly `scale` fractional digits. -/
def fixedText (v : Billionths) (scale : Nat) : Text := (v.fixedTextInWord? scale).getD []

/-- The value with the fractional digits asked for, or its own. -/
def text (v : Billionths) : Option Nat → Text
  | some scale => v.fixedText scale
  | none => v.naturalText

/-! ## Reading -/

/-- The byte of an ASCII digit. -/
def isDigitByte (b : UInt8) : Bool := decide (48 ≤ b.toNat) && decide (b.toNat ≤ 57)

/-- The text without its sign, and whether that was a minus.  The sign is looked for in the first
byte, and the text is cut behind it. -/
def splitSignByte? (text : Text) : Option (Bool × Text) :=
  if text.utf8.head? = some 45 then (text.splitAtByte? 1).map fun parts => (true, parts.2)
  else if text.utf8.head? = some 43 then (text.splitAtByte? 1).map fun parts => (false, parts.2)
  else some (false, text)

/-- The texts before and behind the first point, the second empty without one. -/
def splitPoint (text : Text) : Text × Text :=
  (text.takeWhile (· != '.'), (text.dropWhile (· != '.')).drop 1)

/-- The signed billionths of digits in front of the point and of at most nine behind it, in words
of `bits` bits.  The digits are refused when they, their product with a billion or the sum leave
the word.  The other steps are not checked. -/
def ofPartsInWord? (bits : Nat) (negative : Bool) (whole kept : Text) :
    Option (Option (Signed bits)) :=
  match Signed.ofInt? bits (Digits.value whole), Signed.ofInt? bits (Digits.value kept) with
  | some wholeWord, some keptWord => do
    let gap ←
      if kept.utf8.length ≤ billionthsScale then some (billionthsScale - kept.utf8.length) else none
    let power ← Signed.ofInt? bits ((10 ^ gap : Nat) : Int)
    let fraction ← Signed.ofInt? bits (keptWord.val * power.val)
    let sum := (Signed.ofInt? bits (wholeWord.val * oneBillion)).bind fun scaled =>
      Signed.ofInt? bits (scaled.val + fraction.val)
    match sum with
    | none => some none
    | some raw => (Signed.ofInt? bits (if negative then -raw.val else raw.val)).map some
  | _, _ => some none

/-- The value of digits around a point.  Those past the ninth place must be zero. -/
def ofDigitsInWord? (negative : Bool) (whole fraction : Text) : Option (Option Billionths) :=
  if whole.isEmpty && fraction.isEmpty then some none
  else if !((whole.utf8 ++ fraction.utf8).all isDigitByte) then some none
  else
    (fraction.splitAtByte? (min fraction.utf8.length billionthsScale)).bind fun parts =>
      if parts.2.utf8.any (· != 48) then some none
      else (ofPartsInWord? 128 negative whole parts.1).map fun word => word.map (⟨·⟩)

/-- The value of a literal, `some none` for a text that is refused. -/
def readInWord? (text : Text) : Option (Option Billionths) :=
  (splitSignByte? text.trim).bind fun parts =>
    ofDigitsInWord? parts.1 (splitPoint parts.2).1 (splitPoint parts.2).2

/-- The value of a literal, an error that quotes the text when it is none.  Nothing stands for a
step that goes wrong. -/
def parseInWord? (text : Text) : Option (Except DecimalError Billionths) :=
  (readInWord? text).map fun value => value.elim (.error (.invalidLiteral text)) .ok

/-- The value of a literal, an error that quotes the text when it is none. -/
def parse (text : Text) : Except DecimalError Billionths :=
  (parseInWord? text).getD (.error (.invalidLiteral text))

end Billionths

end ResultSet
