import ResultSet.Number.Power
import ResultSet.Number.Rounding

/-!
# Binary floating point

A floating-point value is its IEEE 754 bit pattern.  Everything said about a
value is computed from the pattern with integers:

* `Floating.magnitude` splits the pattern into `significand * 2 ^ exponent`;
* `Floating.orderKey` is the rank of a pattern in the total order of IEEE 754;
* `Floating.numericEq` is equality of the numbers, for which a NaN differs from
  itself and the two zeros agree;
* `Floating.nearest` is the pattern nearest to a quotient of integers;
* `Floating.toDouble` reads a single as a double.
-/

namespace ResultSet

/-- An interchange format: one sign bit, `exponentBits` of biased exponent and
`fractionBits` of fraction. -/
structure FloatFormat where
  fractionBits : Nat
  exponentBits : Nat
deriving DecidableEq

namespace FloatFormat

/-- The format of four bytes. -/
def single : FloatFormat := ⟨23, 8⟩

/-- The format of eight bytes. -/
def double : FloatFormat := ⟨52, 11⟩

/-- Bits below the sign. -/
def magnitudeBits (f : FloatFormat) : Nat := f.fractionBits + f.exponentBits

/-- Bits of a whole pattern. -/
def width (f : FloatFormat) : Nat := f.magnitudeBits + 1

/-- The exponent field of infinities and NaNs. -/
def topExponent (f : FloatFormat) : Nat := 2 ^ f.exponentBits - 1

/-- The power of two that the last fraction bit of a subnormal counts. -/
def minExponent (f : FloatFormat) : Int :=
  2 - ((2 ^ (f.exponentBits - 1) : Nat) : Int) - f.fractionBits

/-- The pattern of positive infinity. -/
def infinityBits (f : FloatFormat) : Nat := f.topExponent * 2 ^ f.fractionBits

end FloatFormat

/-- A bit pattern of format `f`. -/
structure Floating (f : FloatFormat) where
  bits : Nat
  bits_lt : bits < 2 ^ f.width
deriving DecidableEq

/-- A single precision value. -/
abbrev Binary32 := Floating FloatFormat.single

/-- A double precision value. -/
abbrev Binary64 := Floating FloatFormat.double

/-- The magnitude of a pattern. -/
inductive Magnitude where
  /-- the number `significand * 2 ^ exponent` -/
  | finite (significand : Nat) (exponent : Int)
  | infinite
  | nan
deriving DecidableEq

namespace Floating

variable {f : FloatFormat}

/-- The pattern with these bits, bits beyond the width dropped. -/
def ofBits (f : FloatFormat) (bits : Nat) : Floating f :=
  ⟨bits % 2 ^ f.width, Nat.mod_lt _ (Nat.two_pow_pos _)⟩

/-- Positive zero. -/
def zero (f : FloatFormat) : Floating f := ofBits f 0

/-- The sign bit is set.  NaNs and zeros have a sign too. -/
def negative (x : Floating f) : Bool := decide (2 ^ f.magnitudeBits ≤ x.bits)

/-- The pattern without its sign bit. -/
def unsignedBits (x : Floating f) : Nat := x.bits % 2 ^ f.magnitudeBits

/-- The biased exponent. -/
def exponentField (x : Floating f) : Nat := x.unsignedBits / 2 ^ f.fractionBits

/-- The fraction bits. -/
def fraction (x : Floating f) : Nat := x.unsignedBits % 2 ^ f.fractionBits

/-- The magnitude that the pattern denotes. -/
def magnitude (x : Floating f) : Magnitude :=
  if x.exponentField = f.topExponent then
    if x.fraction = 0 then .infinite else .nan
  else if x.exponentField = 0 then
    .finite x.fraction f.minExponent
  else
    .finite (2 ^ f.fractionBits + x.fraction) (f.minExponent + (x.exponentField - 1 : Nat))

/-- The value is a number, neither infinite nor a NaN. -/
def isFinite (x : Floating f) : Bool :=
  match x.magnitude with
  | .finite _ _ => true
  | _ => false

/-- The value is no number at all. -/
def isNaN (x : Floating f) : Bool :=
  match x.magnitude with
  | .nan => true
  | _ => false

/-- The rank of a pattern in the total order: negative NaNs, negative numbers
from infinity to zero, then the positive ones in the opposite order. -/
def orderKey (x : Floating f) : Int :=
  if x.negative then -(x.unsignedBits : Int) - 1 else x.unsignedBits

/-- The two values are the same number. -/
def numericEq (x y : Floating f) : Bool :=
  !x.isNaN && !y.isNaN && (x.bits == y.bits || (x.unsignedBits == 0 && y.unsignedBits == 0))

/-- The value is below zero: a negative number or infinity. -/
def belowZero (x : Floating f) : Bool :=
  x.negative && !x.isNaN && x.unsignedBits != 0

/-! ## Rounding to a pattern -/

/-- `2 ^ e` as a numerator. -/
def powerUp (e : Int) : Nat := 2 ^ e.toNat

/-- `2 ^ e` as a denominator: `2 ^ e = powerUp e / powerDown e`. -/
def powerDown (e : Int) : Nat := 2 ^ (-e).toNat

/-- The greatest `e` with `2 ^ e ≤ num / den`. -/
def log2Quotient (num den : Nat) : Int :=
  let e : Int := (num.log2 : Int) - den.log2
  if den * powerUp e ≤ num * powerDown e then e else e - 1

/-- The pattern of the magnitude nearest to `num / den`, ties to the even
fraction; infinity when that exceeds every finite magnitude. -/
def nearestBits (f : FloatFormat) (num den : Nat) : Nat :=
  if num = 0 then 0
  else
    let e := max f.minExponent (log2Quotient num den - f.fractionBits)
    let significand := roundDiv .even (num * powerDown e) (den * powerUp e)
    min f.infinityBits ((e - f.minExponent).toNat * 2 ^ f.fractionBits + significand)

/-- The value nearest to `num / den`, or to its negative. -/
def nearest (f : FloatFormat) (negative : Bool) (num den : Nat) : Floating f :=
  ofBits f (nearestBits f num den + if negative then 2 ^ f.magnitudeBits else 0)

/-- The value nearest to an integer. -/
def ofInt (f : FloatFormat) (v : Int) : Floating f := nearest f (v < 0) v.natAbs 1

/-- A single read as a double.  Every single is a double; a NaN keeps its sign
and its fraction bits, and becomes quiet. -/
def toDouble (x : Binary32) : Binary64 :=
  let double := FloatFormat.double
  match x.magnitude with
  | .finite significand e =>
    nearest double x.negative (significand * powerUp e) (powerDown e)
  | .infinite =>
    ofBits double (double.infinityBits + if x.negative then 2 ^ double.magnitudeBits else 0)
  | .nan =>
    let quiet := 2 ^ (double.fractionBits - 1)
    let moved := x.fraction * 2 ^ (double.fractionBits - FloatFormat.single.fractionBits)
    ofBits double (double.infinityBits + (quiet ||| moved) +
      if x.negative then 2 ^ double.magnitudeBits else 0)

/-- The integer part of the magnitude, nothing for an infinity or a NaN. -/
def truncated? (x : Floating f) : Option Nat :=
  match x.magnitude with
  | .finite significand e => some (significand * powerUp e / powerDown e)
  | _ => none

end Floating

end ResultSet
