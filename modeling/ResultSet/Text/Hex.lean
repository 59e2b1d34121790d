import ResultSet.Text.Basic

/-!
# Hexadecimal text
-/

namespace ResultSet

namespace Hex

/-- The two digits of a byte. -/
def ofByte (b : UInt8) : Text := [Nat.digitChar (b.toNat / 16), Nat.digitChar (b.toNat % 16)]

/-- The digits of bytes, in order. -/
def ofBytes (bytes : Bytes) : Text := bytes.flatMap ofByte

/-- The digits of a number, with as many zeros in front as `width` asks for. -/
def ofNat (width n : Nat) : Text :=
  let digits := Nat.toDigits 16 n
  List.replicate (width - digits.length) '0' ++ digits

/-- The value of a digit. -/
def digit? (c : Char) : Option Nat :=
  if c.isDigit then some (c.toNat - '0'.toNat)
  else if 'a' ≤ c ∧ c ≤ 'f' then some (c.toNat - 'a'.toNat + 10)
  else if 'A' ≤ c ∧ c ≤ 'F' then some (c.toNat - 'A'.toNat + 10)
  else none

/-- The number that digits stand for. -/
def value? (digits : Text) : Option Nat :=
  digits.foldlM (fun n c => (digit? c).map (n * 16 + ·)) 0

end Hex

end ResultSet
