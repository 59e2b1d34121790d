import ResultSet.Number.Sized
import ResultSet.Text.Basic

/-!
# Text of large integers

A 128-bit integer is written into a scratch buffer from its end backwards, so
its text is a suffix of the buffer.
-/

namespace ResultSet

namespace LargeInt

/-- Size of the scratch buffer. -/
def capacity : Nat := 48

/-- The ASCII digit of the last decimal place. -/
def lastDigit (n : Nat) : UInt8 := UInt8.ofNat (48 + n % 10)

/-- Writes the digits of `n` in front of position `pos` and returns the position
of the first one; nothing when they do not fit. -/
def writeDigits : (pos n : Nat) → Bytes → Option (Nat × Bytes)
  | 0, _, _ => none
  | pos + 1, n, buffer =>
    let buffer := buffer.set pos (lastDigit n)
    if n / 10 = 0 then some (pos, buffer) else writeDigits pos (n / 10) buffer

/-- Writes a minus sign in front of position `pos`, for a negative number. -/
def writeSign (negative : Bool) : (pos : Nat) → Bytes → Option (Nat × Bytes)
  | pos, buffer =>
    if negative then
      match pos with
      | 0 => none
      | pos + 1 => some (pos, buffer.set pos 45)
    else some (pos, buffer)

/-- The text of `v`, written into a buffer whose old content is overwritten. -/
def render (v : Int) (buffer : Bytes) : Option Bytes :=
  (writeDigits capacity v.natAbs buffer).bind fun (pos, buffer) =>
    (writeSign (decide (v < 0)) pos buffer).map fun (pos, buffer) => buffer.drop pos

/-- The text of `v`. -/
def bytes (v : Signed 128) : Bytes := (render v.val (List.replicate capacity 0)).getD []

end LargeInt

end ResultSet
