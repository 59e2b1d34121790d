import ResultSet.Text.Basic

/-!
# Bytes read as text

`Text.ofBytes` reads bytes as UTF-8.  Where they are not UTF-8, each longest run
of bytes that begins some character but does not complete one becomes a single
replacement character.
-/

namespace ResultSet

namespace Utf8

/-- The replacement character. -/
def replacement : Char := '\ufffd'

/-- Where a byte of a character has to lie. -/
abbrev ByteRange := Nat × Nat

/-- Any continuation byte. -/
def continuation : ByteRange := (0x80, 0xBF)

/-- The payload of the first byte of a longer character, and the ranges of the
bytes that follow it. -/
def lead? (b : Nat) : Option (Nat × List ByteRange) :=
  if 0xC2 ≤ b ∧ b ≤ 0xDF then some (b - 0xC0, [continuation])
  else if b = 0xE0 then some (0, [(0xA0, 0xBF), continuation])
  else if b = 0xED then some (0xD, [(0x80, 0x9F), continuation])
  else if 0xE1 ≤ b ∧ b ≤ 0xEF then some (b - 0xE0, [continuation, continuation])
  else if b = 0xF0 then some (0, [(0x90, 0xBF), continuation, continuation])
  else if 0xF1 ≤ b ∧ b ≤ 0xF3 then
    some (b - 0xF0, [continuation, continuation, continuation])
  else if b = 0xF4 then some (4, [(0x80, 0x8F), continuation, continuation])
  else none

/-- Reads one byte for each range.  The code point is missing when a byte is out
of its range, and the rest then begins with that byte. -/
def follow : List ByteRange → Nat → Bytes → Option Nat × Bytes
  | [], code, rest => (some code, rest)
  | _ :: _, _, [] => (none, [])
  | range :: ranges, code, b :: rest =>
    if range.1 ≤ b.toNat ∧ b.toNat ≤ range.2 then
      follow ranges (code * 64 + b.toNat % 64) rest
    else (none, b :: rest)

theorem length_follow_le (ranges : List ByteRange) (code : Nat) (rest : Bytes) :
    (follow ranges code rest).2.length ≤ rest.length := by
  induction ranges generalizing code rest with
  | nil => simp [follow]
  | cons range ranges ih =>
    cases rest with
    | nil => simp [follow]
    | cons b rest =>
      simp only [follow]
      split
      · exact Nat.le_trans (ih _ _) (by simp)
      · simp

end Utf8

open Utf8 in
/-- The text that the bytes denote, with replacement characters for what is not
UTF-8. -/
def Text.ofBytes : Bytes → Text
  | [] => []
  | b :: rest =>
    if b.toNat < 0x80 then Char.ofNat b.toNat :: Text.ofBytes rest
    else
      match lead? b.toNat with
      | none => replacement :: Text.ofBytes rest
      | some (code, ranges) =>
        ((follow ranges code rest).1.map Char.ofNat).getD replacement ::
          Text.ofBytes (follow ranges code rest).2
termination_by bytes => bytes.length
decreasing_by
  · exact Nat.lt_succ_self rest.length
  · exact Nat.lt_succ_self rest.length
  · exact Nat.lt_succ_of_le (length_follow_le ranges code rest)

end ResultSet
