import ResultSet.Binary.Basic
import ResultSet.Number.Digits

/-!
# Durations as a time of day

A duration is a floating-point number of seconds.  It is written as hours,
minutes and whole seconds; the hours do not stop at 24.
-/

namespace ResultSet

namespace TimeOfDay

/-- The largest number of seconds that is written. -/
def maxSeconds : Nat := 2 ^ (63 : Nat) - 1

/-- The whole seconds of the magnitude, at most `maxSeconds`, none for a NaN. -/
def wholeSeconds (seconds : Binary64) : Nat :=
  match seconds.truncated? with
  | some n => min n maxSeconds
  | none => if seconds.isNaN then 0 else maxSeconds

/-- The text `[-]HH:MM:SS`; a duration below zero has a minus sign. -/
def text (seconds : Binary64) : Text :=
  let total := wholeSeconds seconds
  (if seconds.belowZero then ['-'] else []) ++ Digits.padded 2 (total / 3600) ++ [':'] ++
    Digits.padded 2 (total / 60 % 60) ++ [':'] ++ Digits.padded 2 (total % 60)

end TimeOfDay

end ResultSet
