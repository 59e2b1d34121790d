import ResultSet.Text.Basic

/-!
# Decimal digits

The canonical digits of a natural number, the signed digits of an integer, and
the value of a digit string.  `value_ofNat` says that reading the digits of a
number gives the number.
-/

namespace ResultSet.Digits

/-- The decimal digits of `n`, most significant first, `0` for zero. -/
def ofNat (n : Nat) : Text := Nat.toDigits 10 n

/-- The digits of the magnitude behind a minus sign for a negative integer. -/
def ofInt (v : Int) : Text :=
  if v < 0 then '-' :: ofNat v.natAbs else ofNat v.natAbs

/-- The number that a string of decimal digits denotes. -/
def value (digits : Text) : Nat := Nat.ofDigitChars 10 digits 0

/-- Reading the digits of a number gives the number. -/
@[simp] theorem value_ofNat (n : Nat) : value (ofNat n) = n :=
  Nat.ofDigitChars_ten_toDigits

/-- The digits of `n` with as many zeros in front as `width` asks for. -/
def padded (width n : Nat) : Text :=
  let digits := ofNat n
  List.replicate (width - digits.length) '0' ++ digits

/-- Every character is a decimal digit. -/
def allDigits (text : Text) : Bool := text.all Char.isDigit

theorem allDigits_ofNat (n : Nat) : allDigits (ofNat n) = true := by
  simp only [allDigits, ofNat, List.all_eq_true]
  intro c hc
  exact Nat.isDigit_of_mem_toDigits (by decide) (by decide) hc

end ResultSet.Digits
