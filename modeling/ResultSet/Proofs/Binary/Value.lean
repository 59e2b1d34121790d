import Mathlib
import ResultSet.Binary.Basic

/-!
# The numbers that binary patterns stand for

`Floating.toRat` is the number that a finite pattern stands for, as a rational: nothing is rounded.

* `belowZero_iff` reads the sign of the number off the pattern; the two zeros have none.
* `truncated?_eq` is the integer part of the magnitude.
* `truncate` drops the fraction of a number with a sign.  `truncate_toRat` puts it together from the
  sign of the pattern and the integer part of the magnitude.
-/

namespace ResultSet

/-! ## Dropping the fraction -/

/-- The number without its fraction: the nearest integer on the side of zero. -/
def truncate (x : ℚ) : ℤ := if 0 ≤ x then ⌊x⌋ else ⌈x⌉

theorem truncate_eq (x : ℚ) : truncate x = if x < 0 then -(⌊|x|⌋₊ : ℤ) else ⌊|x|⌋₊ := by
  rw [truncate]
  by_cases hx : 0 ≤ x
  · rw [if_pos hx, if_neg (not_lt.2 hx), abs_of_nonneg hx, Int.natCast_floor_eq_floor hx]
  · have hneg : x < 0 := not_le.1 hx
    rw [if_neg hx, if_pos hneg, abs_of_neg hneg,
      Int.natCast_floor_eq_floor (neg_nonneg.2 hneg.le), Int.floor_neg, neg_neg]

/-- Nothing is left of a number between minus one and zero. -/
theorem truncate_neg_iff (x : ℚ) : truncate x < 0 ↔ x ≤ -1 := by
  rw [truncate]
  by_cases hx : 0 ≤ x
  · rw [if_pos hx]
    refine iff_of_false (not_lt.2 (Int.floor_nonneg.2 hx)) fun h => ?_
    linarith
  · rw [if_neg hx, ← Int.le_sub_one_iff, Int.ceil_le, zero_sub, Int.cast_neg, Int.cast_one]

namespace Floating

variable {f : FloatFormat} {x : Floating f}

/-! ## The number of a pattern -/

/-- The number that a finite pattern stands for. -/
def toRat (x : Floating f) : ℚ :=
  match x.magnitude with
  | .finite significand e => (if x.negative then -1 else 1) * (significand * 2 ^ e)
  | _ => 0

theorem exists_magnitude (h : x.isFinite = true) :
    ∃ significand e, x.magnitude = .finite significand e := by
  rw [isFinite] at h
  cases hmagnitude : x.magnitude with
  | finite significand e => exact ⟨significand, e, rfl⟩
  | infinite => simp [hmagnitude] at h
  | nan => simp [hmagnitude] at h

theorem toRat_eq {significand : Nat} {e : Int} (h : x.magnitude = .finite significand e) :
    x.toRat = (if x.negative then -1 else 1) * (significand * 2 ^ e) := by
  rw [toRat, h]

theorem abs_toRat {significand : Nat} {e : Int} (h : x.magnitude = .finite significand e) :
    |x.toRat| = significand * 2 ^ e := by
  have hsign : |(if x.negative then -1 else 1 : ℚ)| = 1 := by
    split <;> norm_num
  have hpos : (0 : ℚ) ≤ significand * 2 ^ e := by positivity
  rw [toRat_eq h, abs_mul, hsign, one_mul, abs_of_nonneg hpos]

/-- A finite pattern is zero if no bit but its sign is set. -/
theorem significand_eq_zero_iff {significand : Nat} {e : Int}
    (h : x.magnitude = .finite significand e) : significand = 0 ↔ x.unsignedBits = 0 := by
  have hsplit : 2 ^ f.fractionBits * x.exponentField + x.fraction = x.unsignedBits :=
    Nat.div_add_mod ..
  have hpow : 0 < 2 ^ f.fractionBits := Nat.two_pow_pos _
  rw [magnitude] at h
  split at h
  · split at h <;> cases h
  split at h
  · rename_i hsubnormal
    cases h
    rw [hsubnormal, Nat.mul_zero, Nat.zero_add] at hsplit
    rw [hsplit]
  · rename_i hnormal
    cases h
    have hle : 2 ^ f.fractionBits ≤ 2 ^ f.fractionBits * x.exponentField :=
      Nat.le_mul_of_pos_right _ (Nat.pos_of_ne_zero hnormal)
    refine iff_of_false ?_ ?_ <;> omega

/-- The sign of the number; the two zeros have none. -/
theorem belowZero_iff (h : x.isFinite = true) : x.belowZero = true ↔ x.toRat < 0 := by
  obtain ⟨significand, e, hmagnitude⟩ := exists_magnitude h
  have hnumber : x.isNaN = false := by rw [isNaN, hmagnitude]
  have hzero := significand_eq_zero_iff hmagnitude
  have hpow : (0 : ℚ) < 2 ^ e := by positivity
  rw [belowZero, hnumber, toRat_eq hmagnitude]
  by_cases hbits : x.unsignedBits = 0
  · simp [hbits, hzero.2 hbits]
  · have hpos : (0 : ℚ) < significand * 2 ^ e :=
      mul_pos (Nat.cast_pos.2 (Nat.pos_of_ne_zero fun hs => hbits (hzero.1 hs))) hpow
    cases x.negative with
    | true => simpa [hbits] using hpos
    | false => simpa [hbits] using hpos.le

/-- The number without its fraction has the sign of the pattern. -/
theorem truncate_toRat (h : x.isFinite = true) :
    truncate x.toRat = if x.belowZero then -(⌊|x.toRat|⌋₊ : ℤ) else ⌊|x.toRat|⌋₊ :=
  (truncate_eq x.toRat).trans (if_congr (belowZero_iff h).symm rfl rfl)

/-- A power of two as the quotient of two natural numbers. -/
theorem powerUp_div_powerDown (e : Int) : (powerUp e : ℚ) / powerDown e = 2 ^ e := by
  have htwo : (2 : ℚ) ≠ 0 := by norm_num
  have hsplit : e = (e.toNat : Int) - ((-e).toNat : Int) := by omega
  rw [powerUp, powerDown, Nat.cast_pow, Nat.cast_pow, Nat.cast_ofNat]
  conv_rhs => rw [hsplit, zpow_sub₀ htwo, zpow_natCast, zpow_natCast]

/-- The integer part of the magnitude. -/
theorem truncated?_eq (h : x.isFinite = true) : x.truncated? = some ⌊|x.toRat|⌋₊ := by
  obtain ⟨significand, e, hmagnitude⟩ := exists_magnitude h
  have hquotient : (significand : ℚ) * 2 ^ e =
      ((significand * powerUp e : ℕ) : ℚ) / (powerDown e : ℕ) := by
    rw [← powerUp_div_powerDown, Nat.cast_mul, mul_div_assoc]
  rw [truncated?, hmagnitude, abs_toRat hmagnitude, hquotient, Nat.floor_div_eq_div]

end Floating

end ResultSet
