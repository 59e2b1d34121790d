import ResultSet.Proofs.Decimal.FixedText
import ResultSet.Proofs.Decimal.Grammar

/-!
# Decimals in billionths and their own texts

The natural text of a decimal in billionths is its value in plain notation, without the zeros at
the end of the fraction (`naturalText_isPlain`).  So different values have different texts.

A text of a value is read as the value (`parse_of_isPlain`), the natural text and the ones with
nine fractional digits or more (`parse_naturalText`).  The exception is the smallest value: its
magnitude is no value, and its texts are refused.
-/

namespace ResultSet

namespace Billionths

/-! ## The natural text -/

/-- Dropping zeros at the end of the fraction keeps the value. -/
theorem trimFraction_spec (scale magnitude : ℕ) :
    (trimFraction scale magnitude).2 ≤ scale ∧
      (trimFraction scale magnitude).1 * 10 ^ (scale - (trimFraction scale magnitude).2) =
        magnitude ∧
      ((trimFraction scale magnitude).2 ≠ 0 → (trimFraction scale magnitude).1 % 10 ≠ 0) := by
  fun_induction trimFraction scale magnitude with
  | case1 magnitude => simp
  | case2 scale magnitude hzero ih =>
    obtain ⟨hle, hvalue, hlast⟩ := ih
    refine ⟨by omega, ?_, hlast⟩
    rw [Nat.succ_sub hle, Nat.pow_succ, ← Nat.mul_assoc, hvalue]
    omega
  | case3 scale magnitude hlast => simp [hlast]

theorem naturalText_isPlain (v : Billionths) :
    ∃ scaled : Scaled, IsPlain v.naturalText scaled ∧ scaled.toRat = v.toScaled.toRat ∧
      scaled.scale ≤ billionthsScale ∧ (scaled.scale ≠ 0 → scaled.digits.natAbs % 10 ≠ 0) := by
  obtain ⟨hscale, hvalue, hlast⟩ := trimFraction_spec billionthsScale v.raw.val.natAbs
  have htext : v.naturalText =
      placePoint (Digits.ofNat (trimFraction billionthsScale v.raw.val.natAbs).1)
        (trimFraction billionthsScale v.raw.val.natAbs).2 v.negative := rfl
  rw [htext]
  generalize (trimFraction billionthsScale v.raw.val.natAbs).1 = magnitude at *
  generalize (trimFraction billionthsScale v.raw.val.natAbs).2 = scale at *
  have hdigits : (if v.negative then -(magnitude : ℤ) else magnitude).natAbs = magnitude := by
    split <;> simp
  refine ⟨_, placePoint_ofNat magnitude scale v.negative, ?_, ?_, ?_⟩
  · have hpow : (10 : ℚ) ^ billionthsScale = 10 ^ (billionthsScale - scale) * 10 ^ scale := by
      rw [← pow_add, Nat.sub_add_cancel hscale]
    have hsame : (v.raw.val.natAbs : ℚ) / 10 ^ billionthsScale = magnitude / 10 ^ scale := by
      rw [← hvalue, hpow]
      push_cast
      field_simp
    rw [Scaled.toRat_eq_signed v.toScaled, toScaled, Scaled.toRat, ← negative, zpow_natCast,
      zpow_natCast, hsame]
    split
    · push_cast
      rw [neg_div]
    · push_cast
      rfl
  · exact Int.ofNat_le.2 hscale
  · intro hne
    rw [hdigits]
    exact hlast (by simpa using hne)

/-! ## Reading the texts of a value -/

/-- A whole number of billionths has zeros behind the ninth place. -/
theorem zeros_of_toRat {n : Spelling} {raw : ℤ} (h : (raw : ℚ) = n.toScaled.toRat * oneBillion) :
    ∀ c ∈ n.places.drop billionthsScale, c = '0' := by
  have hplaces : Digits.allDigits (n.places.take billionthsScale ++
      n.places.drop billionthsScale) = true := by
    rw [List.take_append_drop]
    exact n.fraction_digits
  rw [Digits.allDigits_append, Bool.and_eq_true] at hplaces
  rcases Nat.le_total n.places.length billionthsScale with hle | hge
  · simp [List.drop_eq_nil_of_le hle]
  have hvalue : Digits.value (n.whole ++ n.places) =
      raw.natAbs * 10 ^ (n.places.length - billionthsScale) := by
    have hnat := congrArg Int.natAbs (eq_toRat_mul_iff.1 h)
    rw [Int.natAbs_mul, Int.natAbs_mul, n.natAbs_digits, Int.natAbs_pow, Int.natAbs_natCast,
      ← Nat.sub_add_cancel hge, Nat.pow_add, ← Nat.mul_assoc] at hnat
    exact (Nat.eq_of_mul_eq_mul_right (by decide : 0 < oneBillion) hnat).symm
  have hsplit : n.whole ++ n.places = n.whole ++ n.places.take billionthsScale ++
      n.places.drop billionthsScale := by
    rw [List.append_assoc, List.take_append_drop]
  have hmod := (Digits.value_append_div_mod (n.whole ++ n.places.take billionthsScale) hplaces.2).2
  rw [← hsplit, hvalue, List.length_drop, Nat.mul_mod_left] at hmod
  exact (Digits.value_eq_zero_iff hplaces.2).1 hmod.symm

/-- The value below all others, the only one whose magnitude is no value. -/
def smallest : Billionths :=
  ⟨⟨-170141183460469231731687303715884105728, by decide, by decide⟩⟩

theorem eq_of_val_eq {v w : Billionths} (h : v.raw.val = w.raw.val) : v = w := by
  cases v
  cases w
  exact congrArg mk (Signed.ext h)

theorem eq_smallest_iff {v : Billionths} : v = smallest ↔ ¬|v.raw.val| < 2 ^ (127 : ℕ) := by
  have hmin : -(2 ^ (127 : ℕ) : ℤ) ≤ v.raw.val := v.raw.min_le
  have hmax : v.raw.val < 2 ^ (127 : ℕ) := v.raw.lt_max
  have hval : v = smallest ↔ v.raw.val = -(2 ^ (127 : ℕ) : ℤ) := by
    constructor
    · rintro rfl
      rfl
    · intro h
      exact eq_of_val_eq h
  rw [hval, abs_lt]
  omega

theorem toRat_mul_oneBillion (v : Billionths) : v.toScaled.toRat * oneBillion = v.raw.val := by
  have hbillion : (oneBillion : ℚ) = 10 ^ billionthsScale := by norm_num [oneBillion]
  rw [Scaled.toRat, toScaled, zpow_natCast, hbillion]
  exact div_mul_cancel₀ _ (by positivity)

/-- A spelling of a value is its literal, unless the value is the smallest. -/
theorem isLiteral_iff {n : Spelling} {v : Billionths} (h : n.toScaled.toRat = v.toScaled.toRat) :
    IsLiteral n.text n ↔ v ≠ smallest := by
  have hraw : (v.raw.val : ℚ) = n.toScaled.toRat * oneBillion := by rw [h, toRat_mul_oneBillion]
  have hbillion : (0 : ℚ) ≤ oneBillion := Nat.cast_nonneg _
  have hmagnitude : |n.toScaled.toRat| * oneBillion = (|v.raw.val| : ℤ) := by
    rw [Int.cast_abs, hraw, abs_mul, abs_of_nonneg hbillion]
  have hbound : |n.toScaled.toRat| * oneBillion ≤ 2 ^ (127 : ℕ) - 1 ↔
      |v.raw.val| < 2 ^ (127 : ℕ) := by
    rw [hmagnitude, le_sub_iff_add_le, ← Int.add_one_le_iff]
    exact_mod_cast Iff.rfl
  rw [Ne, eq_smallest_iff, not_not, ← hbound]
  exact ⟨fun hn => hn.magnitude_le, fun hle => ⟨n.trim_text, zeros_of_toRat hraw, hle⟩⟩

/-- A value is read from its plain notation, with any number of digits behind the point. -/
theorem parse_of_isPlain {text : Text} {scaled : Scaled} {v : Billionths}
    (h : IsPlain text scaled) (hvalue : scaled.toRat = v.toScaled.toRat) :
    parse text = if v = smallest then .error (.invalidLiteral text) else .ok v := by
  obtain ⟨n, -, rfl, rfl⟩ := h
  split
  · rename_i hsmallest
    refine parse_eq_error_iff.2 fun w hw => ?_
    obtain ⟨m, hm, -⟩ := parse_eq_ok_iff.1 hw
    obtain rfl : m = n := Spelling.text_injective (hm.trim_eq.symm.trans n.trim_text)
    exact (isLiteral_iff hvalue).1 hm hsmallest
  · rename_i hother
    refine parse_eq_ok_iff.2 ⟨n, (isLiteral_iff hvalue).2 hother, ?_⟩
    rw [hvalue, toRat_mul_oneBillion]

/-- Nine fractional digits and more show the value unrounded. -/
theorem fixedText_isPlain_unrounded (v : Billionths) (extra : ℕ) :
    IsPlain (v.fixedText (billionthsScale + extra))
      ⟨v.raw.val * 10 ^ extra, billionthsScale + extra⟩ := by
  obtain ⟨n, hn, hplain⟩ := v.fixedText_isPlain (billionthsScale + extra)
  have hwhole : v.toScaled.toRat * 10 ^ (billionthsScale + extra) =
      ((v.raw.val * 10 ^ extra : ℤ) : ℚ) := by
    have hbillion : (10 : ℚ) ^ billionthsScale = oneBillion := by norm_num [oneBillion]
    rw [pow_add, ← mul_assoc, hbillion, toRat_mul_oneBillion]
    push_cast
    rfl
  rw [hwhole] at hn
  rw [hn.unique (RoundsTo.intCast _)] at hplain
  exact_mod_cast hplain

/-- The texts of a value are read as the value, both the natural one and those with nine fractional
digits or more.  The exception is the smallest value, whose texts are refused.  The natural text
is plain notation with no zero and no point at its end, and determines the value. -/
theorem parse_naturalText (v : Billionths) :
    parse v.naturalText =
      (if v = smallest then .error (.invalidLiteral v.naturalText) else .ok v) ∧
    (∀ extra : ℕ, parse (v.fixedText (billionthsScale + extra)) =
      if v = smallest then .error (.invalidLiteral (v.fixedText (billionthsScale + extra)))
      else .ok v) ∧
    (∃ scaled : Scaled, IsPlain v.naturalText scaled ∧ scaled.toRat = v.toScaled.toRat ∧
      scaled.scale ≤ billionthsScale ∧
      (scaled.scale ≠ 0 → v.naturalText.getLast? ≠ some '0') ∧
      v.naturalText.getLast? ≠ some '.') ∧
    ∀ w : Billionths, v.naturalText = w.naturalText → v = w := by
  obtain ⟨scaled, hplain, hvalue, hscale, hlast⟩ := v.naturalText_isPlain
  obtain ⟨c, hc, hdigit, hvalueLast⟩ := hplain.exists_getLast?
  refine ⟨parse_of_isPlain hplain hvalue, fun extra => ?_,
    ⟨scaled, hplain, hvalue, hscale, fun hne hzero => ?_, fun hpoint => ?_⟩, fun w hw => ?_⟩
  · refine parse_of_isPlain (v.fixedText_isPlain_unrounded extra) ?_
    exact Scaled.toRat_shift v.raw.val billionthsScale extra
  · obtain rfl : c = '0' := by simpa [hc] using hzero
    exact hlast hne hvalueLast
  · obtain rfl : c = '.' := by simpa [hc] using hpoint
    cases hdigit
  · obtain ⟨scaled', hplain', hvalue', -⟩ := w.naturalText_isPlain
    rw [hw] at hplain
    have hraw : (v.raw.val : ℚ) = w.raw.val := by
      rw [← toRat_mul_oneBillion, ← toRat_mul_oneBillion, ← hvalue, ← hvalue',
        hplain.unique hplain']
    exact eq_of_val_eq (by exact_mod_cast hraw)

/-- The natural text of the smallest value is refused. -/
theorem parse_naturalText_smallest :
    smallest.naturalText = "-170141183460469231731687303715.884105728".toList ∧
      parse smallest.naturalText = .error (.invalidLiteral smallest.naturalText) := by
  constructor
  · decide +kernel
  · obtain ⟨scaled, hplain, hvalue, -⟩ := smallest.naturalText_isPlain
    rw [parse_of_isPlain hplain hvalue, if_pos rfl]

end Billionths

end ResultSet
