import ResultSet.Decimal.Billionths
import ResultSet.Decimal.Wide
import ResultSet.Proofs.Decimal.Spelling
import ResultSet.Proofs.Decimal.Value
import ResultSet.Proofs.Number.Rounding

/-!
# Decimals with a given number of fractional digits

`Billionths.fixedText` and `WideDecimal.fixedText` work differently: one divides a word and pads
digits, the other scales a number of any size up or down.  Both give the plain notation of the
value rounded to the digits asked for, a half away from zero (`fixedText_isPlain`), so equal
values have equal texts whatever they are stored as (`fixedText_rounds`).

The words of the first stay within 128 bits (`fixedTextInWord?_rounded`), and the scale of the second
needs no clamping (`WideDecimal.clampedScale_eq`).
-/

namespace ResultSet

/-! ## Sign and magnitude -/

namespace Scaled

/-- The number by its sign and its magnitude. -/
theorem toRat_eq_signed (v : Scaled) :
    v.toRat =
      if decide (v.digits < 0) then -((v.digits.natAbs : ℚ) / 10 ^ v.scale)
      else v.digits.natAbs / 10 ^ v.scale := by
  rcases lt_or_ge v.digits 0 with hneg | hpos
  · have habs : (v.digits : ℚ) = -(v.digits.natAbs : ℚ) := by
      rw [Nat.cast_natAbs, abs_of_neg hneg]
      simp
    rw [toRat, if_pos (decide_eq_true hneg), habs, neg_div]
  · have habs : (v.digits : ℚ) = v.digits.natAbs := by
      rw [Nat.cast_natAbs, abs_of_nonneg hpos]
    rw [toRat, if_neg (by simpa using hpos), habs]

/-- Taking a scale below zero out of the power keeps the magnitude. -/
theorem unscaled_eq (v : Scaled) :
    (v.unscaled.1 : ℚ) / 10 ^ v.unscaled.2 = v.digits.natAbs / 10 ^ v.scale := by
  unfold unscaled
  split
  · rename_i hscale
    obtain ⟨scale, hnat⟩ := Int.eq_ofNat_of_zero_le hscale
    simp [hnat]
  · rename_i hscale
    obtain ⟨shift, hnat⟩ := Int.exists_eq_neg_ofNat (le_of_lt (not_le.1 hscale))
    simp [hnat, zpow_neg]

end Scaled

/-! ## Rounded to a scale -/

/-- Digits are dropped with a rounded quotient, and added with zeros. -/
theorem roundsTo_rescaled (magnitude current scale : ℕ) :
    RoundsTo ((magnitude : ℚ) / 10 ^ current * 10 ^ scale)
      ((if scale < current then roundDiv .up magnitude (10 ^ (current - scale))
        else magnitude * 10 ^ (scale - current) : ℕ) : ℤ) := by
  have hten : (10 : ℚ) ≠ 0 := by norm_num
  split
  · rename_i hlt
    have hvalue : (magnitude : ℚ) / 10 ^ current * 10 ^ scale =
        magnitude / ((10 ^ (current - scale) : ℕ) : ℚ) := by
      have hpow : (10 : ℚ) ^ current = 10 ^ (current - scale) * 10 ^ scale := by
        rw [← pow_add, Nat.sub_add_cancel (Nat.le_of_lt hlt)]
      push_cast
      rw [hpow]
      field_simp
    rw [hvalue]
    exact roundsTo_roundDiv magnitude (Nat.pow_pos (by decide))
  · rename_i hle
    have hvalue : (magnitude : ℚ) / 10 ^ current * 10 ^ scale =
        ((magnitude * 10 ^ (scale - current) : ℕ) : ℚ) := by
      have hpow : (10 : ℚ) ^ scale = 10 ^ (scale - current) * 10 ^ current := by
        rw [← pow_add, Nat.sub_add_cancel (not_lt.1 hle)]
      push_cast
      rw [hpow]
      field_simp
    rw [hvalue]
    exact_mod_cast RoundsTo.intCast (magnitude * 10 ^ (scale - current) : ℕ)

namespace WideDecimal

theorem clampedScale_eq (v : WideDecimal) : v.clampedScale = v.scale := by
  have hscale := v.scale_le
  unfold clampedScale
  omega

theorem unscaled_eq (v : WideDecimal) : v.unscaled = v.toScaled.unscaled := by
  rw [unscaled, clampedScale_eq]

theorem fixedText_isPlain (v : WideDecimal) (scale : ℕ) :
    ∃ n : ℤ, RoundsTo (v.toRat * 10 ^ scale) n ∧ IsPlain (v.fixedText scale) ⟨n, scale⟩ := by
  have hrounds := (roundsTo_rescaled v.unscaled.1 v.unscaled.2 scale).signed v.negative
  have hvalue : v.toRat * 10 ^ scale =
      if v.negative then -((v.unscaled.1 : ℚ) / 10 ^ v.unscaled.2 * 10 ^ scale)
      else v.unscaled.1 / 10 ^ v.unscaled.2 * 10 ^ scale := by
    rw [Scaled.toRat_eq_signed, unscaled_eq, Scaled.unscaled_eq, negative, ite_mul, neg_mul]
  rw [← hvalue] at hrounds
  exact ⟨_, hrounds, placePoint_ofNat _ scale v.negative⟩

end WideDecimal

namespace Billionths

/-- The value as an integer with nine fractional digits. -/
def toScaled (v : Billionths) : Scaled := ⟨v.raw.val, billionthsScale⟩

theorem unsignedWord?_bind {α : Type} {n : Nat} (h : n < 2 ^ (128 : Nat))
    (next : Nat → Option α) : (unsignedWord? n >>= next) = next n := by
  have hword : unsignedWord? n = some n := by simp [unsignedWord?, Unsigned.ofNat?, h]
  rw [hword]
  rfl

/-- No step leaves the word, and the quotient is the rounded one. -/
theorem fixedTextInWord?_rounded (v : Billionths) (scale : Nat) :
    v.fixedTextInWord? scale = some
      (if scale ≤ billionthsScale then
        placePoint (Digits.ofNat (roundDiv .up v.raw.val.natAbs (10 ^ (billionthsScale - scale))))
          scale v.negative
      else
        placePoint (Digits.ofNat v.raw.val.natAbs ++ List.replicate (scale - billionthsScale) '0')
          scale v.negative) := by
  have hmagnitude : v.raw.val.natAbs ≤ 2 ^ (127 : Nat) := by
    have hmin := v.raw.min_le
    have hmax := v.raw.lt_max
    omega
  have hdivisor : 10 ^ (billionthsScale - scale) ≤ 10 ^ (9 : Nat) :=
    Nat.pow_le_pow_right (by decide) (Nat.sub_le _ _)
  have hpos : 0 < 10 ^ (billionthsScale - scale) := Nat.pow_pos (by decide)
  rw [fixedTextInWord?, unsignedWord?_bind (by omega)]
  split
  · rw [roundDiv_up]
    generalize 10 ^ (billionthsScale - scale) = divisor at hdivisor hpos ⊢
    have hrest := Nat.mod_lt v.raw.val.natAbs hpos
    have hquotient := Nat.div_le_self v.raw.val.natAbs divisor
    rw [unsignedWord?_bind (by omega), unsignedWord?_bind (by omega)]
    split
    · rw [unsignedWord?_bind (by omega)]
      rfl
    · rfl
  · rfl

theorem fixedTextInWord?_eq (v : Billionths) (scale : Nat) :
    v.fixedTextInWord? scale = some (v.fixedText scale) := by
  rw [fixedText, fixedTextInWord?_rounded, Option.getD_some]

theorem fixedText_isPlain (v : Billionths) (scale : ℕ) :
    ∃ n : ℤ, RoundsTo (v.toScaled.toRat * 10 ^ scale) n ∧
      IsPlain (v.fixedText scale) ⟨n, scale⟩ := by
  have hrounds := (roundsTo_rescaled v.raw.val.natAbs billionthsScale scale).signed v.negative
  have hvalue : v.toScaled.toRat * 10 ^ scale =
      if v.negative then -((v.raw.val.natAbs : ℚ) / 10 ^ billionthsScale * 10 ^ scale)
      else v.raw.val.natAbs / 10 ^ billionthsScale * 10 ^ scale := by
    rw [Scaled.toRat_eq_signed, toScaled, negative, ite_mul, neg_mul, zpow_natCast]
  rw [← hvalue] at hrounds
  refine ⟨_, hrounds, ?_⟩
  rw [fixedText, fixedTextInWord?_rounded, Option.getD_some]
  split
  · rename_i hle
    rcases Nat.lt_or_eq_of_le hle with hlt | rfl
    · rw [if_pos hlt]
      exact placePoint_ofNat _ scale v.negative
    · have hone : roundDiv .up v.raw.val.natAbs 1 = v.raw.val.natAbs := by
        rw [roundDiv_up]
        simp [Nat.mod_one]
      rw [if_neg (lt_irrefl _), Nat.sub_self, Nat.pow_zero, hone, Nat.mul_one]
      exact placePoint_ofNat _ billionthsScale v.negative
  · rename_i hlt
    have hge : ¬scale < billionthsScale := by omega
    have hwhole := Digits.isWhole_ofNat v.raw.val.natAbs
    have hhead : (Digits.ofNat v.raw.val.natAbs ++
        List.replicate (scale - billionthsScale) '0').head? = some '0' →
        (Digits.ofNat v.raw.val.natAbs ++
          List.replicate (scale - billionthsScale) '0').length ≤ max scale 1 := by
      intro h
      rw [List.head?_append_of_ne_nil _ hwhole.ne_nil] at h
      have hnine : billionthsScale = 9 := rfl
      rw [hwhole.head h, List.length_append, List.length_replicate, List.length_singleton]
      omega
    have hplain := placePoint_isPlain scale v.negative
      (by simp [hwhole.all_digits]) (by simp [hwhole.ne_nil]) hhead
    rw [Digits.value_append, Digits.value_ofNat, Digits.value_replicate_zero,
      List.length_replicate, Nat.add_zero] at hplain
    rwa [if_neg hge]

end Billionths

/-- Decimals have their value rounded to the digits asked for as their text, in plain notation and
with a half rounded away from zero.  So equal values have equal texts, whether they count
billionths or carry a scale of their own.  The words that the former is computed in do not
overflow, and the scale of the latter is not clamped. -/
theorem fixedText_rounds (scale : ℕ) :
    (∀ v : Billionths, v.fixedTextInWord? scale = some (v.fixedText scale) ∧
      ∃ n : ℤ, RoundsTo (v.toScaled.toRat * 10 ^ scale) n ∧
        IsPlain (v.fixedText scale) ⟨n, scale⟩) ∧
    (∀ w : WideDecimal, w.clampedScale = w.scale ∧
      ∃ n : ℤ, RoundsTo (w.toRat * 10 ^ scale) n ∧ IsPlain (w.fixedText scale) ⟨n, scale⟩) ∧
    ∀ (v : Billionths) (w : WideDecimal), v.toScaled.toRat = w.toRat →
      v.fixedText scale = w.fixedText scale := by
  refine ⟨fun v => ⟨v.fixedTextInWord?_eq scale, v.fixedText_isPlain scale⟩,
    fun w => ⟨w.clampedScale_eq, w.fixedText_isPlain scale⟩, fun v w hvalue => ?_⟩
  obtain ⟨n, hn, hv⟩ := v.fixedText_isPlain scale
  obtain ⟨m, hm, hw⟩ := w.fixedText_isPlain scale
  rw [hvalue] at hn
  rw [hn.unique hm] at hv
  exact hv.text_unique hw

end ResultSet
