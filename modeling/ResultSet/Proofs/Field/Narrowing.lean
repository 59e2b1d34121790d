import ResultSet.Field.Compare
import ResultSet.Proofs.Decimal.WideText

/-!
# Wide decimals as fields

A wide decimal whose digits and scale are those of a decimal in a word of 128 bits
(`WideDecimal.FitsWord`) becomes that decimal, and another one its natural text.  Either stands for
the number (`Field.ofWideDecimal_standsFor`).

Fields of equal decimals are the same value if both decimals fit.  A number that no word of 128
bits stands for (`WideDecimal.IsWordNumber`) is kept as its text, which has as many digits behind
the point as the decimal has itself; so there the digits behind the point have to agree as well:
`Field.sameValue_ofWideDecimal`.
-/

namespace ResultSet

theorem Scaled.eq_of_toRat_eq {left right : Scaled} (hscale : left.scale = right.scale)
    (h : left.toRat = right.toRat) : left = right := by
  obtain ⟨digits, scale⟩ := left
  obtain ⟨other, otherScale⟩ := right
  obtain rfl : scale = otherScale := hscale
  have hcmp := Scaled.cmp_toRat digits other scale
  rw [h, cmp_self_eq_eq, eq_comm, Int.compare_eq_eq] at hcmp
  rw [hcmp]

namespace WideDecimal

/-- Digits and scale are those of a decimal in a word of 128 bits. -/
structure FitsWord (v : WideDecimal) : Prop where
  digits : ∃ word : Signed 128, word.val = v.digits
  scale_nonneg : 0 ≤ v.scale
  scale_le : v.scale ≤ maxWordPower

/-- A word of 128 bits with at most 38 digits behind the point stands for the number. -/
def IsWordNumber (v : WideDecimal) : Prop :=
  ∃ (word : Signed 128) (scale : ℕ), scale ≤ maxWordPower ∧ v.toRat = word.val / 10 ^ scale

theorem FitsWord.isWordNumber {v : WideDecimal} (h : v.FitsWord) : v.IsWordNumber := by
  obtain ⟨word, hword⟩ := h.digits
  have hscale : (v.scale.toNat : ℤ) = v.scale := Int.toNat_of_nonneg h.scale_nonneg
  have hle := h.scale_le
  refine ⟨word, v.scale.toNat, by omega, ?_⟩
  rw [Scaled.toRat, hword, ← zpow_natCast, hscale]

/-- Equal numbers have the same natural text if they have as many digits behind the point. -/
theorem naturalText_eq_iff {v w : WideDecimal} (h : v.toRat = w.toRat) :
    v.naturalText = w.naturalText ↔ max 0 v.scale = max 0 w.scale := by
  rw [v.naturalText_isPlain.text_eq_iff w.naturalText_isPlain]
  constructor
  · intro hnumber
    exact congrArg Scaled.scale hnumber
  · intro hscale
    exact Scaled.eq_of_toRat_eq hscale (by rw [writtenOut_toRat, writtenOut_toRat, h])

end WideDecimal

namespace Field

theorem ofWideDecimal_of_fits {v : WideDecimal} (h : v.FitsWord) :
    ∃ d : FixedDecimal .w128, ofWideDecimal v = .decimal .w128 d ∧ d.toScaled = v.toScaled := by
  obtain ⟨word, hword⟩ := h.digits
  have hscale : (v.scale.toNat : ℤ) = v.scale := Int.toNat_of_nonneg h.scale_nonneg
  have hle : v.scale.toNat ≤ maxWordPower := by
    have hle := h.scale_le
    omega
  have hpower : maxWordPower < 2 ^ (32 : Nat) := by decide
  let scale : Unsigned 32 := ⟨v.scale.toNat, Nat.lt_of_le_of_lt hle hpower⟩
  have hdigitsWord : Signed.ofInt? 128 v.digits = some word := Signed.ofInt?_eq_some_iff.2 hword
  have hscaleWord : Unsigned.ofNat? 32 v.scale.toNat = some scale :=
    Unsigned.ofNat?_eq_some_iff.2 rfl
  refine ⟨⟨word, scale⟩, ?_, ?_⟩
  · rw [ofWideDecimal, if_pos ⟨h.scale_nonneg, h.scale_le⟩, hdigitsWord, hscaleWord]
  · rw [FixedDecimal.toScaled, hword]
    exact congrArg (Scaled.mk v.digits) hscale

theorem ofWideDecimal_of_not_fits {v : WideDecimal} (h : ¬v.FitsWord) :
    ofWideDecimal v = .string v.naturalText.utf8 := by
  unfold ofWideDecimal
  split
  · rename_i hscale
    have hdigits : Signed.ofInt? 128 v.digits = none := by
      refine Option.eq_none_iff_forall_ne_some.2 fun word hword => h ⟨?_, hscale.1, hscale.2⟩
      exact ⟨word, Signed.val_of_ofInt? hword⟩
    rw [hdigits]
    rfl
  · rfl

/-- The field is a decimal, or the text of one, and stands for the number. -/
inductive StandsFor (number : ℚ) : Field → Prop
  | decimal {w : DecimalWidth} (d : FixedDecimal w) : d.toRat = number →
      StandsFor number (decimal w d)
  | text {text : Text} (plain : Scaled) : IsPlain text plain → plain.toRat = number →
      StandsFor number (string text.utf8)

theorem ofWideDecimal_standsFor (v : WideDecimal) : StandsFor v.toRat (ofWideDecimal v) := by
  by_cases h : v.FitsWord
  · obtain ⟨d, hd, hscaled⟩ := ofWideDecimal_of_fits h
    exact hd ▸ .decimal d (by rw [← FixedDecimal.toScaled_toRat, hscaled])
  · exact ofWideDecimal_of_not_fits h ▸ .text v.writtenOut v.naturalText_isPlain v.writtenOut_toRat

/-! ## Fields of equal numbers -/

theorem sameValue_ofWideDecimal_of_fits {v w : WideDecimal} (hv : v.FitsWord) (hw : w.FitsWord)
    (h : v.toRat = w.toRat) : (ofWideDecimal v).sameValue (ofWideDecimal w) = .ok true := by
  obtain ⟨d, hd, hdv⟩ := ofWideDecimal_of_fits hv
  obtain ⟨e, he, hew⟩ := ofWideDecimal_of_fits hw
  have hsame : d.sameValue e = true := by
    rw [FixedDecimal.sameValue_iff_toRat, ← FixedDecimal.toScaled_toRat,
      ← FixedDecimal.toScaled_toRat, hdv, hew, h]
  rw [hd, he, sameValue, hsame]
  rfl

theorem sameValue_ofWideDecimal_of_not_fits {v w : WideDecimal} (hv : ¬v.FitsWord)
    (hw : ¬w.FitsWord) (h : v.toRat = w.toRat) :
    (ofWideDecimal v).sameValue (ofWideDecimal w) =
      .ok (decide (max 0 v.scale = max 0 w.scale)) := by
  have htext : v.naturalText.utf8 = w.naturalText.utf8 ↔ max 0 v.scale = max 0 w.scale := by
    rw [Text.utf8_inj_of_ascii v.naturalText_isPlain.isAscii w.naturalText_isPlain.isAscii,
      WideDecimal.naturalText_eq_iff h]
  rw [ofWideDecimal_of_not_fits hv, ofWideDecimal_of_not_fits hw, sameValue]
  congr 1
  rw [Bool.eq_iff_iff, beq_iff_eq, decide_eq_true_iff, htext]

/-- The field stands for the number.  Two equal numbers whose digits and scales fit a word are fields
of the same value.  Two equal numbers that no word stands for are so if they have as many digits
behind the point, and only then.  A decimal that fits is kept with its digits and its scale.  A
number that no word stands for is kept as its natural text, in plain notation and exact. -/
theorem sameValue_ofWideDecimal {v w : WideDecimal} (h : v.sameValue w = true) :
    StandsFor v.toRat (ofWideDecimal v) ∧
      (v.FitsWord → w.FitsWord → (ofWideDecimal v).sameValue (ofWideDecimal w) = .ok true) ∧
      (¬v.IsWordNumber → (ofWideDecimal v).sameValue (ofWideDecimal w) =
        .ok (decide (max 0 v.scale = max 0 w.scale))) ∧
      (v.FitsWord → ∃ d : FixedDecimal .w128, ofWideDecimal v = .decimal .w128 d ∧
        d.toScaled = v.toScaled ∧ d.toRat = v.toRat) ∧
      (¬v.IsWordNumber → ofWideDecimal v = .string v.naturalText.utf8 ∧
        ∃ plain : Scaled, IsPlain v.naturalText plain ∧ plain.toRat = v.toRat ∧
          plain.scale = max 0 v.scale) := by
  have hrat : v.toRat = w.toRat := WideDecimal.sameValue_iff.1 h
  refine ⟨ofWideDecimal_standsFor v, fun hv hw => sameValue_ofWideDecimal_of_fits hv hw hrat,
    fun hnone => ?_, fun hv => ?_, fun hnone => ?_⟩
  · refine sameValue_ofWideDecimal_of_not_fits (fun hv => hnone hv.isWordNumber) (fun hw => ?_) hrat
    obtain ⟨word, scale, hscale, hword⟩ := hw.isWordNumber
    exact hnone ⟨word, scale, hscale, hrat.trans hword⟩
  · obtain ⟨d, hd, hscaled⟩ := ofWideDecimal_of_fits hv
    exact ⟨d, hd, hscaled, by rw [← FixedDecimal.toScaled_toRat, hscaled]⟩
  · exact ⟨ofWideDecimal_of_not_fits fun hv => hnone hv.isWordNumber, v.writtenOut,
      v.naturalText_isPlain, v.writtenOut_toRat, rfl⟩

/-- A zero behind the last digit makes no difference as long as both decimals fit a word. -/
theorem sameValue_ofWideDecimal_trailingZero :
    let v : WideDecimal := ⟨⟨-125, 1⟩, by decide⟩
    let w : WideDecimal := ⟨⟨-1250, 2⟩, by decide⟩
    v.sameValue w = true ∧ v.FitsWord ∧ w.FitsWord ∧
      (ofWideDecimal v).sameValue (ofWideDecimal w) = .ok true := by
  intro v w
  have hsame : v.sameValue w = true := by decide
  have hv : v.FitsWord := ⟨⟨⟨-125, by decide, by decide⟩, rfl⟩, by decide, by decide⟩
  have hw : w.FitsWord := ⟨⟨⟨-1250, by decide, by decide⟩, rfl⟩, by decide, by decide⟩
  exact ⟨hsame, hv, hw, (sameValue_ofWideDecimal hsame).2.1 hv hw⟩

/-- One in the 39th place has no word, and its text differs from the one with a zero behind it. -/
theorem sameValue_ofWideDecimal_tiny :
    let v : WideDecimal := ⟨⟨1, 39⟩, by decide⟩
    let w : WideDecimal := ⟨⟨10, 40⟩, by decide⟩
    v.sameValue w = true ∧ ¬v.IsWordNumber ∧
      (ofWideDecimal v).sameValue (ofWideDecimal w) = .ok false := by
  intro v w
  have hsame : v.sameValue w = true := by decide
  have hv : ¬v.FitsWord := fun h => absurd h.scale_le (by decide)
  have hw : ¬w.FitsWord := fun h => absurd h.scale_le (by decide)
  refine ⟨hsame, ?_,
    sameValue_ofWideDecimal_of_not_fits hv hw (WideDecimal.sameValue_iff.1 hsame)⟩
  rintro ⟨word, scale, hscale, hword⟩
  have hpower : (10 : ℚ) ^ scale = 10 ^ (39 : ℕ) * word.val := by
    have hv : v.toRat = 1 / 10 ^ (39 : ℕ) := by simp [v, Scaled.toRat]
    rw [hv] at hword
    field_simp at hword
    linarith
  have hdvd : (10 : ℤ) ^ (39 : ℕ) ∣ 10 ^ scale := ⟨word.val, by exact_mod_cast hpower⟩
  rw [pow_dvd_pow_iff (by norm_num) (by norm_num [Int.isUnit_iff])] at hdvd
  rw [maxWordPower] at hscale
  omega

end Field

end ResultSet
