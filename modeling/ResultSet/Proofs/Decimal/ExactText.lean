import Mathlib
import ResultSet.Proofs.Decimal.Spelling
import ResultSet.Proofs.Decimal.Value
import ResultSet.Proofs.Number.LargeInt

/-!
# Exact texts

Integers and decimals that are stored in words are written with all of their digits, so the text
gives the word back.

* Decimals: the text of digits with a point in them has one spelling, and that is worth the
  magnitude divided by a power of ten (`placePoint_spelled`).  The scale stands in the text as
  the number of digits behind the point, so two decimals of one width have the same text only if
  they are the same (`placePoint_reversible`).
* Integers: `Digits.ofInt` is plain notation without a point (`isPlain_ofInt`), and
  `LargeInt.render_exact` follows its bytes from the scratch buffer to the reader.
-/

namespace ResultSet

/-! ## Decimals -/

/-- The text has one spelling, with a minus only in front of a number other than zero. -/
theorem placePoint_spelled (magnitude scale : ℕ) (negative : Bool) :
    ∃ n : Spelling,
      (∀ other : Spelling,
        other.text = placePoint (Digits.ofNat magnitude) scale negative ↔ other = n) ∧
      Digits.IsWhole n.whole ∧ n.places.length = scale ∧ (n.fraction = none ↔ scale = 0) ∧
      n.sign = (if negative = true ∧ magnitude ≠ 0 then .minus else .absent) ∧
      n.toScaled.toRat = (if negative then -(magnitude : ℚ) else magnitude) / 10 ^ scale := by
  obtain ⟨n, hspelled, hplain, hscaled⟩ :=
    (placePoint_ofNat magnitude scale negative).exists_spelling
  have hplaces := Spelling.length_places hscaled
  refine ⟨n, hspelled, hplain.whole, hplaces, ?_, ?_, ?_⟩
  · rw [hplain.fraction_eq, ← hplaces, List.length_eq_zero_iff]
    split <;> simp_all
  · rw [hplain.sign, hscaled]
    cases negative
    · simp
    · by_cases hzero : magnitude = 0 <;> simp [hzero, Nat.pos_of_ne_zero]
  · rw [hscaled, Scaled.toRat, zpow_natCast]
    cases negative <;> simp

namespace FixedDecimal

variable {w : DecimalWidth}

theorem text_isPlain (d : FixedDecimal w) : IsPlain d.text d.toScaled :=
  placePoint_natAbs d.value.val d.scale.val

theorem toScaled_inj {d e : FixedDecimal w} :
    d.toScaled = e.toScaled ↔ d.value = e.value ∧ d.scale = e.scale := by
  constructor
  · intro h
    have hvalue : d.value.val = e.value.val := congrArg Scaled.digits h
    have hscale : d.scale.val = e.scale.val := Int.natCast_inj.1 (congrArg Scaled.scale h)
    exact ⟨Signed.ext hvalue, Unsigned.ext hscale⟩
  · rintro ⟨hvalue, hscale⟩
    rw [toScaled, hvalue, hscale, toScaled]

end FixedDecimal

/-- Digits with a point in them spell one number: the magnitude divided by the power of ten, with
the sign that was asked for unless it is zero.  It has exactly `scale` digits behind the point, at
least one in front of it, and no zero in front of others.  So the text of a decimal in a word is
worth the decimal, the smallest word included, and tells it from all others of its width. -/
theorem placePoint_reversible :
    (∀ (magnitude scale : ℕ) (negative : Bool), ∃ n : Spelling,
      (∀ other : Spelling,
        other.text = placePoint (Digits.ofNat magnitude) scale negative ↔ other = n) ∧
      Digits.IsWhole n.whole ∧ n.places.length = scale ∧ (n.fraction = none ↔ scale = 0) ∧
      n.sign = (if negative = true ∧ magnitude ≠ 0 then .minus else .absent) ∧
      n.toScaled.toRat = (if negative then -(magnitude : ℚ) else magnitude) / 10 ^ scale) ∧
    ∀ (w : DecimalWidth) (d : FixedDecimal w),
      (∃ n : Spelling, (∀ other : Spelling, other.text = d.text ↔ other = n) ∧
        n.places.length = d.scale.val ∧ n.toScaled.toRat = d.value.val / 10 ^ d.scale.val) ∧
      ∀ e : FixedDecimal w, d.text = e.text ↔ d.value = e.value ∧ d.scale = e.scale := by
  refine ⟨placePoint_spelled, fun w d => ⟨?_, fun e => ?_⟩⟩
  · obtain ⟨n, hspelled, -, hscaled⟩ := d.text_isPlain.exists_spelling
    refine ⟨n, hspelled, Spelling.length_places hscaled, ?_⟩
    rw [hscaled, d.toScaled_toRat, FixedDecimal.toRat]
  · rw [d.text_isPlain.text_eq_iff e.text_isPlain, FixedDecimal.toScaled_inj]

/-! ## Integers -/

namespace Digits

/-- An integer is written like a decimal without digits behind the point. -/
theorem placePoint_zero_scale (v : Int) :
    placePoint (ofNat v.natAbs) 0 (decide (v < 0)) = ofInt v := by
  rw [placePoint, if_pos rfl, ofInt]
  by_cases hneg : v < 0
  · have hvalue : value (ofNat v.natAbs) ≠ 0 := by
      rw [value_ofNat]
      omega
    have hnonzero : (ofNat v.natAbs).any (· != '0') = true := by
      rw [Ne, value_eq_zero_iff (allDigits_ofNat _)] at hvalue
      simpa using hvalue
    simp [hneg, hnonzero]
  · simp [hneg]

theorem isPlain_ofInt (v : Int) : IsPlain (ofInt v) ⟨v, 0⟩ := by
  have hplain := placePoint_natAbs v 0
  rwa [placePoint_zero_scale] at hplain

theorem ofList_ofInt (v : Int) : String.ofList (ofInt v) = v.repr := by
  have hrepr (n : Nat) : String.ofList (ofNat n) = n.repr := Nat.repr_eq_ofList_toDigits.symm
  rw [Int.repr_eq_if, ofInt]
  by_cases hneg : v < 0
  · have habs : (-v).toNat = v.natAbs := by omega
    rw [if_pos hneg, if_neg (by omega), habs, ← hrepr]
    simp
  · have habs : v.toNat = v.natAbs := by omega
    rw [if_neg hneg, if_pos (by omega), habs, hrepr]

/-- The bytes of an integer are read as the integer. -/
theorem toInt?_ofInt (v : Int) :
    (String.ofList (Text.ofBytes (ofInt v).utf8)).toInt? = some v := by
  rw [Text.ofBytes_utf8_of_ascii (isPlain_ofInt v).isAscii, ofList_ofInt, Int.toInt?_repr]

theorem length_ofInt_le (v : Int) : (ofInt v).length ≤ (ofNat v.natAbs).length + 1 := by
  unfold ofInt
  split
  · exact Nat.le_refl _
  · exact Nat.le_succ _

end Digits

namespace LargeInt

/-- No word of 128 bits has more than 39 digits. -/
theorem length_ofNat_word (v : Signed 128) : (Digits.ofNat v.val.natAbs).length ≤ 39 := by
  have hlow := v.min_le
  have hhigh := v.lt_max
  exact Digits.length_ofNat_le (by decide) (by omega)

/-- The text of a word is its plain notation.  It takes 40 bytes at the most and is read as the
word again.  Whatever the buffer held before, its digits are written without reaching the start of
the buffer, and what stands there from the sign on is the text. -/
theorem render_exact (v : Signed 128) :
    ∃ text : Text, IsPlain text ⟨v.val, 0⟩ ∧ text.utf8.length ≤ 40 ∧
      (String.ofList (Text.ofBytes text.utf8)).toInt? = some v.val ∧
      ∀ buffer : Bytes, buffer.length = capacity →
        (∃ pos, 8 < pos ∧ pos < capacity ∧
          writeDigits capacity v.val.natAbs buffer =
            some (pos, buffer.take pos ++ (Digits.ofNat v.val.natAbs).utf8)) ∧
        render v.val buffer = some text.utf8 := by
  have hdigits := length_ofNat_word v
  have hpositive : 0 < (Digits.ofNat v.val.natAbs).length := Nat.length_toDigits_pos
  have hcapacity : capacity = 48 := rfl
  refine ⟨Digits.ofInt v.val, Digits.isPlain_ofInt v.val, ?_, Digits.toInt?_ofInt v.val,
    fun buffer hbuffer => ⟨⟨capacity - (Digits.ofNat v.val.natAbs).length, by omega, by omega, ?_⟩,
      render_word v hbuffer⟩⟩
  · have hlength := Digits.length_ofInt_le v.val
    rw [Text.length_utf8_of_ascii (Digits.isPlain_ofInt v.val).isAscii]
    omega
  · exact writeDigits_capacity hbuffer (by omega)

/-- The smallest word takes all of the 40 bytes, in a buffer that is full of other ones. -/
theorem render_exact_smallest :
    let smallest : Signed 128 := ⟨-2 ^ (127 : Nat), by decide, by decide⟩
    let buffer : Bytes := List.replicate 48 0xFF
    buffer.length = capacity ∧
      render smallest.val buffer = some (bytesOf "-170141183460469231731687303715884105728") ∧
      (String.ofList (Text.ofBytes (bytesOf "-170141183460469231731687303715884105728"))).toInt? =
        some smallest.val := by
  intro smallest buffer
  have hbuffer : buffer.length = capacity := by decide
  have hbytes : render smallest.val buffer =
      some (bytesOf "-170141183460469231731687303715884105728") := by decide +kernel
  obtain ⟨text, -, -, hread, hrender⟩ := render_exact smallest
  have htext : bytesOf "-170141183460469231731687303715884105728" = text.utf8 :=
    Option.some.inj (hbytes.symm.trans (hrender buffer hbuffer).2)
  refine ⟨hbuffer, hbytes, ?_⟩
  rw [htext]
  exact hread

end LargeInt

end ResultSet
