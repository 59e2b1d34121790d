import ResultSet.Decimal.Billionths
import ResultSet.Proofs.Decimal.Spelling
import ResultSet.Proofs.Decimal.Value
import ResultSet.Proofs.Text.Ascii

/-!
# What is read as a decimal in billionths

A text is a literal if it spells a decimal number (`Spelling`) between its blanks, the digits behind
the ninth place are zeros, and the magnitude in billionths is at most the largest word of 128 bits
(`Billionths.IsLiteral`).

The text is read with tests of bytes, cuts at bytes and arithmetic in words.

* No cut falls inside a character, and no step that is not checked leaves the word: each of the
  steps has an answer (`splitSignByte?_eq`, `ofPartsInWord?_spec`, `ofDigitsInWord?_spec`).
* `Billionths.readInWord?_spec`: exactly the literals are read, as the number that they spell.
-/

namespace ResultSet

/-! ## Signs and points of a text -/

namespace Sign

theorem text_ofText_append (text : Text) :
    (ofText text).text ++ text.drop (ofText text).text.length = text := by
  unfold ofText
  split <;> rfl

theorem apply_mul (sign : Sign) (m n : Nat) : sign.apply (m * n) = sign.apply m * n := by
  cases sign <;> simp [apply]

end Sign

namespace Billionths

theorem splitPoint_unsigned (n : Spelling) : splitPoint n.unsigned = (n.whole, n.places) := by
  rw [splitPoint, n.takeWhile_unsigned, n.dropWhile_unsigned, Spelling.pointed, Spelling.places]
  cases n.fraction <;> rfl

/-- Digits on both sides of the first point, or of none, are the spelling of a number. -/
theorem exists_spelling {text whole fraction : Text}
    (hparts : splitPoint (text.drop (Sign.ofText text).text.length) = (whole, fraction))
    (hwhole : Digits.allDigits whole = true) (hfraction : Digits.allDigits fraction = true)
    (hnil : whole ++ fraction ≠ []) : ∃ n : Spelling, n.text = text := by
  rw [splitPoint, Prod.mk.injEq] at hparts
  generalize hrest : text.drop (Sign.ofText text).text.length = rest at hparts
  have htext : (Sign.ofText text).text ++ rest = text := hrest ▸ Sign.text_ofText_append text
  have hsplit : whole ++ rest.dropWhile (· != '.') = rest := by
    rw [← hparts.1]
    exact List.takeWhile_append_dropWhile
  cases hpointed : rest.dropWhile (· != '.') with
  | nil =>
    -- there is no point, and nothing behind it
    rw [hpointed] at hsplit hparts
    obtain rfl : fraction = [] := hparts.2.symm
    refine ⟨⟨Sign.ofText text, whole, none, hwhole, rfl, hnil⟩, ?_⟩
    rw [Spelling.text, Spelling.unsigned]
    exact hsplit.symm ▸ htext
  | cons c places =>
    rw [hpointed] at hsplit hparts
    obtain rfl : fraction = places := hparts.2.symm
    have hpoint : c = '.' := by
      have hhead := List.head?_dropWhile_not (· != '.') rest
      rw [hpointed] at hhead
      simpa using hhead
    refine ⟨⟨Sign.ofText text, whole, some fraction, hwhole, hfraction, hnil⟩, ?_⟩
    rw [Spelling.text, Spelling.unsigned, Spelling.pointed]
    exact (hpoint ▸ hsplit.symm) ▸ htext

/-! ## The number of billionths -/

/-- Billionths of the digits on both sides of a point, those behind the ninth place left out. -/
def magnitude (whole fraction : Text) : Nat :=
  let kept := fraction.take billionthsScale
  Digits.value whole * oneBillion + Digits.value kept * 10 ^ (billionthsScale - kept.length)

/-- Zeros behind the ninth place left out, the billionths are the number that the digits spell. -/
theorem magnitude_mul_pow {whole fraction : Text}
    (h : ∀ c ∈ fraction.drop billionthsScale, c = '0') :
    magnitude whole fraction * 10 ^ fraction.length =
      Digits.value (whole ++ fraction) * oneBillion := by
  let kept := fraction.take billionthsScale
  let dropped := fraction.drop billionthsScale
  have hfraction : kept ++ dropped = fraction := List.take_append_drop billionthsScale fraction
  have hkept : kept.length ≤ billionthsScale := List.length_take_le ..
  have hvalue : Digits.value (whole ++ fraction) =
      (Digits.value whole * 10 ^ kept.length + Digits.value kept) * 10 ^ dropped.length := by
    have hzero : Digits.value dropped = 0 := by
      rw [List.eq_replicate_of_mem (l := dropped) h, Digits.value_replicate_zero]
    rw [← hfraction, ← List.append_assoc, Digits.value_append, hzero, Digits.value_append,
      Nat.add_zero]
  have hlength : 10 ^ fraction.length = 10 ^ kept.length * 10 ^ dropped.length := by
    rw [← hfraction, List.length_append, Nat.pow_add]
  have hbillion : oneBillion = 10 ^ (billionthsScale - kept.length) * 10 ^ kept.length := by
    rw [← Nat.pow_add, Nat.sub_add_cancel hkept]
    rfl
  have hmagnitude : magnitude whole fraction = Digits.value whole * oneBillion +
      Digits.value kept * 10 ^ (billionthsScale - kept.length) := rfl
  rw [hmagnitude, hvalue, hlength, hbillion]
  ring

/-- What it takes to be the billionths of a spelled number. -/
theorem eq_toRat_mul_iff {n : Spelling} {raw : ℤ} :
    (raw : ℚ) = n.toScaled.toRat * oneBillion ↔
      raw * 10 ^ n.places.length = n.toScaled.digits * oneBillion := by
  have hscale : n.toScaled.scale = (n.places.length : ℤ) := rfl
  rw [Scaled.toRat, hscale, zpow_natCast, div_mul_eq_mul_div, eq_div_iff (by positivity)]
  exact_mod_cast Iff.rfl

/-- The signed billionths of a spelled number. -/
theorem apply_magnitude {n : Spelling} (h : ∀ c ∈ n.places.drop billionthsScale, c = '0') :
    ((n.sign.apply (magnitude n.whole n.places) : ℤ) : ℚ) = n.toScaled.toRat * oneBillion := by
  rw [eq_toRat_mul_iff]
  calc n.sign.apply (magnitude n.whole n.places) * 10 ^ n.places.length
      = n.sign.apply (magnitude n.whole n.places * 10 ^ n.places.length) := by
        rw [Sign.apply_mul, Int.natCast_pow]
        rfl
    _ = n.sign.apply (Digits.value (n.whole ++ n.places) * oneBillion) := by
        rw [magnitude_mul_pow h]
    _ = n.toScaled.digits * oneBillion := Sign.apply_mul ..

/-- The text is the literal of a number in billionths: between its blanks it spells the number, the
digits behind the ninth place are zeros, and the magnitude in billionths is a word. -/
structure IsLiteral (text : Text) (n : Spelling) : Prop where
  trim_eq : text.trim = n.text
  zeros : ∀ c ∈ n.places.drop billionthsScale, c = '0'
  magnitude_le : |n.toScaled.toRat| * oneBillion ≤ 2 ^ (127 : Nat) - 1

/-- The billionths of the digits are a word exactly if the magnitude of the number is. -/
theorem magnitude_lt_iff {n : Spelling} (h : ∀ c ∈ n.places.drop billionthsScale, c = '0') :
    magnitude n.whole n.places < 2 ^ (127 : Nat) ↔
      |n.toScaled.toRat| * oneBillion ≤ 2 ^ (127 : Nat) - 1 := by
  have hbillion : (0 : ℚ) ≤ oneBillion := Nat.cast_nonneg _
  have hmagnitude : |n.toScaled.toRat| * oneBillion = (magnitude n.whole n.places : ℚ) := by
    calc |n.toScaled.toRat| * oneBillion
        = |n.toScaled.toRat * oneBillion| := by rw [abs_mul, abs_of_nonneg hbillion]
      _ = |((n.sign.apply (magnitude n.whole n.places) : ℤ) : ℚ)| := by rw [apply_magnitude h]
      _ = (magnitude n.whole n.places : ℚ) := by
        rw [← Int.cast_abs, Int.abs_eq_natAbs, Sign.natAbs_apply, Int.cast_natCast]
  rw [hmagnitude, le_sub_iff_add_le]
  exact_mod_cast Nat.lt_iff_add_one_le

/-! ## In bytes and words -/

/-- The sign is a character of its own. -/
theorem splitSignByte?_eq (text : Text) :
    splitSignByte? text =
      some (Sign.ofText text == .minus, text.drop (Sign.ofText text).text.length) := by
  have hminus : text.utf8.head? = some 45 ↔ text.head? = some '-' :=
    Text.head?_utf8 text (c := '-') (by decide)
  have hplus : text.utf8.head? = some 43 ↔ text.head? = some '+' :=
    Text.head?_utf8 text (c := '+') (by decide)
  unfold splitSignByte?
  simp only [hminus, hplus]
  split
  · rename_i hhead
    obtain ⟨rest, rfl⟩ := List.head?_eq_some_iff.1 hhead
    rw [Text.splitAtByte?_of_ascii (by simp; decide) (by simp)]
    rfl
  split
  · rename_i hhead
    obtain ⟨rest, rfl⟩ := List.head?_eq_some_iff.1 hhead
    rw [Text.splitAtByte?_of_ascii (by simp; decide) (by simp)]
    rfl
  · rename_i hother hother'
    unfold Sign.ofText
    split
    · simp at hother'
    · simp at hother
    · rfl

theorem isDigitByte_ofNat (c : Char) :
    (decide (IsAscii c) && isDigitByte (UInt8.ofNat c.toNat)) = c.isDigit := by
  have hascii : decide (IsAscii c) = true ↔ c.toNat < 128 := decide_eq_true_iff
  have hzero : '0'.toNat = 48 := rfl
  have hnine : '9'.toNat = 57 := rfl
  rw [Bool.eq_iff_iff, Bool.and_eq_true, hascii, Char.isDigit_iff_toNat, isDigitByte,
    Bool.and_eq_true, decide_eq_true_eq, decide_eq_true_eq, UInt8.toNat_ofNat']
  omega

theorem all_isDigitByte (text : Text) : text.utf8.all isDigitByte = Digits.allDigits text := by
  have hascii : ∀ b, isDigitByte b = true → b.toNat < 128 := by
    intro b hb
    simp [isDigitByte] at hb
    omega
  rw [Text.all_utf8 hascii, Digits.allDigits]
  simp only [isDigitByte_ofNat]

theorem utf8_of_allDigits {text : Text} (h : Digits.allDigits text = true) :
    text.utf8 = text.map fun c => UInt8.ofNat c.toNat :=
  Text.utf8_of_ascii fun c hc => isAscii_of_isDigit (List.all_eq_true.1 h c hc)

theorem any_nonzeroByte {text : Text} (h : Digits.allDigits text = true) :
    text.utf8.any (· != 48) = text.any (· != '0') := by
  have hbyte : ∀ c ∈ text, (UInt8.ofNat c.toNat != 48) = (c != '0') := by
    intro c hc
    have hdigit := List.all_eq_true.1 h c hc
    simp [Char.isDigit_iff_toNat] at hdigit
    rw [Bool.eq_iff_iff, bne_iff_ne, bne_iff_ne, Ne, Ne, ← UInt8.toNat_inj, ← Char.toNat_inj,
      UInt8.toNat_ofNat']
    show ¬c.toNat % 2 ^ 8 = 48 ↔ ¬c.toNat = 48
    omega
  rw [utf8_of_allDigits h, List.any_map, Bool.eq_iff_iff, List.any_eq_true, List.any_eq_true]
  exact exists_congr fun c => and_congr_right fun hc => by rw [← hbyte c hc]; rfl

theorem magnitude_take (whole fraction : Text) :
    magnitude whole (fraction.take billionthsScale) = magnitude whole fraction := by
  simp [magnitude, List.take_take]

/-- Nine digits behind the point are less than a billion. -/
theorem value_mul_pow_lt {kept : Text} (hkept : Digits.allDigits kept = true)
    (hlength : kept.length ≤ billionthsScale) :
    Digits.value kept * 10 ^ (billionthsScale - kept.length) < oneBillion := by
  have hbillion : oneBillion = 10 ^ kept.length * 10 ^ (billionthsScale - kept.length) := by
    rw [← Nat.pow_add, Nat.add_sub_cancel' hlength]
    rfl
  rw [hbillion]
  exact Nat.mul_lt_mul_of_pos_right (Digits.value_lt hkept) (Nat.pow_pos (by decide))

/-- No step leaves a word that holds a billion, and the digits are refused exactly if their
magnitude is no word. -/
theorem ofPartsInWord?_spec {bits : Nat} (hbits : oneBillion < 2 ^ (bits - 1)) (negative : Bool)
    (whole : Text) {kept : Text} (hkept : Digits.allDigits kept = true)
    (hlength : kept.length ≤ billionthsScale) :
    ∃ word, ofPartsInWord? bits negative whole kept = some word ∧
      ∀ raw, word = some raw ↔ magnitude whole kept < 2 ^ (bits - 1) ∧
        raw.val = if negative then -(magnitude whole kept : Int) else magnitude whole kept := by
  have hbytes : kept.utf8.length = kept.length := by rw [utf8_of_allDigits hkept, List.length_map]
  have hmagnitude : magnitude whole kept = Digits.value whole * oneBillion +
      Digits.value kept * 10 ^ (billionthsScale - kept.length) := by
    simp only [magnitude, List.take_of_length_le hlength]
  have hfraction := value_mul_pow_lt hkept hlength
  have hpos : 0 < 10 ^ (billionthsScale - kept.length) := Nat.pow_pos (by decide)
  have hvalue := Nat.le_mul_of_pos_right (Digits.value kept) hpos
  have hpower := Nat.pow_le_pow_right (n := 10) (by decide) (Nat.sub_le billionthsScale kept.length)
  have hbillion : 10 ^ billionthsScale = oneBillion := rfl
  obtain ⟨keptWord, hkeptWord, hkeptVal⟩ :=
    Signed.ofInt?_of_lt bits (n := Digits.value kept) (by omega)
  obtain ⟨power, hpowerWord, hpowerVal⟩ :=
    Signed.ofInt?_of_lt bits (n := 10 ^ (billionthsScale - kept.length)) (by omega)
  obtain ⟨fraction, hfractionWord, hfractionVal⟩ := Signed.ofInt?_of_lt bits (hfraction.trans hbits)
  unfold ofPartsInWord?
  by_cases hwhole : Digits.value whole < 2 ^ (bits - 1)
  · -- product and sum are refused together, as the magnitude is
    obtain ⟨wholeWord, hwholeWord, hwholeVal⟩ := Signed.ofInt?_of_lt bits hwhole
    simp only [hwholeWord, hkeptWord, hbytes, if_pos hlength, hpowerWord, hkeptVal, hpowerVal,
      ← Int.natCast_mul, hfractionWord, hwholeVal, hfractionVal, Signed.ofInt?_bind_add,
      ← hmagnitude, Option.bind_eq_bind, Option.bind_some]
    by_cases hsum : magnitude whole kept < 2 ^ (bits - 1)
    · obtain ⟨raw, hraw, hrawVal⟩ := Signed.ofInt?_of_lt bits hsum
      obtain ⟨signed, hsigned⟩ := Signed.exists_ofInt?_signed bits hsum negative
      refine ⟨some signed, by simp only [hraw, hrawVal, hsigned, Option.map_some], fun other => ?_⟩
      rw [← hsigned, Signed.ofInt?_eq_some_iff]
      exact ⟨fun h => ⟨hsum, h⟩, fun h => h.2⟩
    · refine ⟨none, by rw [Signed.ofInt?_of_not_lt hsum], fun other => ?_⟩
      simp [hsum]
  · -- digits that are no word themselves make a larger magnitude
    have hlarge : ¬magnitude whole kept < 2 ^ (bits - 1) := by
      have hle := Nat.le_mul_of_pos_right (Digits.value whole) (show 0 < oneBillion by decide)
      omega
    refine ⟨none, by rw [Signed.ofInt?_of_not_lt hwhole], fun other => ?_⟩
    simp [hlarge]

/-- Digits on both sides of a point are taken if those behind the ninth place are zeros and the
magnitude is a word. -/
theorem ofDigitsInWord?_spec (negative : Bool) (whole fraction : Text) :
    ∃ value, ofDigitsInWord? negative whole fraction = some value ∧
      ∀ v : Billionths, value = some v ↔
        whole ++ fraction ≠ [] ∧ Digits.allDigits whole = true ∧
        Digits.allDigits fraction = true ∧ (∀ c ∈ fraction.drop billionthsScale, c = '0') ∧
        magnitude whole fraction < 2 ^ (127 : Nat) ∧
        v.raw.val =
          if negative then -(magnitude whole fraction : Int) else magnitude whole fraction := by
  unfold ofDigitsInWord?
  rw [List.all_append, all_isDigitByte, all_isDigitByte]
  split
  · rename_i hnil
    refine ⟨none, rfl, fun v => ?_⟩
    simp at hnil
    simp [hnil]
  split
  · rename_i hdigits
    refine ⟨none, rfl, fun v => ⟨fun h => (Option.some_ne_none v h.symm).elim, ?_⟩⟩
    rintro ⟨-, hwhole, hfraction, -⟩
    simp [hwhole, hfraction] at hdigits
  rename_i hnil hdigits
  have hparts : whole ++ fraction ≠ [] := by simpa using hnil
  obtain ⟨hwhole, hfraction⟩ : Digits.allDigits whole = true ∧ Digits.allDigits fraction = true := by
    simpa using hdigits
  have hbytes : fraction.utf8.length = fraction.length := by
    rw [utf8_of_allDigits hfraction, List.length_map]
  have hascii : ∀ c ∈ fraction.take (min fraction.length billionthsScale), IsAscii c := fun c hc =>
    isAscii_of_isDigit (List.all_eq_true.1 hfraction c (List.mem_of_mem_take hc))
  have hkept : Digits.allDigits (fraction.take billionthsScale) = true ∧
      Digits.allDigits (fraction.drop billionthsScale) = true := by
    rw [← Bool.and_eq_true, ← Digits.allDigits_append, List.take_append_drop]
    exact hfraction
  rw [hbytes, Text.splitAtByte?_of_ascii hascii (Nat.min_le_left ..), Nat.min_comm,
    ← List.take_eq_take_min, ← List.drop_eq_drop_min, Option.bind_some]
  dsimp only
  rw [any_nonzeroByte hkept.2]
  split
  · rename_i hother
    refine ⟨none, rfl, fun v => ⟨fun h => (Option.some_ne_none v h.symm).elim, ?_⟩⟩
    rintro ⟨-, -, -, hzeros, -⟩
    obtain ⟨c, hc, hnonzero⟩ := List.any_eq_true.1 hother
    simp [hzeros c hc] at hnonzero
  · rename_i hother
    have hzeros : ∀ c ∈ fraction.drop billionthsScale, c = '0' := by simpa using hother
    have hbillion : oneBillion < 2 ^ (128 - 1) := by decide
    obtain ⟨word, hword, hraw⟩ :=
      ofPartsInWord?_spec hbillion negative whole hkept.1 (List.length_take_le ..)
    rw [magnitude_take] at hraw
    refine ⟨word.map (⟨·⟩), by rw [hword, Option.map_some], fun v => ?_⟩
    rw [Option.map_eq_some_iff]
    constructor
    · rintro ⟨raw, hsome, rfl⟩
      exact ⟨hparts, hwhole, hfraction, hzeros, (hraw raw).1 hsome⟩
    · rintro ⟨-, -, -, -, hsome⟩
      exact ⟨v.raw, (hraw v.raw).2 hsome, rfl⟩

/-! ## What is read -/

/-- Exactly the literals are read, as the number that they spell. -/
theorem readInWord?_spec (text : Text) :
    ∃ value, readInWord? text = some value ∧
      ∀ v : Billionths, value = some v ↔
        ∃ n : Spelling, IsLiteral text n ∧ (v.raw.val : ℚ) = n.toScaled.toRat * oneBillion := by
  let unsigned := text.trim.drop (Sign.ofText text.trim).text.length
  obtain ⟨value, hvalue, hread⟩ := ofDigitsInWord?_spec (Sign.ofText text.trim == .minus)
    (splitPoint unsigned).1 (splitPoint unsigned).2
  refine ⟨value, by rw [readInWord?, splitSignByte?_eq, Option.bind_some, hvalue], fun v => ?_⟩
  rw [hread]
  constructor
  · rintro ⟨hnil, hwhole, hplaces, hzeros, hlt, hraw⟩
    obtain ⟨n, hn⟩ := exists_spelling rfl hwhole hplaces hnil
    rw [← Sign.apply_eq] at hraw
    simp only [unsigned, ← hn, n.drop_text, splitPoint_unsigned, n.ofText_text] at hzeros hlt hraw
    refine ⟨n, ⟨hn.symm, hzeros, (magnitude_lt_iff hzeros).1 hlt⟩, ?_⟩
    rw [hraw, apply_magnitude hzeros]
  · rintro ⟨n, hn, hv⟩
    rw [← Sign.apply_eq]
    simp only [unsigned, hn.trim_eq, n.drop_text, splitPoint_unsigned, n.ofText_text]
    refine ⟨n.digits_ne_nil, n.whole_digits, n.fraction_digits, hn.zeros,
      (magnitude_lt_iff hn.zeros).2 hn.magnitude_le, ?_⟩
    rw [← apply_magnitude hn.zeros] at hv
    exact_mod_cast hv

theorem parseInWord?_eq (text : Text) : parseInWord? text = some (parse text) := by
  obtain ⟨value, hvalue, -⟩ := readInWord?_spec text
  rw [parse, parseInWord?, hvalue, Option.map_some, Option.getD_some]

theorem parse_eq_ok_iff {text : Text} {v : Billionths} :
    parse text = .ok v ↔
      ∃ n : Spelling, IsLiteral text n ∧ (v.raw.val : ℚ) = n.toScaled.toRat * oneBillion := by
  obtain ⟨value, hvalue, hread⟩ := readInWord?_spec text
  rw [← hread, parse, parseInWord?, hvalue, Option.map_some, Option.getD_some]
  cases value <;> simp

/-- A text that is refused stands in the error itself. -/
theorem parse_eq_error_iff {text : Text} :
    parse text = .error (.invalidLiteral text) ↔ ∀ v, parse text ≠ .ok v := by
  rw [parse, parseInWord?]
  cases readInWord? text with
  | none => simp
  | some value => cases value <;> simp

/-- A literal has a value. -/
theorem IsLiteral.exists_parse {text : Text} {n : Spelling} (h : IsLiteral text n) :
    ∃ v, parse text = .ok v := by
  obtain ⟨raw, hraw⟩ :=
    Signed.exists_ofInt?_signed 128 ((magnitude_lt_iff h.zeros).2 h.magnitude_le)
      (n.sign == .minus)
  refine ⟨⟨raw⟩, parse_eq_ok_iff.2 ⟨n, h, ?_⟩⟩
  rw [← apply_magnitude h.zeros, Sign.apply_eq, Signed.val_of_ofInt? hraw]

/-- A text is read exactly if it is a literal, and the value is the number that it spells.  Every
other text is refused with the text itself in the error.  No step cuts a character or leaves the
words it is computed in. -/
theorem parse_grammar (text : Text) :
    (∀ v : Billionths, parse text = .ok v ↔
      ∃ n : Spelling, IsLiteral text n ∧ (v.raw.val : ℚ) = n.toScaled.toRat * oneBillion) ∧
    ((∃ v : Billionths, parse text = .ok v) ↔ ∃ n : Spelling, IsLiteral text n) ∧
    (parse text = .error (.invalidLiteral text) ↔ ¬∃ n : Spelling, IsLiteral text n) ∧
    parseInWord? text = some (parse text) := by
  have hread : (∃ v : Billionths, parse text = .ok v) ↔ ∃ n : Spelling, IsLiteral text n := by
    constructor
    · rintro ⟨v, hv⟩
      obtain ⟨n, hn, -⟩ := parse_eq_ok_iff.1 hv
      exact ⟨n, hn⟩
    · rintro ⟨n, hn⟩
      exact hn.exists_parse
  refine ⟨fun v => parse_eq_ok_iff, hread, ?_, parseInWord?_eq text⟩
  rw [parse_eq_error_iff, ← hread, not_exists]

end Billionths

end ResultSet
