import ResultSet.Decimal.Json
import ResultSet.Proofs.Decimal.FixedText

/-!
# Wide decimals and their own texts

A literal is read as it is spelled (`Literal.read?_text`), in plain notation in particular.  The
natural text of a wide decimal is plain notation (`naturalText_isPlain`), so it is read back.

`WideDecimal.parseBy` takes the reader of literals as an argument.  Whatever it is, as long as it
reads plain notation for what it is (`Literal.ReadsPlain`), it reads the value back:
`WideDecimal.parseBy_naturalText`.
-/

namespace ResultSet

/-! ## Literals without an exponent -/

namespace Literal

theorem not_mark (n : Spelling) : ∀ c ∈ n.text, (!(c == 'e' || c == 'E')) = true := by
  apply n.all_text
  · intro c hc
    rw [Bool.not_eq_true', Bool.or_eq_false_iff, beq_eq_false_iff_ne, beq_eq_false_iff_ne]
    exact ⟨Digits.ne_of_isDigit hc (by decide), Digits.ne_of_isDigit hc (by decide)⟩
  · decide
  · decide
  · decide

theorem splitExponent_text (n : Spelling) : splitExponent n.text = (n.text, none) := by
  have hrest : n.text.dropWhile (fun c => !(c == 'e' || c == 'E')) = [] :=
    List.dropWhile_eq_nil_iff.2 (not_mark n)
  simp only [splitExponent, hrest, List.takeWhile_eq_self_iff.2 (not_mark n)]

theorem takeWhile_text (n : Spelling) :
    n.text.takeWhile (· != '.') = n.sign.text ++ n.whole := by
  have hsign : ∀ c ∈ n.sign.text, (c != '.') = true := by
    cases n.sign <;> simp [Sign.text]
  rw [Spelling.text, List.takeWhile_append_of_pos hsign, n.takeWhile_unsigned]

theorem dropWhile_text (n : Spelling) : n.text.dropWhile (· != '.') = n.pointed := by
  have hsplit := List.takeWhile_append_dropWhile (p := (· != '.')) (l := n.text)
  rw [takeWhile_text, Spelling.text, Spelling.unsigned, List.append_assoc] at hsplit
  exact List.append_cancel_left (List.append_cancel_left hsplit)

theorem filter_of_digits {digits : Text} (h : Digits.allDigits digits = true) :
    digits.filter (· != '_') = digits := by
  rw [List.filter_eq_self]
  intro c hc
  rw [bne_iff_ne]
  exact Digits.ne_of_isDigit (List.all_eq_true.1 h c hc) (by decide)

/-- The point is taken out, and the digits behind it are counted. -/
theorem splitPoint_text (n : Spelling) :
    splitPoint n.text = (n.sign.text ++ (n.whole ++ n.places), n.places.length) := by
  have hplaces := n.fraction_digits
  rw [splitPoint, dropWhile_text, takeWhile_text, Spelling.pointed, Spelling.places]
  cases hn : n.fraction with
  | none =>
    have htext : n.text = n.sign.text ++ n.whole := by
      simp [Spelling.text, Spelling.unsigned, Spelling.pointed, hn]
    simp [htext]
  | some places =>
    rw [hn] at hplaces
    cases places with
    | nil => simp
    | cons c rest =>
      have hfilter := filter_of_digits hplaces
      simp only [Option.getD_some] at hfilter ⊢
      rw [hfilter, List.append_assoc]

theorem unsigned?_of_digits {digits : Text} (hdigits : Digits.allDigits digits = true)
    (hnil : digits ≠ []) : unsigned? digits = some (Digits.value digits) := by
  unfold unsigned?
  split
  · exact absurd rfl hnil
  · cases hdigits
  · rw [filter_of_digits hdigits, if_pos hdigits]

theorem integer?_of_digits (sign : Sign) {digits : Text} (hdigits : Digits.allDigits digits = true)
    (hnil : digits ≠ []) :
    integer? (sign.text ++ digits) = some (sign.apply (Digits.value digits)) := by
  have hunsigned := unsigned?_of_digits hdigits hnil
  cases sign with
  | plus => simp [Sign.text, integer?, hunsigned, Sign.apply]
  | minus => simp [Sign.text, integer?, hunsigned, Sign.apply]
  | absent =>
    rw [Sign.text, List.nil_append]
    unfold integer?
    split
    · cases hdigits
    · cases hdigits
    · rw [hunsigned]
      rfl

/-- A number is read as it is spelled. -/
theorem read?_text (n : Spelling) : read? n.text = some n.toScaled := by
  have hinteger := integer?_of_digits n.sign n.allDigits_digits n.digits_ne_nil
  simp only [read?, splitExponent_text, splitPoint_text, hinteger]
  rw [Int.sub_zero]
  rfl

/-- The reader takes a number in plain notation for what it is. -/
def ReadsPlain (read : Text → Option Scaled) : Prop :=
  ∀ text v, IsPlain text v → read text = some v

theorem readsPlain_read? : ReadsPlain read? := by
  rintro text v ⟨n, -, rfl, rfl⟩
  exact read?_text n

end Literal

namespace WideDecimal

/-! ## Plain notation of a wide decimal -/

/-- Plain notation has no blanks and no underscores. -/
theorem cleaned_text (n : Spelling) : cleaned n.text = n.text := by
  have hkept : ∀ c ∈ n.text, (c != '_') = true := by
    apply n.all_text
    · intro c hc
      rw [bne_iff_ne]
      exact Digits.ne_of_isDigit hc (by decide)
    · decide
    · decide
    · decide
  rw [cleaned, n.trim_text]
  simp only [ite_self]
  exact List.filter_eq_self.2 hkept

/-- The number with its zeros written out, at a scale of zero or more. -/
def writtenOut (v : WideDecimal) : Scaled := ⟨v.digits * 10 ^ (-v.scale).toNat, max 0 v.scale⟩

theorem writtenOut_toRat (v : WideDecimal) : v.writtenOut.toRat = v.toRat := by
  have hscale : max 0 v.scale = v.scale + (-v.scale).toNat := by omega
  rw [writtenOut, hscale]
  exact Scaled.toRat_shift v.digits v.scale (-v.scale).toNat

theorem writtenOut_of_nonneg {v : WideDecimal} (h : 0 ≤ v.scale) : v.writtenOut = v.toScaled := by
  have hzeros : (-v.scale).toNat = 0 := by omega
  rw [writtenOut, hzeros, Int.max_eq_right h]
  simp

theorem naturalText_isPlain (v : WideDecimal) : IsPlain v.naturalText v.writtenOut := by
  have hunscaled : v.unscaled = (v.writtenOut.digits.natAbs, v.writtenOut.scale.toNat) := by
    rw [unscaled_eq, Scaled.unscaled]
    split
    · rename_i hscale
      rw [writtenOut_of_nonneg hscale]
    · rename_i hscale
      have hzero : max 0 v.scale = 0 := by omega
      rw [writtenOut, hzero, Int.natAbs_mul, Int.natAbs_pow]
      rfl
  have hnegative : v.negative = decide (v.writtenOut.digits < 0) := by
    have hpow : (0 : ℤ) < 10 ^ (-v.scale).toNat := by positivity
    rw [negative, decide_eq_decide]
    exact ⟨fun h => mul_neg_of_neg_of_pos h hpow, fun h => neg_of_mul_neg_left h hpow.le⟩
  have hscale : (v.writtenOut.scale.toNat : ℤ) = v.writtenOut.scale :=
    Int.toNat_of_nonneg (le_max_left 0 v.scale)
  have hplain := placePoint_natAbs v.writtenOut.digits v.writtenOut.scale.toNat
  rw [naturalText, hunscaled, hnegative]
  rwa [hscale] at hplain

/-! ## Where wide decimals come from -/

theorem ofScaled_eq_ok_iff {number : Scaled} {v : WideDecimal} :
    ofScaled number = .ok v ↔ number = v.toScaled := by
  unfold ofScaled
  split
  · rename_i hscale
    constructor
    · intro h
      cases h
      rfl
    · rintro rfl
      rfl
  · rename_i hscale
    constructor
    · intro h
      cases h
    · rintro rfl
      exact absurd v.scale_le hscale

theorem parseBy_eq_ok_iff {read : Text → Option Scaled} {text : Text} {v : WideDecimal} :
    parseBy read text = .ok v ↔ cleaned text ≠ [] ∧ read (cleaned text) = some v.toScaled := by
  unfold parseBy
  split
  · rename_i hempty
    rw [List.isEmpty_iff] at hempty
    simp [hempty]
  rename_i hempty
  rw [List.isEmpty_iff] at hempty
  split
  · rename_i hnone
    simp [hnone]
  · rename_i number hsome
    rw [hsome, Option.some.injEq]
    split
    · rename_i hscale
      constructor
      · intro h
        cases h
        exact ⟨hempty, rfl⟩
      · rintro ⟨-, rfl⟩
        rfl
    · rename_i hscale
      constructor
      · intro h
        cases h
      · rintro ⟨-, rfl⟩
        exact absurd v.scale_le hscale

/-- What a wide decimal is made of. -/
inductive Origin where
  | number (v : Scaled)
  | parts (mantissa : Signed 128) (scale : Unsigned 32)
  | literal (text : Text)
  | document (depth : Nat) (json : Json)

/-- The decimal that is made, if its origin is accepted. -/
def Origin.made? (read : Text → Option Scaled) : Origin → Option WideDecimal
  | .number v => (ofScaled v).toOption
  | .parts mantissa scale => (ofParts mantissa.val scale.val).toOption
  | .literal text => (parseBy read text).toOption
  | .document depth json => decodeBy read depth json

/-- The number that is asked for. -/
def Origin.number? (read : Text → Option Scaled) : Origin → Option Scaled
  | .number v => some v
  | .parts mantissa scale => some ⟨mantissa.val, scale.val⟩
  | .literal text => if cleaned text = [] then none else read (cleaned text)
  | .document depth json => Scaled.decodeBy read depth json

theorem toOption_eq_some_iff {made : Except DecimalError WideDecimal} {v : WideDecimal} :
    made.toOption = some v ↔ made = .ok v := by
  cases made <;> simp [Except.toOption]

/-- Digits and scale are kept as they are asked for. -/
theorem Origin.made?_eq_some_iff {read : Text → Option Scaled} {origin : Origin}
    {v : WideDecimal} : origin.made? read = some v ↔ origin.number? read = some v.toScaled := by
  cases origin with
  | number number =>
    rw [made?, number?, toOption_eq_some_iff, ofScaled_eq_ok_iff, Option.some.injEq]
  | parts mantissa scale =>
    rw [made?, number?, ofParts, toOption_eq_some_iff, ofScaled_eq_ok_iff, Option.some.injEq]
  | literal text =>
    rw [made?, number?, toOption_eq_some_iff, parseBy_eq_ok_iff]
    split
    · rename_i hempty
      simp [hempty]
    · rename_i hempty
      simp [hempty]
  | document depth json =>
    rw [made?, number?, decodeBy, Option.bind_eq_some_iff]
    simp only [toOption_eq_some_iff, ofScaled_eq_ok_iff, exists_eq_right]

/-! ## Reading the natural text -/

theorem sameValue_iff {v w : WideDecimal} : v.sameValue w = true ↔ v.toRat = w.toRat := by
  rw [sameValue, compare, Scaled.compare_exact, beq_iff_eq, cmp_eq_eq_iff]

theorem toScaled_injective {v w : WideDecimal} (h : v.toScaled = w.toScaled) : v = w := by
  cases v
  cases w
  cases h
  rfl

/-- A wide decimal keeps the digits and the scale that it was made of, and the scale is within the
bound, so it is never clamped.  Its natural text is its value in plain notation, with the digits
of its scale behind the point and none for a scale below zero.  A reader that takes plain notation
for what it is reads an equal value back, and the same digits and scale unless the scale is below
zero. -/
theorem parseBy_naturalText {read : Text → Option Scaled} (hread : Literal.ReadsPlain read)
    (v : WideDecimal) :
    v.scale.natAbs ≤ maxWideScale ∧ v.clampedScale = v.scale ∧
    (∀ origin : Origin, origin.made? read = some v ↔ origin.number? read = some v.toScaled) ∧
    ∃ plain : Scaled, IsPlain v.naturalText plain ∧ plain.scale = max 0 v.scale ∧
      plain.toRat = v.toRat ∧
      ∃ w : WideDecimal, parseBy read v.naturalText = .ok w ∧ w.sameValue v = true ∧
        w.toRat = v.toRat ∧ (0 ≤ v.scale → w = v) := by
  have hplain := v.naturalText_isPlain
  have hscale : v.writtenOut.scale.natAbs ≤ maxWideScale := by
    have hbound := v.scale_le
    show (max 0 v.scale).natAbs ≤ maxWideScale
    omega
  have hparse : parseBy read v.naturalText = .ok ⟨v.writtenOut, hscale⟩ := by
    have hcleaned : cleaned v.naturalText = v.naturalText := by
      obtain ⟨n, -, htext, -⟩ := hplain
      rw [← htext, cleaned_text]
    have hnil : v.naturalText ≠ [] := by
      obtain ⟨c, hc, -⟩ := hplain.exists_getLast?
      intro h
      simp [h] at hc
    rw [parseBy_eq_ok_iff, hcleaned]
    exact ⟨hnil, hread _ _ hplain⟩
  refine ⟨v.scale_le, v.clampedScale_eq, fun origin => Origin.made?_eq_some_iff, v.writtenOut,
    hplain, rfl, v.writtenOut_toRat, ⟨v.writtenOut, hscale⟩, hparse, ?_, v.writtenOut_toRat,
    fun h => ?_⟩
  · exact sameValue_iff.2 v.writtenOut_toRat
  · exact toScaled_injective (writtenOut_of_nonneg h)

/-- The value -12500, kept as -125 hundreds, is read from its plain notation. -/
theorem parseBy_naturalText_hundreds :
    Literal.ReadsPlain Literal.read? ∧ ∃ w : WideDecimal,
      parseBy Literal.read? (naturalText ⟨⟨-125, -2⟩, by decide⟩) = .ok w ∧
        w.sameValue ⟨⟨-125, -2⟩, by decide⟩ = true := by
  obtain ⟨-, -, -, plain, -, -, -, w, hw, hsame, -⟩ :=
    parseBy_naturalText Literal.readsPlain_read? ⟨⟨-125, -2⟩, by decide⟩
  exact ⟨Literal.readsPlain_read?, w, hw, hsame⟩

end WideDecimal

end ResultSet
