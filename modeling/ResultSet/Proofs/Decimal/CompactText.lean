import ResultSet.Proofs.Decimal.WideText
import ResultSet.Proofs.Json.Render

/-!
# Wide decimals through their compact text

In JSON a wide decimal is the string of its compact text.  `WideDecimal.IsCompact v text` says which
of four notations that is: zero, an exponent for many zeros in front of the digits, an exponent for
many zeros behind them, and plain notation (`compactText_isCompact`).  `Literal.ReadsCompact read`
says that a reader takes each of them for what it is (`Literal.readsCompact_read?`).

The notation decides which digits and which scale the reader gives (`WideDecimal.reread`).  The
scale never leaves the bound, so the text is never refused.  `WideDecimal.decodeText_toJsonBy` is
the round trip for every writer and every reader of these notations.
-/

namespace ResultSet

/-! ## Literals with an exponent -/

namespace Literal

/-- A mantissa with an exponent behind a mark. -/
def withExponent (mantissa : Text) (mark : Char) (exponent : Int) : Text :=
  mantissa ++ mark :: Scaled.signedText exponent

theorem signedText_eq (v : Int) :
    Scaled.signedText v =
      (if v < 0 then Sign.minus else Sign.plus).text ++ Digits.ofNat v.natAbs := by
  unfold Scaled.signedText Digits.ofInt
  split <;> rfl

theorem exponent?_signedText (v : Int) : exponent? (Scaled.signedText v) = some v := by
  have hunder : (Scaled.signedText v).contains '_' = false := by
    have hdigits : '_' ∉ Digits.ofNat v.natAbs := fun h =>
      absurd (Digits.isDigit_of_mem_ofNat h) (by decide)
    rw [signedText_eq]
    split <;> simpa [Sign.text] using hdigits
  have hread := integer?_of_digits (if v < 0 then Sign.minus else Sign.plus)
    (Digits.allDigits_ofNat v.natAbs) (Digits.ofNat_ne_nil v.natAbs)
  rw [exponent?, hunder, if_neg Bool.false_ne_true, signedText_eq, hread, Digits.value_ofNat]
  split <;> simp only [Sign.apply, Option.some.injEq] <;> omega

theorem splitExponent_withExponent (n : Spelling) {mark : Char} (hmark : mark = 'e' ∨ mark = 'E')
    (exponent : Int) :
    splitExponent (withExponent n.text mark exponent) =
      (n.text, some (Scaled.signedText exponent)) := by
  have hmantissa := not_mark n
  have hstop : (!(mark == 'e' || mark == 'E')) = false := by
    rcases hmark with rfl | rfl <;> rfl
  simp only [splitExponent, withExponent, List.takeWhile_append_of_pos hmantissa,
    List.dropWhile_append_of_pos hmantissa, List.takeWhile_cons, List.dropWhile_cons, hstop,
    Bool.false_eq_true, if_false, List.append_nil]

/-- The exponent is taken off the scale. -/
theorem read?_withExponent (n : Spelling) {mark : Char} (hmark : mark = 'e' ∨ mark = 'E')
    (exponent : Int) :
    read? (withExponent n.text mark exponent) =
      some ⟨n.toScaled.digits, n.toScaled.scale - exponent⟩ := by
  have hinteger := integer?_of_digits n.sign n.allDigits_digits n.digits_ne_nil
  simp only [read?, splitExponent_withExponent n hmark, exponent?_signedText, splitPoint_text,
    hinteger]
  rfl

/-- The reader takes plain notation for what it is, and plain notation with an exponent as far as
the scale of the number is within the bound. -/
structure ReadsCompact (read : Text → Option Scaled) : Prop where
  plain : ReadsPlain read
  withExponent : ∀ {mantissa v}, IsPlain mantissa v → ∀ {mark}, mark = 'e' ∨ mark = 'E' →
    ∀ exponent : Int, (v.scale - exponent).natAbs ≤ maxWideScale →
      read (withExponent mantissa mark exponent) = some ⟨v.digits, v.scale - exponent⟩

theorem readsCompact_read? : ReadsCompact read? := by
  refine ⟨readsPlain_read?, ?_⟩
  rintro mantissa v ⟨n, -, rfl, rfl⟩ mark hmark exponent -
  exact read?_withExponent n hmark exponent

end Literal

namespace WideDecimal

/-! ## The four notations -/

/-- The number of digits, one for zero. -/
def digitCount (v : WideDecimal) : Nat := (Digits.ofNat v.digits.natAbs).length

/-- The text is zero, or has an exponent where plain notation would need more than five zeros
between the point and the digits or more than fifteen behind them, or is plain notation. -/
inductive IsCompact (v : WideDecimal) : Text → Prop
  | zero (hzero : v.digits = 0) : IsCompact v ['0']
  | leading {mantissa : Text} (hzero : v.digits ≠ 0)
      (hscale : (v.digitCount : Int) + 5 < v.scale)
      (hplain : IsPlain mantissa ⟨v.digits, v.digitCount - 1⟩) :
      IsCompact v (Literal.withExponent mantissa 'E' (v.digitCount - 1 - v.scale))
  | trailing {mantissa : Text} (hzero : v.digits ≠ 0) (hscale : v.scale < -15)
      (hplain : IsPlain mantissa ⟨v.digits, 0⟩) :
      IsCompact v (Literal.withExponent mantissa 'e' (-v.scale))
  | plain {text : Text} (hzero : v.digits ≠ 0) (hleading : v.scale ≤ v.digitCount + 5)
      (htrailing : -15 ≤ v.scale) (hplain : IsPlain text v.writtenOut) : IsCompact v text

theorem any_digits {v : WideDecimal} (hzero : v.digits ≠ 0) :
    (Digits.ofNat v.digits.natAbs).any (· != '0') = true := by
  have hvalue : Digits.value (Digits.ofNat v.digits.natAbs) ≠ 0 := by
    rw [Digits.value_ofNat]
    omega
  rw [Ne, Digits.value_eq_zero_iff (Digits.allDigits_ofNat _)] at hvalue
  simpa using hvalue

theorem isPlain_digits {v : WideDecimal} (hzero : v.digits ≠ 0) :
    IsPlain ((if v.digits < 0 then ['-'] else []) ++ Digits.ofNat v.digits.natAbs)
      ⟨v.digits, 0⟩ := by
  have hplain := placePoint_natAbs v.digits 0
  simpa [placePoint, any_digits hzero] using hplain

/-- The digits with the point behind the first one, unless that is the only one. -/
def mantissa (v : WideDecimal) : Text :=
  match Digits.ofNat v.digits.natAbs with
  | first :: second :: rest => first :: '.' :: second :: rest
  | digits => digits

theorem isPlain_mantissa {v : WideDecimal} (hzero : v.digits ≠ 0) :
    IsPlain ((if v.digits < 0 then ['-'] else []) ++ v.mantissa) ⟨v.digits, v.digitCount - 1⟩ := by
  have hany := any_digits hzero
  have hplain := placePoint_natAbs v.digits (v.digitCount - 1)
  obtain ⟨first, rest, hdigits⟩ :=
    List.exists_cons_of_ne_nil (Digits.ofNat_ne_nil v.digits.natAbs)
  have hcount : v.digitCount = rest.length + 1 := by rw [digitCount, hdigits, List.length_cons]
  have htext : placePoint (Digits.ofNat v.digits.natAbs) (v.digitCount - 1)
      (decide (v.digits < 0)) = (if v.digits < 0 then ['-'] else []) ++ v.mantissa := by
    rw [hdigits] at hany
    rw [hcount, mantissa, hdigits]
    cases rest with
    | nil => simp [placePoint, hany]
    | cons second rest => simp [placePoint, hany]
  have hscale : ((v.digitCount - 1 : Nat) : Int) = v.digitCount - 1 := by omega
  rwa [htext, hscale] at hplain

theorem compactText_isCompact (v : WideDecimal) : IsCompact v v.compactText := by
  have hcount : (Digits.ofNat v.digits.natAbs).length = v.digitCount := rfl
  have hlead : Scaled.maxLeadingZeros = 5 := rfl
  have htrail : Scaled.maxTrailingZeros = 15 := rfl
  unfold Scaled.compactText
  dsimp only
  split
  · exact .zero ‹_›
  rename_i hzero
  split
  · -- many zeros in front: the point moves behind the first digit
    rename_i hscale
    have hcompact := IsCompact.leading hzero (by omega) (isPlain_mantissa hzero)
    show IsCompact v ((if v.digits < 0 then ['-'] else []) ++ v.mantissa ++ ['E'] ++
      Scaled.signedText (v.digitCount - 1 - v.scale))
    rwa [List.append_assoc _ ['E'], List.singleton_append]
  rename_i hleading
  split
  · -- many zeros behind: they are left out
    rename_i htrailing
    have hcompact := IsCompact.trailing hzero htrailing (isPlain_digits hzero)
    rwa [List.append_assoc _ ['e'], List.singleton_append]
  · -- what is left is the natural text
    rename_i htrailing
    have hplain := v.naturalText_isPlain
    rw [naturalText, unscaled_eq] at hplain
    exact .plain hzero (by omega) (by omega) hplain

/-! ## Reading them back -/

/-- What the text is read back as: zero without a scale, a number whose zeros are written out with
these zeros, and any other number with its own digits and scale. -/
def reread (v : WideDecimal) : Scaled :=
  if v.digits = 0 then ⟨0, 0⟩ else if -15 ≤ v.scale then v.writtenOut else v.toScaled

theorem reread_toRat (v : WideDecimal) : v.reread.toRat = v.toRat := by
  unfold reread
  split
  · rename_i hzero
    simp [Scaled.toRat, hzero]
  split
  · exact v.writtenOut_toRat
  · rfl

theorem natAbs_reread_scale_le (v : WideDecimal) : v.reread.scale.natAbs ≤ v.scale.natAbs := by
  unfold reread
  split
  · exact Nat.zero_le _
  split
  · show (max 0 v.scale).natAbs ≤ v.scale.natAbs
    omega
  · exact le_rfl

theorem reread_of_nonneg {v : WideDecimal} (hzero : v.digits ≠ 0) (hscale : 0 ≤ v.scale) :
    v.reread = v.toScaled := by
  rw [reread, if_neg hzero, if_pos (by omega), writtenOut_of_nonneg hscale]

/-- Each of the notations is taken for what it is. -/
theorem IsCompact.read_eq {v : WideDecimal} {text : Text} (h : IsCompact v text)
    {read : Text → Option Scaled} (hread : Literal.ReadsCompact read) :
    read text = some v.reread := by
  have hbound := v.scale_le
  cases h with
  | zero hzero =>
    rw [reread, if_pos hzero]
    exact hread.plain _ _ (placePoint_ofNat 0 0 false)
  | leading hzero hscale hplain =>
    have hown : (v.digitCount : Int) - 1 - (v.digitCount - 1 - v.scale) = v.scale := by omega
    rw [hread.withExponent hplain (.inr rfl) _ (by rwa [hown]), hown,
      reread_of_nonneg hzero (by omega)]
  | trailing hzero hscale hplain =>
    have hown : (0 : Int) - -v.scale = v.scale := by omega
    rw [hread.withExponent hplain (.inl rfl) _ (by rwa [hown]), hown, reread, if_neg hzero,
      if_neg (by omega)]
  | plain hzero hleading htrailing hplain =>
    rw [hread.plain _ _ hplain, reread, if_neg hzero, if_pos htrailing]

end WideDecimal

/-! ## In a document -/

namespace WideDecimal

/-- Every wide decimal, whatever it was made of, is written into JSON in one of the four notations
and read back.  The bound on the scale refuses nothing that was written: the scale that is read is
no larger than the one that was written.  The number is the same, and unless it is zero or stands
in front of one to fifteen zeros, so are its digits and its scale. -/
theorem decodeText_toJsonBy {write : Scaled → Text} {read : Text → Option Scaled}
    (hwrite : ∀ v : WideDecimal, IsCompact v (write v.toScaled))
    (hread : Literal.ReadsCompact read) (v : WideDecimal) :
    ∃ w : WideDecimal, Json.decodeText (decodeBy read) (toJsonBy write v).render = some w ∧
      w.sameValue v = true ∧ w.toRat = v.toRat ∧ w.scale.natAbs ≤ v.scale.natAbs ∧
      (v.digits ≠ 0 → 0 ≤ v.scale ∨ v.scale < -15 → w = v) := by
  have hscale : v.reread.scale.natAbs ≤ maxWideScale :=
    v.natAbs_reread_scale_le.trans v.scale_le
  have hdecode : Json.decodeText (decodeBy read) (toJsonBy write v).render =
      some ⟨v.reread, hscale⟩ := by
    rw [Json.decodeText, toJsonBy, Json.parse_render (.text _)]
    show (read (write v.toScaled)).bind (fun v => (ofScaled v).toOption) = _
    rw [(hwrite v).read_eq hread, Option.bind_some, toOption_eq_some_iff, ofScaled_eq_ok_iff]
  refine ⟨⟨v.reread, hscale⟩, hdecode, sameValue_iff.2 v.reread_toRat, v.reread_toRat,
    v.natAbs_reread_scale_le, fun hzero hkept => toScaled_injective ?_⟩
  rcases hkept with hnonneg | htrailing
  · exact reread_of_nonneg hzero hnonneg
  · show v.reread = v.toScaled
    rw [reread, if_neg hzero, if_neg (by omega)]

/-- The digits -125 in front of sixty-eight zeros, and the digit 7 behind as many places. -/
theorem decodeText_toJsonBy_edge :
    (∀ v : WideDecimal, IsCompact v v.compactText) ∧ Literal.ReadsCompact Literal.read? ∧
      Json.decodeText decode (toJson ⟨⟨-125, -68⟩, by decide⟩).render =
        some ⟨⟨-125, -68⟩, by decide⟩ ∧
      Json.decodeText decode (toJson ⟨⟨7, 68⟩, by decide⟩).render =
        some ⟨⟨7, 68⟩, by decide⟩ := by
  obtain ⟨v, hread, -, -, -, hv⟩ := decodeText_toJsonBy compactText_isCompact
    Literal.readsCompact_read? ⟨⟨-125, -68⟩, by decide⟩
  obtain ⟨w, hread', -, -, -, hw⟩ := decodeText_toJsonBy compactText_isCompact
    Literal.readsCompact_read? ⟨⟨7, 68⟩, by decide⟩
  rw [hv (by decide) (by decide)] at hread
  rw [hw (by decide) (by decide)] at hread'
  exact ⟨compactText_isCompact, Literal.readsCompact_read?, hread, hread'⟩

end WideDecimal

end ResultSet
