import ResultSet.Calendar.TimeOfDay
import ResultSet.Proofs.Binary.Value
import ResultSet.Proofs.Number.Digits

/-!
# What the text of a time of day says

A `SpelledTime` is a time of day as it stands in a text `[-]HH:MM:SS`, with no bound on the hours.

* A text spells at most one time (`SpelledTime.text_injective`), and every sign and number of
  seconds can be spelled (`SpelledTime.ofSeconds`).
* `wholeSeconds_eq`: within 64 bits the seconds that are written are those in front of the fraction.
* `text_denotes`: the text is the number of seconds without its fraction.  The minus sign is that
  of the number with its fraction, so a time less than one second below zero has one in front of
  zeros, which `text_belowZero` shows.
-/

namespace ResultSet

/-- A time of day as it is spelled: hours of two digits, or of more with no zero in front, minutes
and seconds of two digits below 60. -/
@[ext] structure SpelledTime where
  negative : Bool
  hours : Text
  minutes : Text
  seconds : Text
  hours_digits : Digits.allDigits hours = true
  hours_width : 2 ≤ hours.length
  hours_head : 2 < hours.length → hours.head? ≠ some '0'
  minutes_digits : Digits.allDigits minutes = true
  minutes_width : minutes.length = 2
  minutes_lt : Digits.value minutes < 60
  seconds_digits : Digits.allDigits seconds = true
  seconds_width : seconds.length = 2
  seconds_lt : Digits.value seconds < 60

namespace SpelledTime

/-- The text behind the sign. -/
def unsigned (t : SpelledTime) : Text := t.hours ++ ':' :: (t.minutes ++ ':' :: t.seconds)

/-- The text of the time. -/
def text (t : SpelledTime) : Text := (if t.negative then ['-'] else []) ++ t.unsigned

/-- The number of seconds behind the sign. -/
def total (t : SpelledTime) : Nat :=
  3600 * Digits.value t.hours + 60 * Digits.value t.minutes + Digits.value t.seconds

/-- The number of seconds. -/
def value (t : SpelledTime) : ℤ := if t.negative then -(t.total : ℤ) else t.total

/-! ## A text spells one time -/

/-- Digits end at the first mark behind them. -/
theorem digits_eq_of_append {left right rest rest' : Text} (hleft : Digits.allDigits left = true)
    (hright : Digits.allDigits right = true) (h : left ++ ':' :: rest = right ++ ':' :: rest') :
    left = right ∧ rest = rest' := by
  have htake {digits : Text} (hdigits : Digits.allDigits digits = true) (behind : Text) :
      (digits ++ ':' :: behind).takeWhile Char.isDigit = digits := by
    have hmark : (':' : Char).isDigit = false := rfl
    rw [List.takeWhile_append_of_pos (List.all_eq_true.1 hdigits), List.takeWhile_cons, hmark,
      if_neg Bool.false_ne_true, List.append_nil]
  have hsame : left = right := by
    rw [← htake hleft rest, h, htake hright rest']
  subst hsame
  exact ⟨rfl, (List.cons.inj (List.append_cancel_left h)).2⟩

theorem minus_notMem_unsigned (t : SpelledTime) : '-' ∉ t.unsigned := by
  have hdigits {digits : Text} (h : Digits.allDigits digits = true) : '-' ∉ digits := fun hmem =>
    Bool.false_ne_true (List.all_eq_true.1 h '-' hmem)
  simp [unsigned, hdigits t.hours_digits, hdigits t.minutes_digits, hdigits t.seconds_digits]

theorem mem_text_iff (t : SpelledTime) : '-' ∈ t.text ↔ t.negative = true := by
  rw [text, List.mem_append, or_iff_left t.minus_notMem_unsigned]
  cases t.negative <;> simp

theorem text_injective {t u : SpelledTime} (h : t.text = u.text) : t = u := by
  have hnegative : t.negative = u.negative := by
    rw [Bool.eq_iff_iff, ← mem_text_iff, ← mem_text_iff, h]
  have hunsigned : t.unsigned = u.unsigned := by
    rw [text, text, hnegative] at h
    exact List.append_cancel_left h
  obtain ⟨hhours, hrest⟩ := digits_eq_of_append t.hours_digits u.hours_digits hunsigned
  obtain ⟨hminutes, hseconds⟩ := digits_eq_of_append t.minutes_digits u.minutes_digits hrest
  exact SpelledTime.ext hnegative hhours hminutes hseconds

/-! ## Spelling a number of seconds -/

/-- More than the width is written without a zero in front. -/
theorem head?_padded {width n : Nat} (hwidth : 0 < width)
    (h : width < (Digits.padded width n).length) : (Digits.padded width n).head? ≠ some '0' := by
  rw [Digits.length_padded_eq_max] at h
  have hnone : width - (Digits.ofNat n).length = 0 := by omega
  intro hhead
  rw [Digits.padded, hnone, List.replicate_zero, List.nil_append] at hhead
  have hzero := (Digits.isWhole_ofNat n).head hhead
  rw [hzero, List.length_singleton] at h
  omega

/-- The time with a sign and a number of seconds. -/
def ofSeconds (negative : Bool) (total : Nat) : SpelledTime where
  negative := negative
  hours := Digits.padded 2 (total / 3600)
  minutes := Digits.padded 2 (total / 60 % 60)
  seconds := Digits.padded 2 (total % 60)
  hours_digits := Digits.allDigits_padded ..
  hours_width := by
    rw [Digits.length_padded_eq_max]
    exact Nat.le_max_left ..
  hours_head := head?_padded (by decide)
  minutes_digits := Digits.allDigits_padded ..
  minutes_width := Digits.length_padded (by decide) (by omega)
  minutes_lt := by
    rw [Digits.value_padded]
    omega
  seconds_digits := Digits.allDigits_padded ..
  seconds_width := Digits.length_padded (by decide) (by omega)
  seconds_lt := by
    rw [Digits.value_padded]
    omega

theorem total_ofSeconds (negative : Bool) (total : Nat) :
    (ofSeconds negative total).total = total := by
  simp only [SpelledTime.total, ofSeconds, Digits.value_padded]
  omega

theorem ofSeconds_injective {negative negative' : Bool} {total total' : Nat}
    (h : ofSeconds negative total = ofSeconds negative' total') :
    negative = negative' ∧ total = total' := by
  refine ⟨congrArg SpelledTime.negative h, ?_⟩
  rw [← total_ofSeconds negative total, h, total_ofSeconds]

end SpelledTime

namespace TimeOfDay

variable {x : Binary64}

theorem text_eq (x : Binary64) :
    text x = (SpelledTime.ofSeconds x.belowZero (wholeSeconds x)).text := by
  simp only [text, List.append_assoc, List.cons_append, List.nil_append]
  rfl

/-- Within 64 bits the seconds are those in front of the fraction. -/
theorem wholeSeconds_eq (hfinite : x.isFinite = true) (hrange : |x.toRat| < 2 ^ 63) :
    wholeSeconds x = ⌊|x.toRat|⌋₊ := by
  have hlt : ⌊|x.toRat|⌋₊ < 2 ^ 63 := by
    rw [Nat.floor_lt (abs_nonneg _)]
    exact_mod_cast hrange
  rw [wholeSeconds, Floating.truncated?_eq hfinite]
  exact Nat.min_eq_left (by rw [maxSeconds]; omega)

/-- The sign and the seconds are those of the number. -/
theorem text_eq_iff {y : Binary64} (hx : x.isFinite = true) (hy : y.isFinite = true)
    (hxr : |x.toRat| < 2 ^ 63) (hyr : |y.toRat| < 2 ^ 63) :
    text x = text y ↔
      truncate x.toRat = truncate y.toRat ∧ (x.toRat < 0 ↔ y.toRat < 0) := by
  rw [text_eq, text_eq, wholeSeconds_eq hx hxr, wholeSeconds_eq hy hyr,
    Floating.truncate_toRat hx, Floating.truncate_toRat hy, ← Floating.belowZero_iff hx,
    ← Floating.belowZero_iff hy, ← Bool.eq_iff_iff]
  constructor
  · intro h
    obtain ⟨hsign, hseconds⟩ := SpelledTime.ofSeconds_injective (SpelledTime.text_injective h)
    rw [hsign, hseconds]
    exact ⟨rfl, rfl⟩
  · rintro ⟨hvalue, hsign⟩
    rw [hsign] at hvalue ⊢
    have hseconds : ⌊|x.toRat|⌋₊ = ⌊|y.toRat|⌋₊ := by
      split at hvalue <;> omega
    rw [hseconds]

/-- The text of a finite number of seconds within 64 bits is that number without its fraction, with
a minus sign if this is below zero, or if the fraction alone is.  So two texts are the same exactly
if the numbers are without their fractions, and both or none of them is below zero. -/
theorem text_denotes (hx : x.isFinite = true) (hxr : |x.toRat| < 2 ^ 63) :
    (∃ t : SpelledTime, text x = t.text ∧ t.value = truncate x.toRat ∧
      (t.negative = true ↔ truncate x.toRat < 0 ∨ (-1 < x.toRat ∧ x.toRat < 0))) ∧
    ∀ y : Binary64, y.isFinite = true → |y.toRat| < 2 ^ 63 →
      (text x = text y ↔ truncate x.toRat = truncate y.toRat ∧ (x.toRat < 0 ↔ y.toRat < 0)) := by
  refine ⟨⟨_, text_eq x, ?_, ?_⟩, fun y hy hyr => text_eq_iff hx hy hxr hyr⟩
  · rw [SpelledTime.value, SpelledTime.total_ofSeconds, wholeSeconds_eq hx hxr,
      Floating.truncate_toRat hx]
    rfl
  · show x.belowZero = true ↔ _
    rw [Floating.belowZero_iff hx, truncate_neg_iff]
    constructor
    · intro hneg
      exact (le_or_gt x.toRat (-1)).imp_right fun h => ⟨h, hneg⟩
    · rintro (hle | ⟨-, hneg⟩)
      · linarith
      · exact hneg

/-- An hour, a minute and almost two seconds below zero. -/
theorem text_denotes_negative :
    let x : Binary64 := Floating.ofBits .double 0xC0AC9B8000000000
    x.isFinite = true ∧ x.toRat = -14647 / 4 ∧ |x.toRat| < 2 ^ 63 ∧ text x = "-01:01:01".toList ∧
      ∃ t : SpelledTime, text x = t.text ∧ t.value = -3661 ∧ t.negative = true := by
  intro x
  have hfinite : x.isFinite = true := by decide
  have hmagnitude : x.magnitude = .finite 8052273406017536 (-41) := by decide
  have hnumber : x.toRat = -14647 / 4 := by
    rw [Floating.toRat_eq hmagnitude, show x.negative = true by decide]
    norm_num
  have hrange : |x.toRat| < 2 ^ 63 := by
    rw [hnumber]
    norm_num
  have htruncated : truncate x.toRat = -3661 := by
    rw [hnumber]
    decide +kernel
  obtain ⟨⟨t, htext, hvalue, hsign⟩, -⟩ := text_denotes hfinite hrange
  rw [htruncated] at hvalue hsign
  exact ⟨hfinite, hnumber, hrange, by decide +kernel, t, htext, hvalue, hsign.2 (.inl (by decide))⟩

/-- A time of half a second below zero has a minus sign in front of zeros, and a text of its own
although nothing is left of it without its fraction. -/
theorem text_belowZero :
    let x : Binary64 := Floating.ofBits .double 0xBFE0000000000000
    x.isFinite = true ∧ x.toRat = -1 / 2 ∧ |x.toRat| < 2 ^ 63 ∧ truncate x.toRat = 0 ∧
      text x = "-00:00:00".toList ∧ text (Floating.zero .double) = "00:00:00".toList ∧
      truncate (Floating.zero .double).toRat = 0 := by
  intro x
  have hmagnitude : x.magnitude = .finite 4503599627370496 (-53) := by decide
  have hnumber : x.toRat = -1 / 2 := by
    rw [Floating.toRat_eq hmagnitude, show x.negative = true by decide]
    norm_num
  have hzero : (Floating.zero .double).magnitude = .finite 0 (-1074) := by decide
  refine ⟨by decide, hnumber, ?_, ?_, by decide +kernel, by decide +kernel, ?_⟩
  · rw [hnumber]
    norm_num
  · rw [hnumber]
    decide +kernel
  · rw [Floating.toRat_eq hzero, Nat.cast_zero, zero_mul, mul_zero]
    rfl

end TimeOfDay

end ResultSet
