import ResultSet.Decimal.Point
import ResultSet.Decimal.Scaled
import ResultSet.Proofs.Text.Blank

/-!
# How decimals are spelled

A `Spelling` is a decimal number as it stands in a text: a sign, digits, and digits behind a
point, each of which may be missing.

* A text spells at most one number (`Spelling.text_injective`).
* `IsPlain text v` says that `text` is `v` in plain notation: `v.scale` digits behind the point,
  no point without them, no zero in front of other digits, and a minus only for a number below
  zero.  Text and number determine each other (`IsPlain.text_eq_iff`).
* A spelled number has no blank to strip (`Spelling.trim_text`), and plain notation ends with the
  last digit (`IsPlain.exists_getLast?`).
* `placePoint_isPlain`: putting the point into digits gives plain notation, the digits of an integer
  with its sign in particular (`placePoint_natAbs`).
-/

namespace ResultSet

/-- What may stand in front of a number. -/
inductive Sign where
  | absent
  | plus
  | minus
deriving DecidableEq

namespace Sign

def text : Sign → Text
  | .absent => []
  | .plus => ['+']
  | .minus => ['-']

/-- The sign that a text begins with. -/
def ofText : Text → Sign
  | '+' :: _ => .plus
  | '-' :: _ => .minus
  | _ => .absent

/-- The integer with the sign and the magnitude. -/
def apply : Sign → Nat → Int
  | .minus, n => -n
  | _, n => n

@[simp] theorem natAbs_apply (sign : Sign) (n : Nat) : (sign.apply n).natAbs = n := by
  cases sign <;> simp [apply]

theorem apply_eq (sign : Sign) (n : Nat) :
    sign.apply n = if sign == .minus then -(n : Int) else n := by
  cases sign <;> rfl

end Sign

/-- A decimal number as it is spelled: a sign, digits, and the digits behind a point if there is
one.  The digits may be missing on one side of the point. -/
@[ext] structure Spelling where
  sign : Sign
  whole : Text
  fraction : Option Text
  whole_digits : Digits.allDigits whole = true
  fraction_digits : Digits.allDigits (fraction.getD []) = true
  digits_ne_nil : whole ++ fraction.getD [] ≠ []

namespace Spelling

/-- The digits behind the point. -/
def places (n : Spelling) : Text := n.fraction.getD []

/-- The point and the digits behind it. -/
def pointed (n : Spelling) : Text :=
  match n.fraction with
  | none => []
  | some places => '.' :: places

/-- The text behind the sign. -/
def unsigned (n : Spelling) : Text := n.whole ++ n.pointed

/-- The text of the number. -/
def text (n : Spelling) : Text := n.sign.text ++ n.unsigned

/-- The number that is spelled. -/
def toScaled (n : Spelling) : Scaled :=
  ⟨n.sign.apply (Digits.value (n.whole ++ n.places)), n.places.length⟩

theorem natAbs_digits (n : Spelling) :
    n.toScaled.digits.natAbs = Digits.value (n.whole ++ n.places) := by simp [toScaled]

theorem length_places {n : Spelling} {digits : Int} {scale : Nat}
    (h : n.toScaled = ⟨digits, scale⟩) : n.places.length = scale :=
  Int.natCast_inj.1 (congrArg Scaled.scale h)

theorem allDigits_digits (n : Spelling) : Digits.allDigits (n.whole ++ n.places) = true := by
  rw [Digits.allDigits_append, n.whole_digits, places, n.fraction_digits]
  rfl

/-! ## A text spells one number -/

theorem isDigit_of_mem_whole {n : Spelling} {c : Char} (h : c ∈ n.whole) : c.isDigit = true :=
  List.all_eq_true.1 n.whole_digits c h

theorem mem_unsigned {n : Spelling} {c : Char} (h : c ∈ n.unsigned) :
    c.isDigit = true ∨ c = '.' := by
  rw [unsigned, List.mem_append] at h
  rcases h with hwhole | hpointed
  · exact .inl (isDigit_of_mem_whole hwhole)
  · have hplaces := List.all_eq_true.1 n.fraction_digits c
    unfold pointed at hpointed
    cases hfraction : n.fraction with
    | none => simp [hfraction] at hpointed
    | some places =>
      simp only [hfraction, List.mem_cons, Option.getD_some] at hpointed hplaces
      exact hpointed.symm.imp hplaces id

theorem takeWhile_unsigned (n : Spelling) : n.unsigned.takeWhile (· != '.') = n.whole := by
  have hwhole : ∀ c ∈ n.whole, (c != '.') = true := by
    intro c hc
    rw [bne_iff_ne]
    exact Digits.ne_of_isDigit (isDigit_of_mem_whole hc) (by decide)
  rw [unsigned, List.takeWhile_append_of_pos hwhole, pointed]
  cases n.fraction <;> simp

theorem dropWhile_unsigned (n : Spelling) : n.unsigned.dropWhile (· != '.') = n.pointed := by
  have hsplit := List.takeWhile_append_dropWhile (p := (· != '.')) (l := n.unsigned)
  rw [takeWhile_unsigned] at hsplit
  exact List.append_cancel_left hsplit

theorem unsigned_injective {n m : Spelling} (h : n.unsigned = m.unsigned) :
    n.whole = m.whole ∧ n.fraction = m.fraction := by
  have hwhole : n.whole = m.whole := by rw [← takeWhile_unsigned, h, takeWhile_unsigned]
  have hpointed : n.pointed = m.pointed := by rw [← dropWhile_unsigned, h, dropWhile_unsigned]
  refine ⟨hwhole, ?_⟩
  unfold pointed at hpointed
  cases hn : n.fraction <;> cases hm : m.fraction <;> simp_all

/-- The sign is what the text begins with. -/
theorem ofText_text (n : Spelling) : Sign.ofText n.text = n.sign := by
  unfold text
  cases n.sign with
  | plus => rfl
  | minus => rfl
  | absent =>
    simp only [Sign.text, List.nil_append]
    cases hunsigned : n.unsigned with
    | nil => rfl
    | cons c rest =>
      have hc : c.isDigit = true ∨ c = '.' := mem_unsigned (by rw [hunsigned]; simp)
      unfold Sign.ofText
      split
      · simp_all
      · simp_all
      · rfl

theorem drop_text (n : Spelling) : n.text.drop n.sign.text.length = n.unsigned := by
  rw [text, List.drop_left]

/-- A text spells at most one number. -/
theorem text_injective {n m : Spelling} (h : n.text = m.text) : n = m := by
  have hsign : n.sign = m.sign := by rw [← ofText_text, h, ofText_text]
  rw [text, text, hsign] at h
  obtain ⟨hwhole, hfraction⟩ := unsigned_injective (List.append_cancel_left h)
  exact Spelling.ext hsign hwhole hfraction

/-! ## Plain notation -/

/-- No point without digits behind it, no zero in front of other digits, no plus, and a minus only
for a number below zero. -/
structure Plain (n : Spelling) : Prop where
  whole : Digits.IsWhole n.whole
  fraction : n.fraction ≠ some []
  sign : n.sign = if n.toScaled.digits < 0 then .minus else .absent

theorem Plain.fraction_eq {n : Spelling} (h : n.Plain) :
    n.fraction = if n.places = [] then none else some n.places := by
  have hfraction := h.fraction
  unfold places
  cases hn : n.fraction with
  | none => simp
  | some places => simp_all

/-- A number has one spelling in plain notation. -/
theorem Plain.eq_of_toScaled_eq {n m : Spelling} (hn : n.Plain) (hm : m.Plain)
    (h : n.toScaled = m.toScaled) : n = m := by
  have hsign : n.sign = m.sign := by rw [hn.sign, hm.sign, h]
  have hlength : n.places.length = m.places.length := by
    simpa only [toScaled, Int.natCast_inj] using congrArg Scaled.scale h
  have hvalue : Digits.value (n.whole ++ n.places) = Digits.value (m.whole ++ m.places) := by
    rw [← natAbs_digits, h, natAbs_digits]
  obtain ⟨hnWhole, hnPlaces⟩ := Digits.value_append_div_mod n.whole n.fraction_digits
  obtain ⟨hmWhole, hmPlaces⟩ := Digits.value_append_div_mod m.whole m.fraction_digits
  rw [← places, hvalue, hlength] at hnWhole hnPlaces
  have hwhole : n.whole = m.whole :=
    hn.whole.eq_of_value_eq hm.whole (hnWhole.symm.trans hmWhole)
  have hplaces : n.places = m.places :=
    Digits.eq_of_value_eq n.fraction_digits m.fraction_digits hlength
      (hnPlaces.symm.trans hmPlaces)
  refine Spelling.ext hsign hwhole ?_
  rw [hn.fraction_eq, hm.fraction_eq, hplaces]

end Spelling

/-- The text is the number in plain notation, with as many digits behind the point as its
scale. -/
def IsPlain (text : Text) (v : Scaled) : Prop :=
  ∃ n : Spelling, n.Plain ∧ n.text = text ∧ n.toScaled = v

namespace IsPlain

variable {text other : Text} {v w : Scaled}

/-- A number has one text in plain notation. -/
theorem text_unique (h : IsPlain text v) (hother : IsPlain other v) : text = other := by
  obtain ⟨n, hn, rfl, hv⟩ := h
  obtain ⟨m, hm, rfl, hw⟩ := hother
  rw [hn.eq_of_toScaled_eq hm (hv.trans hw.symm)]

/-- A text is the plain notation of one number, digits behind the point included. -/
theorem unique (h : IsPlain text v) (hother : IsPlain text w) : v = w := by
  obtain ⟨n, -, htext, rfl⟩ := h
  obtain ⟨m, -, rfl, rfl⟩ := hother
  rw [Spelling.text_injective htext]

theorem text_eq_iff (h : IsPlain text v) (hother : IsPlain other w) : text = other ↔ v = w := by
  constructor
  · rintro rfl
    exact h.unique hother
  · rintro rfl
    exact h.text_unique hother

/-- The text has one spelling. -/
theorem exists_spelling (h : IsPlain text v) :
    ∃ n : Spelling, (∀ other : Spelling, other.text = text ↔ other = n) ∧ n.Plain ∧
      n.toScaled = v := by
  obtain ⟨n, hn, htext, hscaled⟩ := h
  refine ⟨n, fun other => ⟨fun hother => ?_, fun hother => ?_⟩, hn, hscaled⟩
  · exact Spelling.text_injective (hother.trans htext.symm)
  · rw [hother, htext]

end IsPlain

/-! ## The characters of a spelled number -/

theorem Spelling.mem_text {n : Spelling} {c : Char} (h : c ∈ n.text) :
    c.isDigit = true ∨ c = '.' ∨ c = '-' ∨ c = '+' := by
  rw [text, List.mem_append] at h
  rcases h with hsign | hunsigned
  · cases hs : n.sign <;> simp_all [Sign.text]
  · rcases mem_unsigned hunsigned with hdigit | hpoint
    · exact .inl hdigit
    · exact .inr (.inl hpoint)

/-- A test that digits, the point and the signs pass. -/
theorem Spelling.all_text {p : Char → Bool} (n : Spelling)
    (hdigit : ∀ c, c.isDigit = true → p c = true) (hpoint : p '.' = true) (hminus : p '-' = true)
    (hplus : p '+' = true) : ∀ c ∈ n.text, p c = true := by
  intro c hc
  rcases mem_text hc with h | rfl | rfl | rfl
  · exact hdigit c h
  · exact hpoint
  · exact hminus
  · exact hplus

theorem Spelling.isAscii (n : Spelling) : ∀ c ∈ n.text, IsAscii c := by
  have hall := n.all_text (p := fun c => decide (IsAscii c))
    (fun c hc => decide_eq_true (isAscii_of_isDigit hc)) (by decide) (by decide) (by decide)
  simpa using hall

theorem isBlank_of_isDigit {c : Char} (h : c.isDigit = true) : isBlank c = false := by
  simp [Char.isDigit_iff_toNat] at h
  simp [isBlank, blankRanges]
  omega

theorem Spelling.not_isBlank (n : Spelling) : ∀ c ∈ n.text, isBlank c = false := by
  have hall := n.all_text (p := fun c => !isBlank c)
    (fun c hc => by rw [isBlank_of_isDigit hc]; rfl) (by decide) (by decide) (by decide)
  simpa using hall

theorem Spelling.trim_text (n : Spelling) : n.text.trim = n.text :=
  Text.trim_of_not_blank n.not_isBlank

/-- Plain notation ends with the last digit of the number. -/
theorem Spelling.Plain.getLast?_text {n : Spelling} (h : n.Plain) :
    n.text.getLast? = (n.whole ++ n.places).getLast? := by
  have hwhole : n.whole ≠ [] := h.whole.ne_nil
  have hfraction := h.fraction
  rw [text, unsigned, pointed, places]
  cases hn : n.fraction with
  | none =>
    show (n.sign.text ++ (n.whole ++ [])).getLast? = (n.whole ++ []).getLast?
    rw [List.append_nil, List.getLast?_append, List.getLast?_eq_some_getLast hwhole]
    rfl
  | some places =>
    have hplaces : places ≠ [] := fun h => hfraction (by rw [hn, h])
    show (n.sign.text ++ (n.whole ++ ('.' :: places))).getLast? = (n.whole ++ places).getLast?
    have hlast := List.getLast?_eq_some_getLast hplaces
    rw [List.append_cons]
    simp only [List.getLast?_append, hlast, Option.some_or]

namespace IsPlain

variable {text : Text} {v : Scaled}

theorem isAscii (h : IsPlain text v) : ∀ c ∈ text, IsAscii c := by
  obtain ⟨n, -, rfl, -⟩ := h
  exact n.isAscii

/-- The last character is a digit, and the remainder of ten. -/
theorem exists_getLast? (h : IsPlain text v) :
    ∃ c, text.getLast? = some c ∧ c.isDigit = true ∧
      v.digits.natAbs % 10 = Digits.value [c] := by
  obtain ⟨n, hn, rfl, rfl⟩ := h
  have hdigits := n.allDigits_digits
  obtain ⟨front, c, hlast⟩ := (List.eq_nil_or_concat (n.whole ++ n.places)).resolve_left
    n.digits_ne_nil
  rw [List.concat_eq_append] at hlast
  rw [hlast, Digits.allDigits_append, Bool.and_eq_true] at hdigits
  refine ⟨c, ?_, by simpa using hdigits.2, ?_⟩
  · rw [hn.getLast?_text, hlast]
    simp
  · rw [n.natAbs_digits, hlast]
    exact (Digits.value_append_div_mod front hdigits.2).2

end IsPlain

/-! ## Placing the point -/

/-- Digits around a point are plain notation once they have their sign. -/
theorem isPlain_of_digits (negative : Bool) {whole : Text} (fraction : Option Text)
    (hwhole : Digits.IsWhole whole) (hplaces : Digits.allDigits (fraction.getD []) = true)
    (hfraction : fraction ≠ some []) {magnitude : Nat}
    (hvalue : Digits.value (whole ++ fraction.getD []) = magnitude) :
    IsPlain
      ((if negative && magnitude != 0 then ['-'] else []) ++ (whole ++ fraction.elim [] ('.' :: ·)))
      ⟨if negative then -magnitude else magnitude, (fraction.getD []).length⟩ := by
  let n : Spelling :=
    { sign := if negative && magnitude != 0 then .minus else .absent
      whole, fraction
      whole_digits := hwhole.all_digits
      fraction_digits := hplaces
      digits_ne_nil := by simp [hwhole.ne_nil] }
  have hscaled : n.toScaled =
      ⟨if negative then -magnitude else magnitude, (fraction.getD []).length⟩ := by
    simp only [Spelling.toScaled, Spelling.places, n, hvalue]
    cases negative
    · simp [Sign.apply]
    · by_cases hzero : magnitude = 0 <;> simp [hzero, Sign.apply]
  refine ⟨n, ⟨hwhole, hfraction, ?_⟩, ?_, hscaled⟩
  · rw [hscaled]
    cases negative
    · simp [n]
    · by_cases hzero : magnitude = 0
      · simp [hzero, n]
      · simp [hzero, n]
  · simp only [Spelling.text, Spelling.unsigned, Spelling.pointed, n]
    congr 1
    · split <;> rfl
    · cases fraction <;> rfl

/-- The point stands in front of `scale` digits, and zeros fill up what is missing. -/
theorem placePoint_isPlain {digits : Text} (scale : Nat) (negative : Bool)
    (hdigits : Digits.allDigits digits = true) (hnil : digits ≠ [])
    (hhead : digits.head? = some '0' → digits.length ≤ max scale 1) :
    IsPlain (placePoint digits scale negative)
      ⟨if negative then -(Digits.value digits) else Digits.value digits, scale⟩ := by
  have hsign : digits.any (· != '0') = (Digits.value digits != 0) := by
    rw [Bool.eq_iff_iff, bne_iff_ne, Ne, Digits.value_eq_zero_iff hdigits]
    simp
  have hpos : 0 < digits.length := List.length_pos_iff.2 hnil
  unfold placePoint
  rw [hsign]
  dsimp only
  split
  · -- there is no point
    rename_i hscale
    have hwhole : Digits.IsWhole digits := by
      refine ⟨hdigits, hnil, fun h => ?_⟩
      obtain ⟨rest, rfl⟩ := List.head?_eq_some_iff.1 h
      have hlength := hhead h
      simp [hscale] at hlength
      rw [hlength]
    have hplain := isPlain_of_digits negative none hwhole rfl (by simp) rfl
    simpa [hscale] using hplain
  split
  · -- all digits stand behind the point, and zeros in front of them
    rename_i hscale hle
    let zeros := List.replicate (scale - digits.length) '0'
    have hvalue : Digits.value (['0'] ++ (zeros ++ digits)) = Digits.value digits := by
      have hzeros : ['0'] ++ zeros = List.replicate (scale - digits.length + 1) '0' := rfl
      rw [← List.append_assoc, hzeros, Digits.value_append, Digits.value_replicate_zero]
      omega
    have hplain := isPlain_of_digits negative (some (zeros ++ digits)) Digits.isWhole_zero
      (by simp [hdigits, zeros]) (by simp [hnil]) hvalue
    have hlength : scale - digits.length + digits.length = scale := by omega
    simpa [zeros, hlength] using hplain
  · -- the digits are divided
    rename_i hscale hlt
    obtain ⟨front, back, rfl, hback⟩ : ∃ front back, digits = front ++ back ∧
        back.length = scale :=
      ⟨_, _, (List.take_append_drop (digits.length - scale) digits).symm, by simp; omega⟩
    rw [Digits.allDigits_append, Bool.and_eq_true] at hdigits
    rw [List.length_append, hback] at hlt
    have hwhole : Digits.IsWhole front := by
      refine ⟨hdigits.1, List.length_pos_iff.1 (by omega), fun h => ?_⟩
      have hlength := hhead (by simp [h])
      rw [List.length_append, hback] at hlength
      omega
    have hnonempty : some back ≠ some [] := by
      intro h
      simp_all
    have hplain := isPlain_of_digits negative (some back) hwhole hdigits.2 hnonempty rfl
    simpa [hback] using hplain

theorem placePoint_ofNat (magnitude scale : Nat) (negative : Bool) :
    IsPlain (placePoint (Digits.ofNat magnitude) scale negative)
      ⟨if negative then -magnitude else magnitude, scale⟩ := by
  have hwhole := Digits.isWhole_ofNat magnitude
  have hplain := placePoint_isPlain scale negative hwhole.all_digits hwhole.ne_nil
    fun h => by rw [hwhole.head h]; exact Nat.le_max_right scale 1
  rwa [Digits.value_ofNat] at hplain

/-- The digits of an integer with its sign, `scale` of them behind the point. -/
theorem placePoint_natAbs (digits : Int) (scale : Nat) :
    IsPlain (placePoint (Digits.ofNat digits.natAbs) scale (decide (digits < 0)))
      ⟨digits, scale⟩ := by
  have hplain := placePoint_ofNat digits.natAbs scale (decide (digits < 0))
  have hsigned :
      (if decide (digits < 0) then -(digits.natAbs : Int) else digits.natAbs) = digits := by
    by_cases hneg : digits < 0
    · rw [decide_eq_true hneg, if_pos rfl]
      omega
    · rw [decide_eq_false hneg, if_neg Bool.false_ne_true]
      omega
  rwa [hsigned] at hplain

end ResultSet
