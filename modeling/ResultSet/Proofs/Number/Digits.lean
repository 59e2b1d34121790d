import ResultSet.Number.Digits
import ResultSet.Number.Power

/-!
# Digits and their values

`Digits.ofNat` writes a number, `Digits.value` reads any digits.

* The digits of a number: there is at least one, and none of several is a zero in front.
* The value of digits: it splits where the digits are split (`value_append`), is less than the
  next power of ten, and determines digits of a given length (`eq_of_value_eq`) as well as
  digits without a zero in front (`IsWhole.eq_of_value_eq`).
* Digits with zeros in front: a number that fits has exactly the width (`length_padded`).
-/

namespace ResultSet.Digits

/-! ## The digits of a number -/

theorem ofNat_ne_nil (n : Nat) : ofNat n ≠ [] := Nat.toDigits_ne_nil

theorem isDigit_of_mem_ofNat {n : Nat} {c : Char} (h : c ∈ ofNat n) : c.isDigit = true :=
  Nat.isDigit_of_mem_toDigits (by decide) (by decide) h

theorem ne_of_isDigit {c other : Char} (h : c.isDigit = true) (hother : other.isDigit = false) :
    c ≠ other := by
  rintro rfl
  simp [h] at hother

theorem minus_notMem_ofNat (n : Nat) : '-' ∉ ofNat n := by
  intro h
  have hdigit : '-'.isDigit = true := isDigit_of_mem_ofNat h
  cases hdigit

/-- The last digit of a number stands behind the digits of the others. -/
theorem ofNat_of_div_ne_zero {n : Nat} (h : n / 10 ≠ 0) :
    ofNat n = ofNat (n / 10) ++ [(n % 10).digitChar] :=
  Nat.toDigits_of_base_le (by decide) (by omega)

theorem ofNat_of_div_eq_zero {n : Nat} (h : n / 10 = 0) : ofNat n = [(n % 10).digitChar] := by
  have hlt : n < 10 := by omega
  rw [Nat.mod_eq_of_lt hlt]
  exact Nat.toDigits_of_lt_base hlt

/-- A number with at most `gap` digits is below the power of ten. -/
theorem lt_pow_of_length_le {n gap : Nat} (h : (ofNat n).length ≤ gap) : n < 10 ^ gap := by
  have hpos : 0 < (ofNat n).length := Nat.length_toDigits_pos
  exact (Nat.length_toDigits_le_iff (by decide) (by omega)).1 h

/-- Only zero has a zero in front. -/
theorem eq_zero_of_ofNat_eq_zero_cons {n : Nat} {rest : Text} (h : ofNat n = '0' :: rest) :
    rest = [] := by
  induction n using Nat.strongRecOn generalizing rest with
  | _ n ih =>
    by_cases hn : n / 10 = 0
    · rw [ofNat_of_div_eq_zero hn] at h
      exact (List.cons.inj h).2.symm
    · -- the front is not zero, so it would have a zero in front as well
      obtain ⟨c, front, hfront⟩ := List.exists_cons_of_ne_nil (ofNat_ne_nil (n / 10))
      rw [ofNat_of_div_ne_zero hn, hfront, List.cons_append] at h
      obtain ⟨rfl, -⟩ := List.cons.inj h
      have hnil : front = [] := ih (n / 10) (by omega) hfront
      have hvalue := value_ofNat (n / 10)
      rw [hfront, hnil] at hvalue
      have hzero : value ['0'] = 0 := by decide
      omega

/-- The first character of an integer. -/
theorem ofInt_cons (v : Int) :
    ∃ c rest, ofInt v = c :: rest ∧ (c = '-' ∨ c.isDigit = true) := by
  unfold ofInt
  split
  · exact ⟨'-', _, rfl, Or.inl rfl⟩
  · obtain ⟨c, rest, h⟩ := List.exists_cons_of_ne_nil (ofNat_ne_nil v.natAbs)
    exact ⟨c, rest, h, Or.inr (isDigit_of_mem_ofNat (h ▸ List.mem_cons_self))⟩

/-! ## The value of digits -/

@[simp] theorem allDigits_nil : allDigits [] = true := rfl

@[simp] theorem allDigits_cons (c : Char) (rest : Text) :
    allDigits (c :: rest) = (c.isDigit && allDigits rest) := rfl

@[simp] theorem allDigits_append (front back : Text) :
    allDigits (front ++ back) = (allDigits front && allDigits back) := List.all_append

@[simp] theorem allDigits_replicate_zero (n : Nat) :
    allDigits (List.replicate n '0') = true := by simp [allDigits]

theorem value_append (front back : Text) :
    value (front ++ back) = value front * 10 ^ back.length + value back := by
  rw [value, Nat.ofDigitChars_append, Nat.ofDigitChars_eq_ofDigitChars_zero, Nat.mul_comm]
  rfl

@[simp] theorem value_nil : value [] = 0 := rfl

theorem value_cons (c : Char) (rest : Text) :
    value (c :: rest) = (c.toNat - 48) * 10 ^ rest.length + value rest := by
  have hone : value [c] = c.toNat - 48 := by simp [value, Nat.ofDigitChars]
  rw [← hone, ← value_append]
  rfl

@[simp] theorem value_replicate_zero (n : Nat) : value (List.replicate n '0') = 0 := by
  simp [value, Nat.ofDigitChars_replicate_zero]

/-- Digits are worth less than the next power of ten. -/
theorem value_lt {digits : Text} (h : allDigits digits = true) :
    value digits < 10 ^ digits.length := by
  induction digits with
  | nil => decide
  | cons c rest ih =>
    simp [Char.isDigit_iff_toNat] at h
    have hrest : value rest < 10 ^ rest.length := ih h.2
    have hfirst : (c.toNat - 48) * 10 ^ rest.length ≤ 9 * 10 ^ rest.length :=
      Nat.mul_le_mul_right _ (by omega)
    rw [value_cons, List.length_cons, Nat.pow_succ]
    omega

/-- The digits in front are the quotient, those behind the remainder. -/
theorem value_append_div_mod (front : Text) {back : Text} (h : allDigits back = true) :
    value (front ++ back) / 10 ^ back.length = value front ∧
      value (front ++ back) % 10 ^ back.length = value back := by
  have hlt := value_lt h
  rw [value_append, Nat.mul_comm, Nat.mul_add_div (by omega), Nat.mul_add_mod,
    Nat.div_eq_of_lt hlt, Nat.mod_eq_of_lt hlt]
  exact ⟨rfl, rfl⟩

theorem value_eq_zero_iff {digits : Text} (h : allDigits digits = true) :
    value digits = 0 ↔ ∀ c ∈ digits, c = '0' := by
  constructor
  · intro hzero
    induction digits with
    | nil => simp
    | cons c rest ih =>
      simp [Char.isDigit_iff_toNat] at h
      rw [value_cons, Nat.add_eq_zero_iff, Nat.mul_eq_zero] at hzero
      have hpow : 10 ^ rest.length ≠ 0 := by simp
      have hc : c = '0' := Char.toNat_inj.1 (show c.toNat = 48 by omega)
      simpa [hc] using ih h.2 hzero.2
  · intro hall
    rw [List.eq_replicate_of_mem hall, value_replicate_zero]

/-- Digits are determined by their number and their value. -/
theorem eq_of_value_eq {left right : Text} (hleft : allDigits left = true)
    (hright : allDigits right = true) (hlength : left.length = right.length)
    (hvalue : value left = value right) : left = right := by
  induction left generalizing right with
  | nil => exact (List.eq_nil_of_length_eq_zero hlength.symm).symm
  | cons c left ih =>
    cases right with
    | nil => simp at hlength
    | cons d right =>
      simp at hlength
      simp [Char.isDigit_iff_toNat] at hleft hright
      obtain ⟨hc, hrest⟩ := value_append_div_mod [c] hleft.2
      obtain ⟨hd, hrest'⟩ := value_append_div_mod [d] hright.2
      simp only [List.singleton_append, hvalue, hlength] at hc hrest hd hrest'
      have hfirst : value [c] = value [d] := hc.symm.trans hd
      rw [value_cons, value_cons] at hfirst
      simp at hfirst
      have hcd : c = d := Char.toNat_inj.1 (by omega)
      rw [hcd, ih hleft.2 hright.2 hlength (hrest.symm.trans hrest')]

/-- Digits in front of a point: at least one, and no zero in front of others. -/
structure IsWhole (digits : Text) : Prop where
  all_digits : allDigits digits = true
  ne_nil : digits ≠ []
  head : digits.head? = some '0' → digits = ['0']

theorem isWhole_zero : IsWhole ['0'] := ⟨by decide, by simp, fun _ => rfl⟩

theorem isWhole_ofNat (n : Nat) : IsWhole (ofNat n) := by
  refine ⟨allDigits_ofNat n, ofNat_ne_nil n, fun h => ?_⟩
  obtain ⟨rest, hrest⟩ := List.head?_eq_some_iff.1 h
  rw [hrest, eq_zero_of_ofNat_eq_zero_cons hrest]

/-- Several digits in front of a point are worth at least their power of ten. -/
theorem IsWhole.pow_le_value {digits : Text} (h : IsWhole digits) (hzero : digits ≠ ['0']) :
    10 ^ (digits.length - 1) ≤ value digits := by
  cases digits with
  | nil => exact absurd rfl h.ne_nil
  | cons c rest =>
    have hc : c ≠ '0' := fun hc => hzero (h.head (by simp [hc]))
    have hdigit := h.all_digits
    simp [Char.isDigit_iff_toNat] at hdigit
    have hpos : c.toNat ≠ 48 := fun h => hc (Char.toNat_inj.1 h)
    have hfirst : 1 * 10 ^ rest.length ≤ (c.toNat - 48) * 10 ^ rest.length :=
      Nat.mul_le_mul_right _ (by omega)
    rw [value_cons]
    simp
    omega

theorem IsWhole.eq_zero {digits : Text} (h : IsWhole digits) (hvalue : value digits = 0) :
    digits = ['0'] := by
  refine Decidable.byContradiction fun hzero => ?_
  have hle := h.pow_le_value hzero
  have hpos : 0 < 10 ^ (digits.length - 1) := Nat.pow_pos (by decide)
  omega

/-- Digits without a zero in front are determined by their value. -/
theorem IsWhole.eq_of_value_eq {left right : Text} (hleft : IsWhole left) (hright : IsWhole right)
    (hvalue : value left = value right) : left = right := by
  by_cases hl : left = ['0']
  · subst hl
    exact (hright.eq_zero hvalue.symm).symm
  by_cases hr : right = ['0']
  · subst hr
    exact hleft.eq_zero hvalue
  -- the value lies between two powers of ten, which fixes the number of digits
  have hleftLe := hleft.pow_le_value hl
  have hrightLe := hright.pow_le_value hr
  have hleftLt := value_lt hleft.all_digits
  have hrightLt := value_lt hright.all_digits
  have hlr : left.length - 1 < right.length :=
    (Nat.pow_lt_pow_iff_right (by decide)).1 (Nat.lt_of_le_of_lt hleftLe (hvalue ▸ hrightLt))
  have hrl : right.length - 1 < left.length :=
    (Nat.pow_lt_pow_iff_right (by decide)).1 (Nat.lt_of_le_of_lt hrightLe (hvalue ▸ hleftLt))
  exact Digits.eq_of_value_eq hleft.all_digits hright.all_digits (by omega) hvalue

/-! ## Digits with zeros in front -/

theorem allDigits_padded (width n : Nat) : allDigits (padded width n) = true := by
  simp [padded, allDigits_ofNat]

@[simp] theorem value_padded (width n : Nat) : value (padded width n) = n := by
  simp [padded, value_append]

theorem length_padded_eq_max (width n : Nat) :
    (padded width n).length = max width (ofNat n).length := by
  simp only [padded, List.length_append, List.length_replicate]
  omega

/-- A number below the power of ten has no more digits than its exponent. -/
theorem length_ofNat_le {width n : Nat} (hwidth : 0 < width) (h : n < 10 ^ width) :
    (ofNat n).length ≤ width :=
  (Nat.length_toDigits_le_iff (by decide) hwidth).2 h

theorem length_padded {width n : Nat} (hwidth : 0 < width) (h : n < 10 ^ width) :
    (padded width n).length = width := by
  rw [length_padded_eq_max, Nat.max_eq_left (length_ofNat_le hwidth h)]

end ResultSet.Digits
