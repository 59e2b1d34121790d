import ResultSet.Json.Decode
import ResultSet.Proofs.Number.Digits

/-!
# Integers in JSON

An integer is written as its digits, which are read back as they stand.

* `readNumber_ofInt` is about the text: the reader takes exactly the digits, as long as
  nothing behind them goes on with a number (`EndsNumber`).
* `exactInt?_ofInt` and `wordInt?_ofInt` are about the literal: it denotes the integer.
* `decodeSigned_int` and its companions read the integers of a word, over the whole range
  of the word.
-/

namespace ResultSet

namespace Json

/-! ## Reading digits -/

/-- Nothing in front of the text goes on with a number. -/
def EndsNumber (rest : Text) : Prop :=
  ∀ c ∈ rest.head?, c.isDigit = false ∧ c ≠ '.' ∧ c ≠ 'e' ∧ c ≠ 'E'

theorem endsNumber_nil : EndsNumber [] := fun _ h => by cases h

theorem endsNumber_cons {c : Char} {rest : Text}
    (h : c.isDigit = false ∧ c ≠ '.' ∧ c ≠ 'e' ∧ c ≠ 'E') : EndsNumber (c :: rest) := by
  intro d hd
  cases hd
  exact h

theorem EndsNumber.takeWhile_eq {rest : Text} (h : EndsNumber rest) :
    rest.takeWhile Char.isDigit = [] ∧ rest.dropWhile Char.isDigit = rest := by
  cases rest with
  | nil => exact ⟨rfl, rfl⟩
  | cons c rest =>
    have hc : c.isDigit = false := (h c rfl).1
    simp [hc]

theorem readDigits_ofNat (n : Nat) {rest : Text} (h : EndsNumber rest) :
    readDigits (Digits.ofNat n ++ rest) = some (Digits.ofNat n, rest) := by
  have hdigits : ∀ c ∈ Digits.ofNat n, c.isDigit = true := fun c => Digits.isDigit_of_mem_ofNat
  have htake : (Digits.ofNat n ++ rest).takeWhile Char.isDigit = Digits.ofNat n := by
    rw [List.takeWhile_append_of_pos hdigits, h.takeWhile_eq.1, List.append_nil]
  have hdrop : (Digits.ofNat n ++ rest).dropWhile Char.isDigit = rest := by
    rw [List.dropWhile_append_of_pos hdigits, h.takeWhile_eq.2]
  rw [readDigits, htake, hdrop]
  exact if_neg (by simp [Digits.ofNat_ne_nil])

theorem readFraction_of_ends {rest : Text} (h : EndsNumber rest) :
    readFraction rest = some ([], rest) := by
  unfold readFraction
  split
  · exact absurd rfl (h '.' rfl).2.1
  · rfl

theorem readExponent_of_ends {rest : Text} (h : EndsNumber rest) :
    readExponent rest = some ([], rest) := by
  cases rest with
  | nil => rfl
  | cons c rest =>
    obtain ⟨-, -, he, hE⟩ := h c rfl
    exact if_neg (by simp [he, hE])

theorem readUnsigned_ofNat (n : Nat) {rest : Text} (h : EndsNumber rest) :
    readUnsigned (Digits.ofNat n ++ rest) = some (Digits.ofNat n, rest) := by
  unfold readUnsigned
  rw [readDigits_ofNat n h]
  split
  · contradiction
  · rename_i heq
    -- more than one digit, the first of them zero
    have hzero := congrArg Prod.fst (Option.some.inj heq)
    have hnil := Digits.eq_zero_of_ofNat_eq_zero_cons hzero
    cases hnil
  · rename_i heq
    cases heq
    rw [readFraction_of_ends h]
    dsimp only
    rw [readExponent_of_ends h, List.append_nil]
    simp

/-- The digits of an integer are read up to the last one. -/
theorem readNumber_ofInt (v : Int) {rest : Text} (h : EndsNumber rest) :
    readNumber (Digits.ofInt v ++ rest) = some (Digits.ofInt v, rest) := by
  by_cases hv : v < 0
  · rw [Digits.ofInt, if_pos hv, List.cons_append, readNumber, readUnsigned_ofNat _ h]
    rfl
  · rw [Digits.ofInt, if_neg hv]
    unfold readNumber
    split
    · rename_i heq
      obtain ⟨c, digits, hdigits⟩ := List.exists_cons_of_ne_nil (Digits.ofNat_ne_nil v.natAbs)
      rw [hdigits] at heq
      obtain ⟨rfl, -⟩ := List.cons.inj heq
      exact absurd (hdigits ▸ List.mem_cons_self) (Digits.minus_notMem_ofNat v.natAbs)
    · exact readUnsigned_ofNat _ h

/-! ## The integer of a literal -/

theorem isPlain_ofInt (v : Int) : isPlain (Digits.ofInt v) = true := by
  have hdigits (n : Nat) : ∀ c ∈ Digits.ofNat n, (c != '.' && c != 'e' && c != 'E') = true := by
    intro c hc
    have hdigit := Digits.isDigit_of_mem_ofNat hc
    simp only [Bool.and_eq_true, bne_iff_ne, ne_eq]
    refine ⟨⟨?_, ?_⟩, ?_⟩ <;> (rintro rfl; cases hdigit)
  unfold isPlain Digits.ofInt
  split
  · rw [List.all_cons, List.all_eq_true.2 (hdigits _)]
    rfl
  · exact List.all_eq_true.2 (hdigits _)

/-- A literal without a sign is its own digits. -/
theorem partsOf_cons {c : Char} (hc : c ≠ '-') (rest : Text) :
    (partsOf (c :: rest)).negative = false ∧
      (partsOf (c :: rest)).whole = (c :: rest).takeWhile Char.isDigit := by
  unfold partsOf
  split
  rename_i heq
  split at heq
  · rename_i hcons
    exact absurd (List.cons.inj hcons).1 hc
  · cases heq
    exact ⟨rfl, rfl⟩

theorem partsOf_ofInt (v : Int) :
    (partsOf (Digits.ofInt v)).negative = decide (v < 0) ∧
      (partsOf (Digits.ofInt v)).whole = Digits.ofNat v.natAbs := by
  have hwhole : (Digits.ofNat v.natAbs).takeWhile Char.isDigit = Digits.ofNat v.natAbs := by
    have happend : (Digits.ofNat v.natAbs ++ []).takeWhile Char.isDigit =
        Digits.ofNat v.natAbs ++ [].takeWhile Char.isDigit :=
      List.takeWhile_append_of_pos fun c => Digits.isDigit_of_mem_ofNat
    rwa [List.takeWhile_nil, List.append_nil] at happend
  by_cases hv : v < 0
  · rw [Digits.ofInt, if_pos hv, decide_eq_true hv]
    exact ⟨rfl, hwhole⟩
  · rw [Digits.ofInt, if_neg hv, decide_eq_false hv]
    obtain ⟨c, digits, hdigits⟩ := List.exists_cons_of_ne_nil (Digits.ofNat_ne_nil v.natAbs)
    have hc : c ≠ '-' := by
      rintro rfl
      exact Digits.minus_notMem_ofNat v.natAbs (hdigits ▸ List.mem_cons_self)
    have hparts := partsOf_cons hc digits
    rwa [← hdigits, hwhole] at hparts

/-- The digits of an integer denote it. -/
@[simp] theorem exactInt?_ofInt (v : Int) : exactInt? (Digits.ofInt v) = some v := by
  obtain ⟨hnegative, hwhole⟩ := partsOf_ofInt v
  unfold exactInt?
  rw [if_pos (isPlain_ofInt v)]
  dsimp only
  rw [hnegative, hwhole, Digits.value_ofNat]
  by_cases hv : v < 0
  · rw [decide_eq_true hv, if_pos rfl]
    congr 1
    omega
  · rw [decide_eq_false hv, if_neg Bool.false_ne_true]
    congr 1
    omega

theorem head?_ofInt (v : Int) : (Digits.ofInt v).head? = some '-' ↔ v < 0 := by
  unfold Digits.ofInt
  by_cases hv : v < 0
  · rw [if_pos hv]
    exact ⟨fun _ => hv, fun _ => rfl⟩
  · rw [if_neg hv]
    refine ⟨fun h => ?_, fun h => absurd h hv⟩
    exact absurd (List.mem_of_head? h) (Digits.minus_notMem_ofNat v.natAbs)

/-- The digits of an integer of 64 bits, signed or not, denote it as a word. -/
theorem wordInt?_ofInt {v : Int} (hmin : -(2 ^ (63 : Nat) : Int) ≤ v) (hmax : v < 2 ^ (64 : Nat)) :
    wordInt? (Digits.ofInt v) = some v := by
  unfold wordInt?
  rw [exactInt?_ofInt]
  dsimp only
  by_cases hv : v < 0
  · rw [if_pos ((head?_ofInt v).2 hv), if_pos ⟨hv, hmin⟩]
  · rw [if_neg fun h => hv ((head?_ofInt v).1 h), if_pos hmax]

/-! ## Words -/

theorem decodeSigned_int {bits : Nat} (hbits : bits ≤ 64) (depth : Nat) (v : Signed bits) :
    decodeSigned bits depth (int v.val) = some v := by
  have hpow : 2 ^ (bits - 1) ≤ 2 ^ (63 : Nat) := Nat.pow_le_pow_right (by decide) (by omega)
  have hmin := v.min_le
  have hmax := v.lt_max
  have hword : wordInt? (Digits.ofInt v.val) = some v.val :=
    wordInt?_ofInt (by omega) (by omega)
  show (wordInt? (Digits.ofInt v.val)).bind (Signed.ofInt? bits) = some v
  rw [hword]
  exact Signed.ofInt?_val v

theorem ofInt?_natCast {bits : Nat} (v : Unsigned bits) :
    Unsigned.ofInt? bits (v.val : Int) = some v := by
  rw [Unsigned.ofInt?, if_neg (by omega), Int.toNat_natCast, Unsigned.ofNat?_val]

theorem decodeUnsigned_int {bits : Nat} (hbits : bits ≤ 64) (depth : Nat) (v : Unsigned bits) :
    decodeUnsigned bits depth (int v.val) = some v := by
  have hpow : 2 ^ bits ≤ 2 ^ (64 : Nat) := Nat.pow_le_pow_right (by decide) hbits
  have hmax := v.lt_max
  have hword : wordInt? (Digits.ofInt v.val) = some (v.val : Int) :=
    wordInt?_ofInt (by omega) (by omega)
  show (wordInt? (Digits.ofInt v.val)).bind (Unsigned.ofInt? bits) = some v
  rw [hword]
  exact ofInt?_natCast v

theorem decodeSigned128_int (depth : Nat) (v : Signed 128) :
    decodeSigned128 depth (int v.val) = some v := by
  show (exactInt? (Digits.ofInt v.val)).bind (Signed.ofInt? 128) = some v
  rw [exactInt?_ofInt]
  exact Signed.ofInt?_val v

theorem decodeUnsigned128_int (depth : Nat) (v : Unsigned 128) :
    decodeUnsigned128 depth (int v.val) = some v := by
  have hsign : (Digits.ofInt (v.val : Int)).head? ≠ some '-' := fun h =>
    absurd ((head?_ofInt _).1 h) (by omega)
  show (if (Digits.ofInt (v.val : Int)).head? = some '-' then none
    else (exactInt? (Digits.ofInt v.val)).bind (Unsigned.ofInt? 128)) = some v
  rw [if_neg hsign, exactInt?_ofInt]
  exact ofInt?_natCast v

end Json

end ResultSet
