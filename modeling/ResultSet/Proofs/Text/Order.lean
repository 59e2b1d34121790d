import ResultSet.Field.Compare
import ResultSet.Proofs.Text.Ascii

/-!
# The order of texts as bytes

The answers of `compareBytes` are equality and the order of lists (`compareBytes_eq_eq`,
`compareBytes_eq_lt`).  Byte strings are compared from the front, so parts of equal length are
compared one after the other (`compareBytes_append`).  Digits of equal length are ordered as the numbers that they denote
(`compareBytes_digits`); a number in mixed radix is ordered by its parts in the same way
(`compare_mixed`).
-/

namespace ResultSet

/-! ## Numbers -/

/-- Pairs in the same relation compare alike. -/
theorem compareOfLessAndEq_congr {α β : Type} [LT α] [DecidableLT α] [DecidableEq α] [LT β]
    [DecidableLT β] [DecidableEq β] {a b : α} {c d : β} (hlt : a < b ↔ c < d)
    (heq : a = b ↔ c = d) : compareOfLessAndEq a b = compareOfLessAndEq c d := by
  simp only [compareOfLessAndEq, hlt, heq]

theorem compare_natAbs {a b : Int} (ha : 0 ≤ a) (hb : 0 ≤ b) :
    Ord.compare a.natAbs b.natAbs = Ord.compare a b :=
  compareOfLessAndEq_congr (by omega) (by omega)

/-- The high part decides, and the low part when the high parts are the same. -/
theorem compare_mixed {base high high' low low' : Nat} (hlow : low < base) (hlow' : low' < base) :
    Ord.compare (high * base + low) (high' * base + low') =
      (Ord.compare high high').then (Ord.compare low low') := by
  have hbelow {a b c d : Nat} (hab : a < b) (hc : c < base) : a * base + c < b * base + d := by
    have hstep : (a + 1) * base ≤ b * base := Nat.mul_le_mul_right base hab
    rw [Nat.add_one_mul] at hstep
    omega
  rcases Nat.lt_trichotomy high high' with h | rfl | h
  · rw [Nat.compare_eq_lt.2 h, Ordering.lt_then, Nat.compare_eq_lt.2 (hbelow h hlow)]
  · rw [Nat.compare_eq_eq.2 rfl, Ordering.eq_then]
    exact compareOfLessAndEq_congr (by omega) (by omega)
  · rw [Nat.compare_eq_gt.2 h, Ordering.gt_then, Nat.compare_eq_gt.2 (hbelow h hlow')]

/-! ## Order of byte strings -/

theorem compareBytes_eq_eq {left right : Bytes} :
    compareBytes left right = .eq ↔ left = right := by
  show compare left right = .eq ↔ left = right
  exact Std.LawfulEqCmp.compare_eq_iff_eq

theorem compareBytes_eq_gt {left right : Bytes} :
    compareBytes left right = .gt ↔ compareBytes right left = .lt := by
  show compare left right = .gt ↔ compare right left = .lt
  exact Std.OrientedCmp.gt_iff_lt

theorem compareBytes_eq_lt {left right : Bytes} :
    compareBytes left right = .lt ↔ left < right := by
  have hbyte (l r : UInt8) : compare l r = .lt ↔ l < r := by
    show compareOfLessAndEq l r = .lt ↔ l < r
    unfold compareOfLessAndEq
    split
    · simp [*]
    · split <;> simp [*]
  show compare left right = .lt ↔ left < right
  rw [List.compare_eq_compareLex]
  induction left generalizing right with
  | nil =>
    cases right with
    | nil => simp [List.compareLex_nil_nil]
    | cons r right => simp [List.compareLex_nil_cons]
  | cons l left ih =>
    cases right with
    | nil => simp [List.compareLex_cons_nil]
    | cons r right =>
      rw [List.compareLex_cons_cons, List.cons_lt_cons_iff, Ordering.then_eq_lt, hbyte,
        @ih right, Std.LawfulEqCmp.compare_eq_iff_eq]

/-! ## Parts of equal length -/

@[simp] theorem compareBytes_nil : compareBytes [] [] = .eq := rfl

theorem compareBytes_append {front front' : Bytes} (h : front.length = front'.length)
    (back back' : Bytes) :
    compareBytes (front ++ back) (front' ++ back') =
      (compareBytes front front').then (compareBytes back back') := by
  induction front generalizing front' with
  | nil =>
    obtain rfl := List.eq_nil_of_length_eq_zero h.symm
    rfl
  | cons b front ih =>
    obtain ⟨b', front', rfl⟩ := List.exists_cons_of_length_eq_add_one h.symm
    have hfront := ih (Nat.succ.inj h)
    simp only [compareBytes, List.cons_append, List.compare_cons_cons, Ordering.then_assoc]
      at hfront ⊢
    rw [hfront]

/-- A common start does not count. -/
theorem compareBytes_append_left (front back back' : Bytes) :
    compareBytes (front ++ back) (front ++ back') = compareBytes back back' := by
  rw [compareBytes_append rfl, compareBytes_eq_eq.2 rfl, Ordering.eq_then]

theorem compareBytes_singleton (b b' : UInt8) :
    compareBytes [b] [b'] = Ord.compare b.toNat b'.toNat := by
  have hbyte : Ord.compare b b' = Ord.compare b.toNat b'.toNat :=
    compareOfLessAndEq_congr UInt8.lt_iff_toNat_lt UInt8.toNat_inj.symm
  rw [compareBytes, List.compare_cons_cons, hbyte]
  exact Ordering.then_eq

/-- Digits of equal length are ordered as numbers. -/
theorem compareBytes_digits {left right : Text} (hleft : Digits.allDigits left = true)
    (hright : Digits.allDigits right = true) (hlength : left.length = right.length) :
    compareBytes left.utf8 right.utf8 = Ord.compare (Digits.value left) (Digits.value right) := by
  induction left generalizing right with
  | nil =>
    obtain rfl := List.eq_nil_of_length_eq_zero hlength.symm
    rfl
  | cons c left ih =>
    obtain ⟨d, right, rfl⟩ := List.exists_cons_of_length_eq_add_one hlength.symm
    rw [List.length_cons, List.length_cons, Nat.add_right_cancel_iff] at hlength
    rw [Digits.allDigits_cons, Bool.and_eq_true] at hleft hright
    have hrest := ih hleft.2 hright.2 hlength
    have hc : 48 ≤ c.toNat ∧ c.toNat ≤ 57 := by simpa [Char.isDigit_iff_toNat] using hleft.1
    have hd : 48 ≤ d.toNat ∧ d.toNat ≤ 57 := by simpa [Char.isDigit_iff_toNat] using hright.1
    have hfirst : compareBytes [UInt8.ofNat c.toNat] [UInt8.ofNat d.toNat] =
        Ord.compare (c.toNat - 48) (d.toNat - 48) := by
      have hbyte {n : Nat} (hn : n ≤ 57) : (UInt8.ofNat n).toNat = n := by
        rw [UInt8.toNat_ofNat']
        omega
      rw [compareBytes_singleton, hbyte hc.2, hbyte hd.2]
      exact compareOfLessAndEq_congr (by omega) (by omega)
    have hlow := Digits.value_lt hleft.2
    rw [hlength] at hlow
    rw [Text.utf8_cons, Text.utf8_cons, utf8EncodeChar_ascii (isAscii_of_isDigit hleft.1),
      utf8EncodeChar_ascii (isAscii_of_isDigit hright.1)]
    rw [compareBytes_append (by simp), hfirst, hrest, Digits.value_cons, Digits.value_cons, hlength,
      compare_mixed hlow (Digits.value_lt hright.2)]

end ResultSet
