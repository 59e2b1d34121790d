import ResultSet.Number.LargeInt
import ResultSet.Proofs.Number.Digits

/-!
# The text of large integers

`LargeInt.render` writes digits from the end of a scratch buffer backwards.  The invariant of
that loop is `writeDigits_append`: what is left of the number goes in front of the digits that
are written already.  `render_eq` says that the text is the decimal text of the integer, for any
old content of the buffer.
-/

namespace ResultSet

/-- A digit is one byte. -/
theorem Text.utf8_digitChar {d : Nat} (h : d < 10) :
    Text.utf8 [d.digitChar] = [UInt8.ofNat (48 + d)] := by
  have hall : ∀ d : Fin 10, Text.utf8 [d.val.digitChar] = [UInt8.ofNat (48 + d.val)] := by decide
  exact hall ⟨d, h⟩

namespace LargeInt

theorem set_length_append (front : Bytes) (old new : UInt8) (back : Bytes) :
    (front ++ old :: back).set front.length new = front ++ new :: back := by
  rw [List.set_append_right _ _ (Nat.le_refl _), Nat.sub_self, List.set_cons_zero]

/-- The digits take the last bytes of `front`, before those that stand behind it. -/
theorem writeDigits_append (n : Nat) (front back : Bytes)
    (hroom : (Digits.ofNat n).length ≤ front.length) :
    writeDigits front.length n (front ++ back) =
      some (front.length - (Digits.ofNat n).length,
        front.take (front.length - (Digits.ofNat n).length) ++
          ((Digits.ofNat n).utf8 ++ back)) := by
  -- the position moves down while the digits written so far gather in `back`
  induction hpos : front.length generalizing n front back with
  | zero =>
    have hpositive : 0 < (Digits.ofNat n).length := Nat.length_toDigits_pos
    omega
  | succ pos ih =>
    obtain ⟨rest, old, hfront⟩ := (List.eq_nil_or_concat front).resolve_left
      (List.ne_nil_of_length_eq_add_one hpos)
    rw [List.concat_eq_append] at hfront
    subst hfront
    obtain rfl : rest.length = pos := by simpa using hpos
    have hlast : Text.utf8 [(n % 10).digitChar] = [lastDigit n] :=
      Text.utf8_digitChar (Nat.mod_lt n (by decide))
    rw [writeDigits, List.append_assoc, List.singleton_append, set_length_append]
    by_cases h : n / 10 = 0
    · rw [if_pos h, Digits.ofNat_of_div_eq_zero h, hlast]
      simp
    · rw [Digits.ofNat_of_div_ne_zero h, List.length_append, List.length_singleton] at hroom ⊢
      rw [List.length_append, List.length_singleton] at hroom
      have htaken : (rest ++ [old]).take (rest.length - (Digits.ofNat (n / 10)).length) =
          rest.take (rest.length - (Digits.ofNat (n / 10)).length) :=
        List.take_append_of_le_length (Nat.sub_le _ _)
      rw [if_neg h, ih (n / 10) rest (lastDigit n :: back) (by omega) rfl, Nat.add_sub_add_right,
        htaken, Text.utf8_append, hlast, List.append_assoc, List.singleton_append]

/-- The digits end up at the end of the buffer. -/
theorem writeDigits_capacity {n : Nat} {buffer : Bytes} (hbuffer : buffer.length = capacity)
    (hroom : (Digits.ofNat n).length ≤ capacity) :
    writeDigits capacity n buffer =
      some (capacity - (Digits.ofNat n).length,
        buffer.take (capacity - (Digits.ofNat n).length) ++ (Digits.ofNat n).utf8) := by
  have hwritten := writeDigits_append n buffer [] (by omega)
  rwa [hbuffer, List.append_nil, List.append_nil] at hwritten

/-- The sign takes the byte in front of the digits. -/
theorem writeSign_eq {pos : Nat} {buffer : Bytes} (negative : Bool) (digits : Bytes)
    (hpos : 0 < pos) (hlength : pos ≤ buffer.length) :
    writeSign negative pos (buffer.take pos ++ digits) =
      some (if negative then (pos - 1, buffer.take (pos - 1) ++ 45 :: digits)
        else (pos, buffer.take pos ++ digits)) := by
  cases negative with
  | false => rfl
  | true =>
    obtain ⟨before, rfl⟩ : ∃ before, pos = before + 1 := ⟨pos - 1, by omega⟩
    have htaken : (buffer.take before).length = before := by
      rw [List.length_take]
      omega
    have hset := set_length_append (buffer.take before) buffer[before] 45 digits
    rw [htaken] at hset
    show some (before, (buffer.take (before + 1) ++ digits).set before 45) = _
    rw [List.take_succ_eq_append_getElem hlength, List.append_assoc, List.singleton_append, hset]
    rfl

/-- The text is the decimal text of the integer, whatever the buffer held before. -/
theorem render_eq (v : Int) (buffer : Bytes) (hbuffer : buffer.length = capacity)
    (h : v.natAbs < 10 ^ (47 : Nat)) : render v buffer = some (Digits.ofInt v).utf8 := by
  have hdigits : (Digits.ofNat v.natAbs).length ≤ 47 := Digits.length_ofNat_le (by decide) h
  have hcapacity : capacity = 48 := rfl
  have hfront {pos : Nat} (hpos : pos ≤ capacity) : (buffer.take pos).length = pos := by
    rw [List.length_take]
    omega
  rw [render, writeDigits_capacity hbuffer (by omega), Option.bind_some]
  dsimp only
  rw [writeSign_eq _ _ (by omega) (by omega), Option.map_some, Digits.ofInt]
  by_cases hneg : v < 0
  · rw [decide_eq_true hneg, if_pos rfl, if_pos hneg, List.drop_left' (hfront (by omega))]
    rfl
  · rw [decide_eq_false hneg, if_neg Bool.false_ne_true, if_neg hneg,
      List.drop_left' (hfront (by omega))]

/-- The digits of a word, its sign included, fit the buffer. -/
theorem render_word (v : Signed 128) {buffer : Bytes} (hbuffer : buffer.length = capacity) :
    render v.val buffer = some (Digits.ofInt v.val).utf8 := by
  have hlow := v.min_le
  have hhigh := v.lt_max
  exact render_eq v.val buffer hbuffer (by omega)

/-- The text of a large integer is its decimal text. -/
theorem bytes_eq (v : Signed 128) : bytes v = (Digits.ofInt v.val).utf8 := by
  rw [bytes, render_word v List.length_replicate]
  rfl

end LargeInt

end ResultSet
