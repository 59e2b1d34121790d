import ResultSet.Number.Power
import ResultSet.Proofs.Number.Digits
import ResultSet.Text.Lossy

/-!
# ASCII characters as bytes

A character below 128 is one byte, and the bytes of any other character are 128 or more
(`utf8EncodeChar_ascii`, `le_of_mem_utf8EncodeChar`).  So a test for ASCII bytes can be made on
the characters (`Text.all_utf8`, `Text.any_utf8`), and a text that passes it can be cut at every
byte (`Text.splitAtByte?_of_ascii`).  The bytes of an ASCII text are read as the text
(`Text.ofBytes_utf8_of_ascii`).
-/

namespace ResultSet

/-- The number of the character is below 128. -/
def IsAscii (c : Char) : Prop := c.toNat < 128

instance (c : Char) : Decidable (IsAscii c) := Nat.decLt _ _

theorem isAscii_of_isDigit {c : Char} (h : c.isDigit = true) : IsAscii c := by
  simp [Char.isDigit_iff_toNat] at h
  unfold IsAscii
  omega

/-- An ASCII character is one byte. -/
theorem utf8EncodeChar_ascii {c : Char} (h : IsAscii c) :
    String.utf8EncodeChar c = [UInt8.ofNat c.toNat] :=
  if_pos (Nat.le_of_lt_succ h)

/-- No byte of another character is an ASCII character. -/
theorem le_of_mem_utf8EncodeChar {c : Char} (h : ¬IsAscii c) {b : UInt8}
    (hb : b ∈ String.utf8EncodeChar c) : 128 ≤ b.toNat := by
  have hlarge : ¬c.val.toNat ≤ 127 := fun hle => h (Nat.lt_succ_of_le hle)
  have htoNat (n : Nat) : (UInt8.ofNat n).toNat = n % 256 := by simp
  simp only [String.utf8EncodeChar, if_neg hlarge] at hb
  split at hb
  · simp only [List.mem_cons, List.not_mem_nil, or_false] at hb
    rcases hb with rfl | rfl <;> rw [htoNat] <;> omega
  · split at hb
    · simp only [List.mem_cons, List.not_mem_nil, or_false] at hb
      rcases hb with rfl | rfl | rfl <;> rw [htoNat] <;> omega
    · simp only [List.mem_cons, List.not_mem_nil, or_false] at hb
      rcases hb with rfl | rfl | rfl | rfl <;> rw [htoNat] <;> omega

namespace Text

@[simp] theorem utf8_cons (c : Char) (rest : Text) :
    utf8 (c :: rest) = String.utf8EncodeChar c ++ utf8 rest := by simp [utf8]

/-- A test that only ASCII bytes pass is a test of the characters. -/
theorem all_utf8 {p : UInt8 → Bool} (hp : ∀ b, p b = true → b.toNat < 128) (text : Text) :
    text.utf8.all p = text.all fun c => decide (IsAscii c) && p (UInt8.ofNat c.toNat) := by
  induction text with
  | nil => rfl
  | cons c rest ih =>
    rw [utf8_cons, List.all_append, List.all_cons, ih]
    congr 1
    by_cases hc : IsAscii c
    · rw [utf8EncodeChar_ascii hc, decide_eq_true hc]
      simp
    · rw [decide_eq_false hc, Bool.false_and, List.all_eq_false]
      obtain ⟨b, bytes, hbytes⟩ :=
        List.exists_cons_of_ne_nil (String.utf8EncodeChar_ne_nil (c := c))
      refine ⟨b, by simp [hbytes], fun hb => ?_⟩
      have hlarge := le_of_mem_utf8EncodeChar hc (b := b) (by simp [hbytes])
      have hsmall := hp b hb
      omega

/-- Every byte of a character passes such a test exactly if the character does. -/
theorem test_of_mem_utf8EncodeChar {p : UInt8 → Bool} (hp : ∀ b, p b = true → b.toNat < 128)
    {c : Char} {b : UInt8} (hb : b ∈ String.utf8EncodeChar c) :
    p b = (decide (IsAscii c) && p (UInt8.ofNat c.toNat)) := by
  by_cases hc : IsAscii c
  · rw [utf8EncodeChar_ascii hc, List.mem_singleton] at hb
    rw [hb, decide_eq_true hc, Bool.true_and]
  · have hlarge := le_of_mem_utf8EncodeChar hc hb
    have hfails : ¬p b = true := fun h => absurd (hp b h) (Nat.not_lt.2 hlarge)
    rw [decide_eq_false hc, Bool.false_and, Bool.eq_false_iff]
    exact hfails

theorem any_utf8 {p : UInt8 → Bool} (hp : ∀ b, p b = true → b.toNat < 128) (text : Text) :
    text.utf8.any p = text.any fun c => decide (IsAscii c) && p (UInt8.ofNat c.toNat) := by
  induction text with
  | nil => rfl
  | cons c rest ih =>
    obtain ⟨b, bytes, hbytes⟩ :=
      List.exists_cons_of_ne_nil (String.utf8EncodeChar_ne_nil (c := c))
    have hall : ∀ b ∈ String.utf8EncodeChar c,
        p b = (decide (IsAscii c) && p (UInt8.ofNat c.toNat)) :=
      fun _ hb => test_of_mem_utf8EncodeChar hp hb
    rw [utf8_cons, List.any_append, List.any_cons, ih]
    congr 1
    rw [hbytes] at hall ⊢
    rw [Bool.eq_iff_iff, List.any_eq_true]
    constructor
    · rintro ⟨b, hb, hpass⟩
      rwa [hall b hb] at hpass
    · intro hpass
      exact ⟨b, List.mem_cons_self, by rw [hall b List.mem_cons_self, hpass]⟩

/-- The first byte passes such a test exactly if the first character does. -/
theorem any_head?_utf8 {p : UInt8 → Bool} (hp : ∀ b, p b = true → b.toNat < 128) (text : Text) :
    text.utf8.head?.any p =
      text.head?.any fun c => decide (IsAscii c) && p (UInt8.ofNat c.toNat) := by
  cases text with
  | nil => rfl
  | cons c rest =>
    obtain ⟨b, bytes, hbytes⟩ :=
      List.exists_cons_of_ne_nil (String.utf8EncodeChar_ne_nil (c := c))
    rw [utf8_cons, hbytes]
    exact test_of_mem_utf8EncodeChar hp (by rw [hbytes]; exact List.mem_cons_self)

/-- The last byte passes such a test exactly if the last character does. -/
theorem any_getLast?_utf8 {p : UInt8 → Bool} (hp : ∀ b, p b = true → b.toNat < 128)
    (text : Text) :
    text.utf8.getLast?.any p =
      text.getLast?.any fun c => decide (IsAscii c) && p (UInt8.ofNat c.toNat) := by
  rcases List.eq_nil_or_concat text with rfl | ⟨front, c, rfl⟩
  · rfl
  · have hlast := List.getLast?_eq_some_getLast (String.utf8EncodeChar_ne_nil (c := c))
    rw [List.concat_eq_append, utf8_append, utf8_cons, utf8_nil, List.append_nil,
      List.getLast?_append, List.getLast?_append, hlast]
    exact test_of_mem_utf8EncodeChar hp (List.getLast_mem _)

/-- An ASCII text has a byte for each character. -/
theorem utf8_of_ascii {text : Text} (h : ∀ c ∈ text, IsAscii c) :
    text.utf8 = text.map fun c => UInt8.ofNat c.toNat := by
  induction text with
  | nil => rfl
  | cons c rest ih =>
    simp only [List.mem_cons, forall_eq_or_imp] at h
    rw [utf8_cons, utf8EncodeChar_ascii h.1, ih h.2]
    rfl

theorem length_utf8_of_ascii {text : Text} (h : ∀ c ∈ text, IsAscii c) :
    text.utf8.length = text.length := by
  rw [utf8_of_ascii h, List.length_map]

/-- The bytes of an ASCII text are read as the text. -/
theorem ofBytes_utf8_of_ascii {text : Text} (h : ∀ c ∈ text, IsAscii c) :
    ofBytes text.utf8 = text := by
  induction text with
  | nil => rw [utf8_nil, ofBytes]
  | cons c rest ih =>
    simp only [List.mem_cons, forall_eq_or_imp] at h
    have hc : c.toNat < 0x80 := h.1
    have hcode : (UInt8.ofNat c.toNat).toNat = c.toNat := by
      rw [UInt8.toNat_ofNat']
      omega
    rw [utf8_cons, utf8EncodeChar_ascii h.1, List.singleton_append, ofBytes, hcode, if_pos hc,
      ih h.2, Char.ofNat_toNat]

theorem utf8_inj_of_ascii {left right : Text} (hleft : ∀ c ∈ left, IsAscii c)
    (hright : ∀ c ∈ right, IsAscii c) : left.utf8 = right.utf8 ↔ left = right := by
  constructor
  · intro h
    rw [← ofBytes_utf8_of_ascii hleft, h, ofBytes_utf8_of_ascii hright]
  · rintro rfl
    rfl

/-- The first byte is a given ASCII character exactly if the first character is. -/
theorem head?_utf8 (text : Text) {c : Char} (hc : IsAscii c) :
    text.utf8.head? = some (UInt8.ofNat c.toNat) ↔ text.head? = some c := by
  have hbyte {d : Char} (hd : IsAscii d) : (UInt8.ofNat d.toNat).toNat = d.toNat := by
    unfold IsAscii at hd
    simp
    omega
  cases text with
  | nil => simp
  | cons d rest =>
    obtain ⟨b, bytes, hbytes⟩ :=
      List.exists_cons_of_ne_nil (String.utf8EncodeChar_ne_nil (c := d))
    simp only [utf8_cons, hbytes, List.cons_append, List.head?_cons, Option.some.injEq]
    constructor
    · intro h
      by_cases hd : IsAscii d
      · rw [utf8EncodeChar_ascii hd, List.cons.injEq] at hbytes
        exact Char.toNat_inj.1 (by rw [← hbyte hd, hbytes.1, h, hbyte hc])
      · have hlarge := le_of_mem_utf8EncodeChar hd (b := b) (by simp [hbytes])
        rw [h, hbyte hc] at hlarge
        exact absurd hc (Nat.not_lt.2 hlarge)
    · rintro rfl
      rw [utf8EncodeChar_ascii hc, List.cons.injEq] at hbytes
      exact hbytes.1.symm

theorem splitAtByte?_of_ascii {text : Text} {n : Nat} (h : ∀ c ∈ text.take n, IsAscii c)
    (hn : n ≤ text.length) : splitAtByte? text n = some (text.take n, text.drop n) := by
  induction text generalizing n with
  | nil =>
    obtain rfl : n = 0 := by simpa using hn
    rfl
  | cons c rest ih =>
    cases n with
    | zero => rfl
    | succ n =>
      simp only [List.take_succ_cons, List.mem_cons, forall_eq_or_imp] at h
      have hsize : c.utf8Size = 1 := by
        rw [← String.length_utf8EncodeChar, utf8EncodeChar_ascii h.1]
        rfl
      rw [splitAtByte?, hsize, if_pos (by omega), Nat.add_sub_cancel, ih h.2 (by simpa using hn)]
      rfl

end Text

end ResultSet
