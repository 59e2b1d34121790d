import ResultSet.Proofs.Text.Ascii
import ResultSet.Text.Blank

/-!
# White space at the ends of a text

`hasEnd` asks for an item at one of the two ends of a list.  A text without white space at its
ends is stripped already (`Text.trim_of_ends`), and an ASCII blank at one of them can be looked for
in the bytes (`Text.hasEnd_utf8`).
-/

namespace ResultSet

/-- An item at one of the two ends passes the test. -/
def hasEnd {α : Type} (p : α → Bool) (items : List α) : Bool :=
  items.head?.any p || items.getLast?.any p

theorem exists_mem_of_hasEnd {α : Type} {p : α → Bool} {items : List α}
    (h : hasEnd p items = true) : ∃ a ∈ items, p a = true := by
  rw [hasEnd, Bool.or_eq_true, Option.any_eq_true, Option.any_eq_true] at h
  rcases h with ⟨a, ha, hp⟩ | ⟨a, ha, hp⟩
  · exact ⟨a, List.mem_of_mem_head? ha, hp⟩
  · exact ⟨a, List.mem_of_mem_getLast? ha, hp⟩

theorem dropWhile_of_head? {α : Type} {p : α → Bool} {items : List α}
    (h : items.head?.any p = false) : items.dropWhile p = items := by
  cases items with
  | nil => rfl
  | cons a rest =>
    have ha : p a = false := h
    rw [List.dropWhile_cons_of_neg (by simp [ha])]

/-- The five ASCII blanks as bytes. -/
def isAsciiBlankByte (b : UInt8) : Bool := b == 32 || b == 9 || b == 10 || b == 12 || b == 13

theorem isAsciiBlankByte_ofNat (c : Char) :
    (decide (IsAscii c) && isAsciiBlankByte (UInt8.ofNat c.toNat)) = isAsciiBlank c := by
  have hchar (d : Char) : c = d ↔ c.toNat = d.toNat := Char.toNat_inj.symm
  have hbyte (b : UInt8) : UInt8.ofNat c.toNat = b ↔ c.toNat % 256 = b.toNat := by
    rw [← UInt8.toNat_inj, UInt8.toNat_ofNat']
  have hcodes : ' '.toNat = 32 ∧ '\t'.toNat = 9 ∧ '\n'.toNat = 10 ∧ '\x0c'.toNat = 12 ∧
      '\r'.toNat = 13 := by decide
  have hascii : decide (IsAscii c) = true ↔ c.toNat < 128 := decide_eq_true_iff
  rw [Bool.eq_iff_iff, Bool.and_eq_true, hascii]
  simp only [isAsciiBlankByte, isAsciiBlank, Bool.or_eq_true, beq_iff_eq, hchar, hbyte, hcodes,
    UInt8.reduceToNat]
  omega

theorem lt_of_isAsciiBlankByte (b : UInt8) (h : isAsciiBlankByte b = true) : b.toNat < 128 := by
  simp only [isAsciiBlankByte, Bool.or_eq_true, beq_iff_eq] at h
  rcases h with (((rfl | rfl) | rfl) | rfl) | rfl <;> decide

namespace Text

theorem trim_of_ends {text : Text} (h : hasEnd isBlank text = false) : text.trim = text := by
  rw [hasEnd, Bool.or_eq_false_iff] at h
  have hback : text.reverse.dropWhile isBlank = text.reverse :=
    dropWhile_of_head? (by rw [List.head?_reverse]; exact h.2)
  rw [Text.trim, dropWhile_of_head? h.1, hback, List.reverse_reverse]

theorem mem_of_mem_trim {text : Text} {c : Char} (h : c ∈ text.trim) : c ∈ text := by
  rw [Text.trim, List.mem_reverse] at h
  have hfront := (List.dropWhile_sublist isBlank).mem h
  rw [List.mem_reverse] at hfront
  exact (List.dropWhile_sublist isBlank).mem hfront

/-- A text with no white space keeps its ends. -/
theorem trim_of_not_blank {text : Text} (h : ∀ c ∈ text, isBlank c = false) :
    text.trim = text := by
  refine trim_of_ends (Bool.eq_false_iff.2 fun hend => ?_)
  obtain ⟨c, hc, hblank⟩ := exists_mem_of_hasEnd hend
  rw [h c hc] at hblank
  cases hblank

/-- The ends are looked at as bytes or as characters. -/
theorem hasEnd_utf8 (text : Text) :
    hasEnd isAsciiBlankByte text.utf8 = hasEnd isAsciiBlank text := by
  rw [hasEnd, any_head?_utf8 lt_of_isAsciiBlankByte, any_getLast?_utf8 lt_of_isAsciiBlankByte]
  simp only [isAsciiBlankByte_ofNat]
  rfl

end Text

end ResultSet
