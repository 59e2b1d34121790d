import ResultSet.Proofs.Decimal.WideText

/-!
# White space and underscores around a literal

`WideDecimal.parse` strips white space only where an ASCII blank stands at one of the two ends.
`WideDecimal.parseStrippedBy` always strips it and always takes the underscores out.

The two agree on every text but those with white space at an end and no ASCII blank at either
(`WideDecimal.IsOverlooked`).  Such a text goes to the reader with its white space, and a reader of
literals refuses it (`Literal.refusesBlanks_read?`).

* `cleanedInBytes_eq`: the tests are made on the first and the last byte, and each of the four
  combinations of their answers leaves the text that `cleaned` gives.
* `parseBy_eq_stripped`: where the two ways agree and where they do not.
-/

namespace ResultSet

/-! ## The characters of a literal -/

namespace Literal

/-- The characters that a literal with an exponent is made of. -/
def isLiteralChar (c : Char) : Bool :=
  c.isDigit || ['_', '+', '-', '.', 'e', 'E'].contains c

theorem mem_of_unsigned? {text : Text} {n : Nat} (h : unsigned? text = some n) :
    ∀ c ∈ text, c.isDigit = true ∨ c = '_' := by
  unfold unsigned? at h
  split at h
  · cases h
  · cases h
  · rename_i hnil hunder
    dsimp only at h
    split at h
    · rename_i hdigits
      intro c hc
      by_cases hc' : c = '_'
      · exact .inr hc'
      · exact .inl (List.all_eq_true.1 hdigits c (List.mem_filter.2 ⟨hc, by simpa using hc'⟩))
    · cases h

theorem mem_of_integer? {text : Text} {v : Int} (h : integer? text = some v) :
    ∀ c ∈ text, c.isDigit = true ∨ c = '_' ∨ c = '+' ∨ c = '-' := by
  have hdigits {rest : Text} (hread : unsigned? rest ≠ none) :
      ∀ c ∈ rest, c.isDigit = true ∨ c = '_' := by
    obtain ⟨n, hn⟩ := Option.ne_none_iff_exists'.1 hread
    exact mem_of_unsigned? hn
  intro c hc
  unfold integer? at h
  split at h
  · rcases List.mem_cons.1 hc with rfl | hrest
    · simp
    · exact (hdigits (fun hnone => by simp [hnone] at h) c hrest).imp_right .inl
  · rcases List.mem_cons.1 hc with rfl | hrest
    · simp
    · exact (hdigits (fun hnone => by simp [hnone] at h) c hrest).imp_right .inl
  · exact (hdigits (fun hnone => by simp [hnone] at h) c hc).imp_right .inl

/-- What stands between two parts of a text that is cut in front of the first character that
fails a test. -/
theorem mem_cut {p : Char → Bool} {text : Text} {c : Char} (hc : c ∈ text) :
    c ∈ text.takeWhile p ∨
      ∃ mark rest, text.dropWhile p = mark :: rest ∧ p mark = false ∧ (c = mark ∨ c ∈ rest) := by
  have hsplit := List.takeWhile_append_dropWhile (p := p) (l := text)
  have hhead := List.head?_dropWhile_not p text
  rw [← hsplit, List.mem_append] at hc
  refine hc.imp_right fun hback => ?_
  cases hdrop : text.dropWhile p with
  | nil => simp [hdrop] at hback
  | cons mark rest =>
    rw [hdrop] at hback hhead
    exact ⟨mark, rest, rfl, hhead, List.mem_cons.1 hback⟩

/-- Only points are taken out. -/
theorem mem_splitPoint {mantissa : Text} {c : Char} (hc : c ∈ mantissa) (hpoint : c ≠ '.') :
    c ∈ (splitPoint mantissa).1 := by
  rcases mem_cut (p := (· != '.')) hc with hwhole | ⟨mark, fraction, hcut, hmark, hmem⟩
  · unfold splitPoint
    split
    · exact hc
    · exact hwhole
    · exact List.mem_append_left _ hwhole
  · obtain rfl : mark = '.' := by simpa using hmark
    have hfraction : c ∈ fraction := hmem.resolve_left hpoint
    unfold splitPoint
    rw [hcut]
    cases fraction with
    | nil => simp at hfraction
    | cons d rest => exact List.mem_append_right _ hfraction

/-- Only the mark of the exponent is taken out. -/
theorem mem_splitExponent {text : Text} {c : Char} (hc : c ∈ text) (hmark : c ≠ 'e' ∧ c ≠ 'E') :
    c ∈ (splitExponent text).1 ∨
      ∃ exponent, (splitExponent text).2 = some exponent ∧ c ∈ exponent := by
  rcases mem_cut (p := fun c => !(c == 'e' || c == 'E')) hc with
    hfront | ⟨mark, rest, hcut, hend, hmem⟩
  · left
    unfold splitExponent
    dsimp only
    split <;> exact hfront
  · right
    have hne : c ≠ mark := by
      rintro rfl
      simp [hmark] at hend
    refine ⟨rest, ?_, hmem.resolve_left hne⟩
    unfold splitExponent
    dsimp only
    rw [hcut]

theorem isLiteralChar_of_read? {text : Text} {v : Scaled} (h : read? text = some v) :
    ∀ c ∈ text, isLiteralChar c = true := by
  have hinteger {part : Text} (hread : integer? part ≠ none) {c : Char} (hc : c ∈ part) :
      isLiteralChar c = true := by
    obtain ⟨n, hn⟩ := Option.ne_none_iff_exists'.1 hread
    rcases mem_of_integer? hn c hc with hdigit | rfl | rfl | rfl
    · simp [isLiteralChar, hdigit]
    all_goals decide
  intro c hc
  by_cases hmark : c ≠ 'e' ∧ c ≠ 'E'
  · rcases mem_splitExponent hc hmark with hmantissa | ⟨exponent, hexponent, hmem⟩
    · by_cases hpoint : c = '.'
      · rw [hpoint]
        decide
      · refine hinteger (fun hnone => ?_) (mem_splitPoint hmantissa hpoint)
        simp [read?, hnone] at h
    · refine hinteger (fun hnone => ?_) hmem
      simp [read?, hexponent, exponent?, hnone] at h
  · obtain rfl | rfl : c = 'e' ∨ c = 'E' := by grind
    all_goals decide

/-- The reader refuses a text with white space in it. -/
def RefusesBlanks (read : Text → Option Scaled) : Prop :=
  ∀ text, ∀ c ∈ text, isBlank c = true → read text = none

theorem refusesBlanks_read? : RefusesBlanks read? := by
  intro text c hc hblank
  refine Option.eq_none_iff_forall_ne_some.2 fun v hv => ?_
  have hchar := isLiteralChar_of_read? hv c hc
  rw [isLiteralChar, Bool.or_eq_true] at hchar
  rcases hchar with hdigit | hother
  · rw [isBlank_of_isDigit hdigit] at hblank
    cases hblank
  · simp only [List.contains_eq_mem, List.mem_cons, List.not_mem_nil, or_false, decide_eq_true_eq]
      at hother
    rcases hother with rfl | rfl | rfl | rfl | rfl | rfl
    all_goals exact absurd hblank (by decide)

end Literal

namespace WideDecimal

/-! ## The two ways of cleaning -/

/-- The text without surrounding white space and without underscores. -/
def stripped (text : Text) : Text := text.trim.filter (· != '_')

/-- The value that `read` gives for the cleaned form of a text, an error that quotes the text itself
when there is none. -/
def readCleaned (read : Text → Option Scaled) (text clean : Text) :
    Except DecimalError WideDecimal :=
  if clean.isEmpty then .error (.invalidLiteral text)
  else
    match read clean with
    | none => .error (.invalidLiteral text)
    | some v =>
      if h : v.scale.natAbs ≤ maxWideScale then .ok ⟨v, h⟩ else .error (.invalidLiteral text)

/-- `parseBy`, with the white space always stripped. -/
def parseStrippedBy (read : Text → Option Scaled) (text : Text) : Except DecimalError WideDecimal :=
  readCleaned read text (stripped text)

theorem parseBy_eq (read : Text → Option Scaled) (text : Text) :
    parseBy read text = readCleaned read text (cleaned text) := rfl

/-- `cleaned`, by the first and the last byte and by whether there are underscores at all. -/
def cleanedInBytes (text : Text) : Text :=
  match hasEnd isAsciiBlankByte text.utf8, text.utf8.contains 95 with
  | false, false => text
  | true, false => text.trim
  | false, true => text.filter (· != '_')
  | true, true => text.trim.filter (· != '_')

theorem cleaned_eq (text : Text) :
    cleaned text =
      (if hasEnd isAsciiBlank text then text.trim else text).filter (· != '_') := rfl

theorem contains_utf8 (text : Text) : text.utf8.contains 95 = text.contains '_' := by
  have hbyte (c : Char) :
      (decide (IsAscii c) && (95 : UInt8) == UInt8.ofNat c.toNat) = ('_' == c) := by
    have hascii : decide (IsAscii c) = true ↔ c.toNat < 128 := decide_eq_true_iff
    have hcode : '_'.toNat = 95 := rfl
    rw [Bool.eq_iff_iff, Bool.and_eq_true, hascii, beq_iff_eq, beq_iff_eq, ← UInt8.toNat_inj,
      UInt8.toNat_ofNat', ← Char.toNat_inj, hcode]
    show c.toNat < 128 ∧ 95 = c.toNat % 2 ^ 8 ↔ 95 = c.toNat
    omega
  have hsmall (b : UInt8) (hb : ((95 : UInt8) == b) = true) : b.toNat < 128 := by
    rw [← beq_iff_eq.1 hb]
    decide
  rw [List.contains_eq_any_beq, Text.any_utf8 hsmall, List.contains_eq_any_beq]
  simp only [hbyte]

/-- The bytes decide as the characters do, and a part that is not there need not be taken out. -/
theorem cleanedInBytes_eq (text : Text) : cleanedInBytes text = cleaned text := by
  have hkept {part : Text} (hpart : ∀ c ∈ part, c ∈ text) (hnone : text.contains '_' = false) :
      part.filter (· != '_') = part := by
    rw [List.filter_eq_self]
    intro c hc
    rw [bne_iff_ne]
    rintro rfl
    simp [hpart _ hc] at hnone
  rw [cleanedInBytes, cleaned_eq, Text.hasEnd_utf8, contains_utf8]
  cases hends : hasEnd isAsciiBlank text <;> cases hunder : text.contains '_'
  · exact (hkept (fun c hc => hc) hunder).symm
  · rfl
  · exact (hkept (fun c hc => Text.mem_of_mem_trim hc) hunder).symm
  · rfl

/-! ## Where they agree -/

/-- White space stands at an end of the text, but no ASCII blank stands at either. -/
def IsOverlooked (text : Text) : Prop :=
  hasEnd isBlank text = true ∧ hasEnd isAsciiBlank text = false

instance (text : Text) : Decidable (IsOverlooked text) := instDecidableAnd

theorem cleaned_eq_stripped {text : Text} (h : ¬IsOverlooked text) :
    cleaned text = stripped text := by
  rw [cleaned_eq, stripped]
  split
  · rfl
  · rename_i hascii
    have hends : hasEnd isBlank text = false :=
      Bool.eq_false_iff.2 fun hblank => h ⟨hblank, Bool.eq_false_iff.2 hascii⟩
    rw [Text.trim_of_ends hends]

/-- The white space of an overlooked text reaches the reader. -/
theorem exists_isBlank_of_overlooked {text : Text} (h : IsOverlooked text) :
    ∃ c ∈ cleaned text, isBlank c = true := by
  obtain ⟨c, hc, hblank⟩ := exists_mem_of_hasEnd h.1
  refine ⟨c, ?_, hblank⟩
  rw [cleaned_eq, h.2, if_neg Bool.false_ne_true, List.mem_filter, bne_iff_ne]
  refine ⟨hc, ?_⟩
  rintro rfl
  exact absurd hblank (by decide)

theorem parseBy_of_overlooked {read : Text → Option Scaled} (hread : Literal.RefusesBlanks read)
    {text : Text} (h : IsOverlooked text) : parseBy read text = .error (.invalidLiteral text) := by
  obtain ⟨c, hc, hblank⟩ := exists_isBlank_of_overlooked h
  rw [parseBy_eq, readCleaned, hread _ c hc hblank]
  split <;> rfl

/-- The bytes at the ends and the underscores of a text decide how it is cleaned.  Unless white
space at an end is overlooked, the text is read as if it were always stripped: the same value for
the same texts, the same error for the others.  A text with overlooked white space is refused. -/
theorem parseBy_eq_stripped {read : Text → Option Scaled} (hread : Literal.RefusesBlanks read)
    (text : Text) :
    cleanedInBytes text = cleaned text ∧
      (¬IsOverlooked text → parseBy read text = parseStrippedBy read text) ∧
      (IsOverlooked text → parseBy read text = .error (.invalidLiteral text)) ∧
      ∀ v, parseBy read text = .ok v ↔
        parseStrippedBy read text = .ok v ∧ ¬IsOverlooked text := by
  have hagree (h : ¬IsOverlooked text) : parseBy read text = parseStrippedBy read text := by
    rw [parseBy_eq, cleaned_eq_stripped h, parseStrippedBy]
  refine ⟨cleanedInBytes_eq text, hagree, parseBy_of_overlooked hread, fun v => ?_⟩
  by_cases h : IsOverlooked text
  · simp [parseBy_of_overlooked hread h, h]
  · simp [hagree h, h]

/-- A no-break space is stripped behind a space, and with the underscores it is out of the way. -/
theorem parseBy_eq_stripped_padded :
    Literal.RefusesBlanks Literal.read? ∧
      parseBy Literal.read? "  -1_2.5_0".toList = .ok ⟨⟨-1250, 2⟩, by decide⟩ := by
  have hstripped : parseStrippedBy Literal.read? "  -1_2.5_0".toList =
      .ok ⟨⟨-1250, 2⟩, by decide⟩ := by decide
  exact ⟨Literal.refusesBlanks_read?,
    ((parseBy_eq_stripped Literal.refusesBlanks_read? _).2.2.2 _).2 ⟨hstripped, by decide⟩⟩

/-- A no-break space in front of a digit is not stripped. -/
theorem parseBy_noBreakSpace :
    parseStrippedBy Literal.read? " 1".toList = .ok ⟨⟨1, 0⟩, by decide⟩ ∧
      parseBy Literal.read? " 1".toList = .error (.invalidLiteral " 1".toList) := by
  decide

end WideDecimal

end ResultSet
