import ResultSet.Proofs.Json.Number

/-!
# A rendered document is read back

The reader consumes a prefix of its input, so every statement here has some text behind the
part that was rendered.  Only an integer looks at that text (`EndsNumber`); every other token
ends by itself.

`Written` are the documents made of integers, strings with a content, lists, and objects
whose keys stand as they are.  `parse_render` is the result for them.
-/

namespace ResultSet

namespace Json

/-! ## Blanks -/

theorem skipBlanks_cons {c : Char} (h : isJsonBlank c = false) (rest : Text) :
    skipBlanks (c :: rest) = c :: rest := by
  simp [skipBlanks, h]

/-! ## Strings -/

theorem hexUnit?_hexDigit :
    ∀ n < 0x20, hexUnit? '0' '0' (hexDigit (n / 16)) (hexDigit (n % 16)) = some n := by
  decide

/-- A code unit that is no half of a pair is a character by itself. -/
theorem joinUnits_unit {code : Nat} (h : code < 0xD800) (units : List StringUnit) :
    joinUnits (.unit code :: units) = (joinUnits units).map (Char.ofNat code :: ·) := by
  have hhigh : isHighSurrogate code = false := by simp [isHighSurrogate]; omega
  have hlow : isLowSurrogate code = false := by simp [isLowSurrogate]; omega
  rw [joinUnits.eq_def]
  split <;> simp_all

/-- A character without an escape is read as itself. -/
theorem readUnits_plain {c : Char} (hquote : c ≠ '"') (hslash : c ≠ '\\') (hcontrol : ¬c.toNat < 0x20)
    (input : Text) :
    readUnits (c :: input) = (readUnits input).map fun read => (.char c :: read.1, read.2) := by
  rw [readUnits.eq_def]
  split
  case h_5 heq =>
    cases heq
    rw [if_neg (by simp [hcontrol, hslash])]
    cases readUnits input <;> rfl
  all_goals simp_all

/-- A character with a letter of its own is read as that character. -/
theorem readUnits_short {letter c : Char} (hletter : letter ≠ 'u')
    (h : shortEscape? letter = some c) (input : Text) :
    readUnits ('\\' :: letter :: input) =
      (readUnits input).map fun read => (.char c :: read.1, read.2) := by
  rw [readUnits.eq_def]
  split
  case h_4 heq =>
    cases heq
    rw [h]
    cases readUnits input <;> rfl
  case h_5 hnot heq =>
    cases heq
    exact absurd rfl (hnot letter input rfl)
  all_goals simp_all

/-- A control character without a letter is read as its code unit. -/
theorem readUnits_control {n : Nat} (h : n < 0x20) (input : Text) :
    readUnits ('\\' :: 'u' :: '0' :: '0' :: hexDigit (n / 16) :: hexDigit (n % 16) :: input) =
      (readUnits input).map fun read => (.unit n :: read.1, read.2) := by
  rw [readUnits, hexUnit?_hexDigit n h]
  cases readUnits input <;> rfl

/-- What was written for the character is read as one unit, and that unit stands for it. -/
def ReadsBack (c : Char) : Prop :=
  ∃ unit, (∀ units, joinUnits (unit :: units) = (joinUnits units).map (c :: ·)) ∧
    ∀ input, readUnits (escape c ++ input) =
      (readUnits input).map fun read => (unit :: read.1, read.2)

theorem readsBack_short {letter c : Char} (hescape : escape c = ['\\', letter])
    (hletter : letter ≠ 'u') (h : shortEscape? letter = some c) : ReadsBack c := by
  refine ⟨.char c, fun _ => rfl, fun input => ?_⟩
  rw [hescape]
  exact readUnits_short hletter h input

/-- The characters with a letter of their own. -/
def shortEscaped : List Char := ['"', '\\', '\n', '\r', '\t', '\x08', '\x0c']

theorem escape_of_not_short {c : Char} (h : c ∉ shortEscaped) :
    escape c = if c.toNat < 0x20 then
      ['\\', 'u', '0', '0', hexDigit (c.toNat / 16), hexDigit (c.toNat % 16)] else [c] := by
  simp only [shortEscaped, List.mem_cons, List.not_mem_nil, or_false, not_or] at h
  obtain ⟨hquote, hslash, hline, hreturn, htab, hback, hfeed⟩ := h
  rw [escape, if_neg hquote, if_neg hslash, if_neg hline, if_neg hreturn, if_neg htab,
    if_neg hback, if_neg hfeed]

theorem readsBack (c : Char) : ReadsBack c := by
  by_cases hshort : c ∈ shortEscaped
  · simp only [shortEscaped, List.mem_cons, List.not_mem_nil, or_false] at hshort
    rcases hshort with rfl | rfl | rfl | rfl | rfl | rfl | rfl <;>
      exact readsBack_short rfl (by decide) rfl
  by_cases hcontrol : c.toNat < 0x20
  · refine ⟨.unit c.toNat, fun units => ?_, fun input => ?_⟩
    · rw [joinUnits_unit (by omega), Char.ofNat_toNat]
    · rw [escape_of_not_short hshort, if_pos hcontrol]
      exact readUnits_control hcontrol input
  · refine ⟨.char c, fun _ => rfl, fun input => ?_⟩
    rw [escape_of_not_short hshort, if_neg hcontrol]
    have hquote : c ≠ '"' := fun hc => hshort (by rw [hc]; decide)
    have hslash : c ≠ '\\' := fun hc => hshort (by rw [hc]; decide)
    exact readUnits_plain hquote hslash hcontrol input

/-- The content of a string is read up to the closing quote. -/
theorem readString_escape (content rest : Text) :
    readString (content.flatMap escape ++ '"' :: rest) = some (some content, rest) := by
  have hunits : ∃ units, readUnits (content.flatMap escape ++ '"' :: rest) = some (units, rest) ∧
      joinUnits units = some content := by
    induction content with
    | nil => exact ⟨[], rfl, rfl⟩
    | cons c content ih =>
      obtain ⟨units, hread, hjoin⟩ := ih
      obtain ⟨unit, hunit, hescape⟩ := readsBack c
      refine ⟨unit :: units, ?_, ?_⟩
      · rw [List.flatMap_cons, List.append_assoc, hescape, hread]
        rfl
      · rw [hunit, hjoin]
        rfl
  obtain ⟨units, hread, hjoin⟩ := hunits
  rw [readString, hread, ← hjoin]
  rfl

/-- Every character of the text stands in a string as it is. -/
def IsUnescaped (content : Text) : Prop :=
  ∀ c ∈ content, escape c = [c]

instance (content : Text) : Decidable (IsUnescaped content) :=
  List.decidableBAll (fun c => escape c = [c]) content

theorem IsUnescaped.flatMap_escape {content : Text} (h : IsUnescaped content) :
    content.flatMap escape = content := by
  induction content with
  | nil => rfl
  | cons c content ih =>
    have hc := h c List.mem_cons_self
    have hrest := ih fun c hc => h c (List.mem_cons_of_mem _ hc)
    rw [List.flatMap_cons, hc, hrest, List.singleton_append]

theorem IsUnescaped.hasEscape_eq {content : Text} (h : IsUnescaped content) (rest : Text) :
    hasEscape (content ++ '"' :: rest) = false := by
  have hquote : ∀ c ∈ content, (c != '"') = true := by
    intro c hc
    rw [bne_iff_ne]
    rintro rfl
    exact absurd (h _ hc) (by decide)
  have hslash : '\\' ∉ content := fun hc => absurd (h _ hc) (by decide)
  have htake : (content ++ '"' :: rest).takeWhile (· != '"') = content := by
    rw [List.takeWhile_append_of_pos hquote]
    simp
  rw [hasEscape, htake]
  simpa using hslash

/-- A key that stands as it is comes back without the mark of an escape. -/
theorem readKey_unescaped {content : Text} (h : IsUnescaped content) (rest : Text) :
    readKey (content.flatMap escape ++ '"' :: rest) = some (.plain content, rest) := by
  rw [readKey, readString_escape, Option.map_some, h.flatMap_escape, h.hasEscape_eq]
  rfl

/-! ## Documents -/

/-- The documents made of integers, strings with a content, lists, and objects with keys that
stand as they are. -/
inductive Written : Json → Prop
  | null : Written .null
  | bool (v : Bool) : Written (.bool v)
  | int (v : Int) : Written (.int v)
  | text (content : Text) : Written (.text content)
  | array {items : List Json} (h : ∀ item ∈ items, Written item) : Written (.array items)
  | record {entries : List (String × Json)}
      (hkeys : ∀ entry ∈ entries, IsUnescaped entry.1.toList)
      (h : ∀ entry ∈ entries, Written entry.2) : Written (.record entries)

/-- The document is read back in front of any text that does not go on with a number. -/
def ReadBack (document : Json) : Prop :=
  ∀ ⦃fuel : Nat⦄ ⦃rest : Text⦄, (render document).length < fuel → EndsNumber rest →
    readValue fuel (render document ++ rest) = some (document, rest)

/-- The first character of an integer is no other character. -/
theorem ne_of_opens {c d : Char} (hc : c = '-' ∨ c.isDigit = true)
    (hd : d ≠ '-' ∧ d.isDigit = false) : c ≠ d := by
  rintro rfl
  rcases hc with rfl | hc
  · exact hd.1 rfl
  · exact absurd hc (by simp [hd.2])

theorem isJsonBlank_of_opens {c : Char} (hc : c = '-' ∨ c.isDigit = true) :
    isJsonBlank c = false := by
  simp only [isJsonBlank, Bool.or_eq_false_iff, beq_eq_false_iff_ne]
  exact ⟨⟨⟨ne_of_opens hc (by decide), ne_of_opens hc (by decide)⟩, ne_of_opens hc (by decide)⟩,
    ne_of_opens hc (by decide)⟩

/-- A document starts with a character that is neither a blank nor a closing bracket. -/
theorem Written.render_cons {document : Json} (h : Written document) :
    ∃ c rest, render document = c :: rest ∧ isJsonBlank c = false ∧ c ≠ ']' := by
  cases h with
  | null => exact ⟨'n', _, rfl, by decide, by decide⟩
  | bool v => cases v <;> exact ⟨_, _, rfl, by decide, by decide⟩
  | int v =>
    obtain ⟨c, rest, hdigits, hc⟩ := Digits.ofInt_cons v
    exact ⟨c, rest, hdigits, isJsonBlank_of_opens hc, ne_of_opens hc (by decide)⟩
  | text content => exact ⟨'"', _, rfl, by decide, by decide⟩
  | array h => exact ⟨'[', _, rfl, by decide, by decide⟩
  | record hkeys h => exact ⟨'\x7b', _, rfl, by decide, by decide⟩

theorem readBack_int (v : Int) : ReadBack (.int v) := by
  intro fuel rest hfuel hrest
  obtain ⟨c, digits, hdigits, hc⟩ := Digits.ofInt_cons v
  have hread := readNumber_ofInt v hrest
  rw [hdigits, List.cons_append] at hread
  cases fuel with
  | zero => omega
  | succ fuel =>
    show readValue (fuel + 1) (Digits.ofInt v ++ rest) = _
    rw [readValue, hdigits, List.cons_append, skipBlanks_cons (isJsonBlank_of_opens hc)]
    split
    case h_7 =>
      rw [hread, Option.map_some, ← hdigits]
      rfl
    -- no other token begins with a digit or a minus sign
    all_goals
      next heq =>
        exact absurd (List.cons.inj heq).1 (ne_of_opens hc (by decide))

/-! ## Tokens -/

theorem readValue_quote (fuel : Nat) (rest : Text) :
    readValue (fuel + 1) ('"' :: rest) =
      (readString rest).map fun read => (.string read.1, read.2) := rfl

theorem readValue_array {c : Char} (hblank : isJsonBlank c = false) (hc : c ≠ ']') (fuel : Nat)
    (rest : Text) :
    readValue (fuel + 1) ('[' :: c :: rest) =
      (readItems fuel (c :: rest)).map fun read => (.array read.1, read.2) := by
  have hopen : skipBlanks ('[' :: c :: rest) = '[' :: c :: rest :=
    skipBlanks_cons (show isJsonBlank '[' = false by decide) _
  rw [readValue, hopen]
  simp only [skipBlanks_cons hblank]
  split
  · next heq => exact absurd (List.cons.inj heq).1 hc
  · rfl

theorem readValue_object (fuel : Nat) (rest : Text) :
    readValue (fuel + 1) ('\x7b' :: '"' :: rest) =
      (readEntries fuel ('"' :: rest)).map fun read => (.object read.1, read.2) := rfl

theorem readItems_comma {fuel : Nat} {input rest : Text} {item : Json}
    (h : readValue fuel input = some (item, ',' :: rest)) :
    readItems (fuel + 1) input =
      (readItems fuel rest).map fun read => (item :: read.1, read.2) := by
  rw [readItems, h]
  rfl

theorem readItems_close {fuel : Nat} {input rest : Text} {item : Json}
    (h : readValue fuel input = some (item, ']' :: rest)) :
    readItems (fuel + 1) input = some ([item], rest) := by
  rw [readItems, h]
  rfl

theorem readEntries_comma {fuel : Nat} {input rest after : Text} {key : JsonKey} {v : Json}
    (hkey : readKey input = some (key, ':' :: rest))
    (h : readValue fuel rest = some (v, ',' :: after)) :
    readEntries (fuel + 1) ('"' :: input) =
      (readEntries fuel after).map fun read => ((key, v) :: read.1, read.2) := by
  have hskip : skipBlanks ('"' :: input) = '"' :: input := rfl
  have hcolon : skipBlanks (':' :: rest) = ':' :: rest := rfl
  have hcomma : skipBlanks (',' :: after) = ',' :: after := rfl
  rw [readEntries, hskip]
  simp [hkey, hcolon, h, hcomma]

theorem readEntries_close {fuel : Nat} {input rest after : Text} {key : JsonKey} {v : Json}
    (hkey : readKey input = some (key, ':' :: rest))
    (h : readValue fuel rest = some (v, '\x7d' :: after)) :
    readEntries (fuel + 1) ('"' :: input) = some ([(key, v)], after) := by
  have hskip : skipBlanks ('"' :: input) = '"' :: input := rfl
  have hcolon : skipBlanks (':' :: rest) = ':' :: rest := rfl
  have hclose : skipBlanks ('\x7d' :: after) = '\x7d' :: after := rfl
  rw [readEntries, hskip]
  simp [hkey, hcolon, h, hclose]

/-! ## Documents read back -/

theorem readBack_text (content : Text) : ReadBack (.text content) := by
  intro fuel rest hfuel hrest
  obtain ⟨fuel, rfl⟩ : ∃ n, fuel = n + 1 := ⟨fuel - 1, by omega⟩
  show readValue (fuel + 1) ('"' :: ((content.flatMap escape ++ ['"']) ++ rest)) = _
  rw [readValue_quote, List.append_assoc, List.singleton_append, readString_escape]
  rfl

/-- Items are read up to the closing bracket. -/
theorem readItems_render {items : List Json} (hne : items ≠ []) (h : ∀ item ∈ items, ReadBack item)
    {fuel : Nat} (hfuel : (renderItems items).length + 1 < fuel) (rest : Text) :
    readItems fuel (renderItems items ++ ']' :: rest) = some (items, rest) := by
  induction items generalizing fuel with
  | nil => exact absurd rfl hne
  | cons item items ih =>
    obtain ⟨fuel, rfl⟩ : ∃ n, fuel = n + 1 := ⟨fuel - 1, by omega⟩
    have hitem := h item List.mem_cons_self
    cases items with
    | nil =>
      rw [renderItems] at hfuel ⊢
      exact readItems_close (hitem (by omega) (endsNumber_cons (by decide)))
    | cons next items =>
      have hsplit : renderItems (item :: next :: items) =
        render item ++ ',' :: renderItems (next :: items) := by simp [renderItems]
      rw [hsplit] at hfuel ⊢
      simp only [List.length_append, List.length_cons] at hfuel
      have hitems : readItems fuel (renderItems (next :: items) ++ ']' :: rest) =
          some (next :: items, rest) := by
        apply ih (by simp)
        · intro item hmem
          exact h item (List.mem_cons_of_mem _ hmem)
        · omega
      rw [List.append_assoc, List.cons_append,
        readItems_comma (hitem (by omega) (endsNumber_cons (by decide))), hitems]
      rfl

/-- The entry with a key that stands as it is. -/
def plainEntry (entry : String × Json) : JsonKey × Json := (.plain entry.1.toList, entry.2)

theorem record_eq (entries : List (String × Json)) :
    record entries = .object (entries.map plainEntry) := rfl

theorem renderEntries_cons (entry next : String × Json) (entries : List (String × Json)) :
    renderEntries ((entry :: next :: entries).map plainEntry) =
      quoted entry.1.toList ++ ':' :: (render entry.2 ++
        ',' :: renderEntries ((next :: entries).map plainEntry)) := by
  simp [renderEntries, plainEntry, JsonKey.plain]

theorem renderEntries_singleton (entry : String × Json) :
    renderEntries ([entry].map plainEntry) = quoted entry.1.toList ++ ':' :: render entry.2 := by
  simp [renderEntries, plainEntry, JsonKey.plain]

/-- Entries are read up to the closing brace. -/
theorem readEntries_render {entries : List (String × Json)} (hne : entries ≠ [])
    (hkeys : ∀ entry ∈ entries, IsUnescaped entry.1.toList)
    (h : ∀ entry ∈ entries, ReadBack entry.2) {fuel : Nat}
    (hfuel : (renderEntries (entries.map plainEntry)).length + 1 < fuel) (rest : Text) :
    readEntries fuel (renderEntries (entries.map plainEntry) ++ '\x7d' :: rest) =
      some (entries.map plainEntry, rest) := by
  induction entries generalizing fuel with
  | nil => exact absurd rfl hne
  | cons entry entries ih =>
    obtain ⟨fuel, rfl⟩ : ∃ n, fuel = n + 1 := ⟨fuel - 1, by omega⟩
    have hvalue := h entry List.mem_cons_self
    have hkey (after : Text) : readKey (entry.1.toList.flatMap escape ++ '"' :: after) =
        some (.plain entry.1.toList, after) :=
      readKey_unescaped (hkeys entry List.mem_cons_self) after
    cases entries with
    | nil =>
      rw [renderEntries_singleton, quoted] at hfuel ⊢
      simp only [List.length_append, List.length_cons, List.length_nil] at hfuel
      simp only [List.append_assoc, List.cons_append, List.nil_append]
      rw [readEntries_close (hkey _) (hvalue (by omega) (endsNumber_cons (by decide)))]
      rfl
    | cons next entries =>
      rw [renderEntries_cons, quoted] at hfuel ⊢
      simp only [List.length_append, List.length_cons, List.length_nil] at hfuel
      have hentries : readEntries fuel
          (renderEntries ((next :: entries).map plainEntry) ++ '\x7d' :: rest) =
            some ((next :: entries).map plainEntry, rest) := by
        apply ih (by simp)
        · intro entry hmem
          exact hkeys entry (List.mem_cons_of_mem _ hmem)
        · intro entry hmem
          exact h entry (List.mem_cons_of_mem _ hmem)
        · omega
      simp only [List.append_assoc, List.cons_append, List.nil_append]
      rw [readEntries_comma (hkey _) (hvalue (by omega) (endsNumber_cons (by decide))), hentries]
      rfl

/-- Every document comes back, whatever stands behind it. -/
theorem Written.readBack {document : Json} (h : Written document) : ReadBack document := by
  induction h with
  | null =>
    intro fuel rest hfuel _
    obtain ⟨fuel, rfl⟩ : ∃ n, fuel = n + 1 := ⟨fuel - 1, by omega⟩
    rfl
  | bool v =>
    intro fuel rest hfuel _
    obtain ⟨fuel, rfl⟩ : ∃ n, fuel = n + 1 := ⟨fuel - 1, by omega⟩
    cases v <;> rfl
  | int v => exact readBack_int v
  | text content => exact readBack_text content
  | @array items h ih =>
    intro fuel rest hfuel _
    obtain ⟨fuel, rfl⟩ : ∃ n, fuel = n + 1 := ⟨fuel - 1, by omega⟩
    cases items with
    | nil => rfl
    | cons item items =>
      have hread : readItems fuel (renderItems (item :: items) ++ ']' :: rest) =
          some (item :: items, rest) := by
        apply readItems_render (by simp) ih
        rw [render] at hfuel
        simp only [List.length_cons, List.length_append, List.length_nil] at hfuel
        omega
      obtain ⟨c, text, hopen, hblank, hc⟩ : ∃ c text, renderItems (item :: items) = c :: text ∧
          isJsonBlank c = false ∧ c ≠ ']' := by
        obtain ⟨c, text, hitem, hblank, hc⟩ := (h item List.mem_cons_self).render_cons
        cases items with
        | nil => exact ⟨c, text, hitem, hblank, hc⟩
        | cons next items => exact ⟨c, _, by rw [renderItems, hitem]; rfl, hblank, hc⟩
      rw [hopen, List.cons_append] at hread
      rw [render, List.cons_append, List.append_assoc, List.singleton_append, hopen,
        List.cons_append, readValue_array hblank hc, hread]
      rfl
  | @record entries hkeys h ih =>
    intro fuel rest hfuel _
    obtain ⟨fuel, rfl⟩ : ∃ n, fuel = n + 1 := ⟨fuel - 1, by omega⟩
    cases entries with
    | nil => rfl
    | cons entry entries =>
      have hread : readEntries fuel
          (renderEntries ((entry :: entries).map plainEntry) ++ '\x7d' :: rest) =
            some ((entry :: entries).map plainEntry, rest) := by
        apply readEntries_render (by simp) hkeys ih
        rw [record_eq, render] at hfuel
        simp only [List.length_cons, List.length_append, List.length_nil] at hfuel
        omega
      obtain ⟨text, hopen⟩ : ∃ text,
          renderEntries ((entry :: entries).map plainEntry) = '"' :: text := by
        cases entries with
        | nil => exact ⟨_, renderEntries_singleton entry⟩
        | cons next entries => exact ⟨_, renderEntries_cons entry next entries⟩
      rw [hopen, List.cons_append] at hread
      rw [record_eq, render, List.cons_append, List.append_assoc, List.singleton_append, hopen,
        List.cons_append, readValue_object, hread]
      rfl

/-- A whole text is read as the document it was written for. -/
theorem parse_render {document : Json} (h : Written document) :
    parse (render document) = some document := by
  have hread := h.readBack (Nat.lt_succ_self _) endsNumber_nil
  rw [List.append_nil] at hread
  rw [parse, hread]
  rfl

end Json

end ResultSet
