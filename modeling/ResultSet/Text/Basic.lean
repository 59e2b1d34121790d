/-!
# Text and bytes

Rendered values are lists of characters until they are put on the wire, where
they become the bytes of their UTF-8 form.
-/

namespace ResultSet

/-- Raw bytes, not required to be valid UTF-8. -/
abbrev Bytes := List UInt8

/-- A rendered value, character by character. -/
abbrev Text := List Char

namespace Text

/-- The UTF-8 form of a text. -/
def utf8 (text : Text) : Bytes := text.flatMap String.utf8EncodeChar

@[simp] theorem utf8_nil : utf8 [] = [] := rfl

theorem utf8_append (left right : Text) : utf8 (left ++ right) = utf8 left ++ utf8 right := by
  simp [utf8]

/-- The texts before and behind a position that is counted in bytes, nothing for a position
inside a character or behind the end. -/
def splitAtByte? : Text → Nat → Option (Text × Text)
  | text, 0 => some ([], text)
  | [], _ + 1 => none
  | c :: rest, n + 1 =>
    if c.utf8Size ≤ n + 1 then
      (splitAtByte? rest (n + 1 - c.utf8Size)).map fun parts => (c :: parts.1, parts.2)
    else none

end Text

/-- The UTF-8 form of a string. -/
def bytesOf (s : String) : Bytes := Text.utf8 s.toList

end ResultSet
