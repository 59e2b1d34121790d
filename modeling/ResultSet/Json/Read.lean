import ResultSet.Json.Basic
import ResultSet.Text.Hex

/-!
# Reading JSON

`Json.parse` reads one document; only blanks may stand around it.  The depth of
nesting is not limited here: a decoder limits the depth of what it looks at.
-/

namespace ResultSet

namespace Json

/-- The character may stand between tokens. -/
def isJsonBlank (c : Char) : Bool := c == ' ' || c == '\n' || c == '\t' || c == '\r'

/-- The text from its first character that is no blank. -/
def skipBlanks (input : Text) : Text := input.dropWhile isJsonBlank

/-! ## Strings -/

/-- What one character or escape contributes to a string. -/
inductive StringUnit where
  | char (c : Char)
  /-- a UTF-16 code unit -/
  | unit (code : Nat)

/-- The code unit of four hexadecimal digits. -/
def hexUnit? (a b c d : Char) : Option Nat :=
  Hex.value? [a, b, c, d]

/-- The character that a letter behind a backslash stands for. -/
def shortEscape? (c : Char) : Option Char :=
  match c with
  | '"' => some '"'
  | '\\' => some '\\'
  | '/' => some '/'
  | 'b' => some '\x08'
  | 'f' => some '\x0c'
  | 'n' => some '\n'
  | 'r' => some '\r'
  | 't' => some '\t'
  | _ => none

/-- The units of a string up to its closing quote, and the text behind that. -/
def readUnits : Text → Option (List StringUnit × Text)
  | [] => none
  | '"' :: rest => some ([], rest)
  | '\\' :: 'u' :: a :: b :: c :: d :: rest =>
    match hexUnit? a b c d, readUnits rest with
    | some code, some (units, rest) => some (.unit code :: units, rest)
    | _, _ => none
  | '\\' :: c :: rest =>
    match shortEscape? c, readUnits rest with
    | some c, some (units, rest) => some (.char c :: units, rest)
    | _, _ => none
  | c :: rest =>
    if c.toNat < 0x20 ∨ c = '\\' then none
    else
      match readUnits rest with
      | some (units, rest) => some (.char c :: units, rest)
      | none => none

/-- The code unit is the first half of a pair. -/
def isHighSurrogate (code : Nat) : Bool := 0xD800 ≤ code && code ≤ 0xDBFF

/-- The code unit is the second half of a pair. -/
def isLowSurrogate (code : Nat) : Bool := 0xDC00 ≤ code && code ≤ 0xDFFF

/-- The characters of the units; nothing when half of a pair stands alone. -/
def joinUnits : List StringUnit → Option Text
  | [] => some []
  | .char c :: rest => (joinUnits rest).map (c :: ·)
  | .unit high :: .unit low :: rest =>
    if isHighSurrogate high then
      if isLowSurrogate low then
        let c := Char.ofNat (0x10000 + (high - 0xD800) * 0x400 + (low - 0xDC00))
        (joinUnits rest).map (c :: ·)
      else none
    else if isLowSurrogate high then none
    else (joinUnits (.unit low :: rest)).map (Char.ofNat high :: ·)
  | .unit code :: rest =>
    if isHighSurrogate code || isLowSurrogate code then none
    else (joinUnits rest).map (Char.ofNat code :: ·)

/-- The content of a string behind its opening quote, and the text behind its
closing quote. -/
def readString (input : Text) : Option (Option Text × Text) :=
  (readUnits input).map fun (units, rest) => (joinUnits units, rest)

/-- An escape stands in the string behind this opening quote. -/
def hasEscape (input : Text) : Bool := (input.takeWhile (· != '"')).contains '\\'

/-- The key behind its opening quote, and the text behind its closing quote. -/
def readKey (input : Text) : Option (JsonKey × Text) :=
  (readString input).map fun (content, rest) => (⟨content, hasEscape input⟩, rest)

/-! ## Numbers -/

/-- One or more digits. -/
def readDigits (input : Text) : Option (Text × Text) :=
  let digits := input.takeWhile Char.isDigit
  if digits.isEmpty then none else some (digits, input.dropWhile Char.isDigit)

/-- A fraction, if the text begins with a point. -/
def readFraction : Text → Option (Text × Text)
  | '.' :: rest => (readDigits rest).map fun (digits, rest) => ('.' :: digits, rest)
  | rest => some ([], rest)

/-- An exponent, if the text begins with its mark. -/
def readExponent (input : Text) : Option (Text × Text) :=
  match input with
  | mark :: rest =>
    if mark = 'e' ∨ mark = 'E' then
      match rest with
      | '+' :: rest => (readDigits rest).map fun (digits, rest) => (mark :: '+' :: digits, rest)
      | '-' :: rest => (readDigits rest).map fun (digits, rest) => (mark :: '-' :: digits, rest)
      | rest => (readDigits rest).map fun (digits, rest) => (mark :: digits, rest)
    else some ([], input)
  | [] => some ([], [])

/-- The literal of a number without its sign.  A leading zero stands alone. -/
def readUnsigned (input : Text) : Option (Text × Text) :=
  match readDigits input with
  | none => none
  | some ('0' :: _ :: _, _) => none
  | some (whole, rest) =>
    match readFraction rest with
    | none => none
    | some (fraction, rest) =>
      (readExponent rest).map fun (exponent, rest) => (whole ++ fraction ++ exponent, rest)

/-- The literal of a number. -/
def readNumber : Text → Option (Text × Text)
  | '-' :: rest => (readUnsigned rest).map fun (literal, rest) => ('-' :: literal, rest)
  | input => readUnsigned input

/-! ## Documents -/

mutual

/-- A value, and the text behind it.  The fuel is spent one unit per token. -/
def readValue : (fuel : Nat) → Text → Option (Json × Text)
  | 0, _ => none
  | fuel + 1, input =>
    match skipBlanks input with
    | 'n' :: 'u' :: 'l' :: 'l' :: rest => some (.null, rest)
    | 't' :: 'r' :: 'u' :: 'e' :: rest => some (.bool true, rest)
    | 'f' :: 'a' :: 'l' :: 's' :: 'e' :: rest => some (.bool false, rest)
    | '"' :: rest => (readString rest).map fun (content, rest) => (.string content, rest)
    | '[' :: rest =>
      match skipBlanks rest with
      | ']' :: rest => some (.array [], rest)
      | rest => (readItems fuel rest).map fun (items, rest) => (.array items, rest)
    | '\x7b' :: rest =>
      match skipBlanks rest with
      | '\x7d' :: rest => some (.object [], rest)
      | rest => (readEntries fuel rest).map fun (entries, rest) => (.object entries, rest)
    | input => (readNumber input).map fun (literal, rest) => (.number literal, rest)

/-- One or more items up to the closing bracket. -/
def readItems : (fuel : Nat) → Text → Option (List Json × Text)
  | 0, _ => none
  | fuel + 1, input =>
    match readValue fuel input with
    | none => none
    | some (item, rest) =>
      match skipBlanks rest with
      | ']' :: rest => some ([item], rest)
      | ',' :: rest => (readItems fuel rest).map fun (items, rest) => (item :: items, rest)
      | _ => none

/-- One or more entries up to the closing brace. -/
def readEntries : (fuel : Nat) → Text → Option (List (JsonKey × Json) × Text)
  | 0, _ => none
  | fuel + 1, input =>
    match skipBlanks input with
    | '"' :: rest =>
      match readKey rest with
      | none => none
      | some (key, rest) =>
        match skipBlanks rest with
        | ':' :: rest =>
          match readValue fuel rest with
          | none => none
          | some (v, rest) =>
            match skipBlanks rest with
            | '\x7d' :: rest => some ([(key, v)], rest)
            | ',' :: rest =>
              (readEntries fuel rest).map fun (entries, rest) => ((key, v) :: entries, rest)
            | _ => none
        | _ => none
    | _ => none

end

/-- The document that the whole text denotes. -/
def parse (input : Text) : Option Json :=
  match readValue (input.length + 1) input with
  | some (document, rest) => if (skipBlanks rest).isEmpty then some document else none
  | none => none

end Json

end ResultSet
