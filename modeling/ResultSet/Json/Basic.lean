import ResultSet.Number.Digits

/-!
# JSON values

`Json` is a JSON document as it is written: numbers keep their literal, objects
keep the order of their entries and may repeat a key, and a key tells whether it
was written with an escape.  `Json.render` writes a document without blanks.
-/

namespace ResultSet

/-- The key of an entry. -/
structure JsonKey where
  /-- the text of the key, nothing when an escape in it names half of a surrogate
  pair -/
  content : Option Text
  /-- an escape stands in the key as it is written -/
  escaped : Bool
deriving DecidableEq

/-- The key with a text that is written as it is. -/
def JsonKey.plain (content : Text) : JsonKey := ⟨some content, false⟩

/-- A JSON document. -/
inductive Json where
  | null
  | bool (v : Bool)
  /-- a number, kept as its literal -/
  | number (literal : Text)
  /-- a string; without content when an escape in it names half of a surrogate
  pair -/
  | string (content : Option Text)
  | array (items : List Json)
  | object (entries : List (JsonKey × Json))

namespace Json

/-- A string with a content. -/
def text (content : Text) : Json := .string (some content)

/-- An integer. -/
def int (v : Int) : Json := .number (Digits.ofInt v)

/-- A byte string is written as the list of its bytes. -/
def bytes (v : Bytes) : Json := .array (v.map fun b => int b.toNat)

/-- An object with the keys in this order. -/
def record (entries : List (String × Json)) : Json :=
  .object (entries.map fun (key, v) => (JsonKey.plain key.toList, v))

/-- A case with a payload: an object whose only key names the case. -/
def tagged (name : String) (payload : Json) : Json := record [(name, payload)]

/-- A case without a payload: the name as a string. -/
def case (name : String) : Json := text name.toList

/-! ## Rendering -/

/-- The hexadecimal digit of a number below 16. -/
def hexDigit (n : Nat) : Char := Nat.digitChar n

/-- How a character stands inside a string. -/
def escape (c : Char) : Text :=
  if c = '"' then ['\\', '"']
  else if c = '\\' then ['\\', '\\']
  else if c = '\n' then ['\\', 'n']
  else if c = '\r' then ['\\', 'r']
  else if c = '\t' then ['\\', 't']
  else if c = '\x08' then ['\\', 'b']
  else if c = '\x0c' then ['\\', 'f']
  else if c.toNat < 0x20 then
    ['\\', 'u', '0', '0', hexDigit (c.toNat / 16), hexDigit (c.toNat % 16)]
  else [c]

/-- A string in quotes. -/
def quoted (content : Text) : Text := '"' :: (content.flatMap escape ++ ['"'])

mutual

/-- The document without blanks. -/
def render : Json → Text
  | .null => "null".toList
  | .bool v => (if v then "true" else "false").toList
  | .number literal => literal
  | .string content => quoted (content.getD [])
  | .array items => '[' :: (renderItems items ++ [']'])
  | .object entries => '\x7b' :: (renderEntries entries ++ ['\x7d'])

/-- The items with commas between them. -/
def renderItems : List Json → Text
  | [] => []
  | [item] => render item
  | item :: next :: items => render item ++ [','] ++ renderItems (next :: items)

/-- The entries with commas between them. -/
def renderEntries : List (JsonKey × Json) → Text
  | [] => []
  | [(key, v)] => quoted (key.content.getD []) ++ [':'] ++ render v
  | (key, v) :: next :: entries =>
    quoted (key.content.getD []) ++ [':'] ++ render v ++ [','] ++ renderEntries (next :: entries)

end

end Json

end ResultSet
