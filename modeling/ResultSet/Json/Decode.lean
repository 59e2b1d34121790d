import ResultSet.Json.Number
import ResultSet.Json.Read

/-!
# Decoding JSON

A decoder turns a document into a value or refuses it.

* A record is an object with each of its keys once, other keys being ignored, or
  the list of its values in order.
* A case without a payload is a string, or an object with `null` under its name.
  A case with a payload is an object with the payload under its name.
* Every array and object that is looked into takes one level of depth.
-/

namespace ResultSet

namespace Json

/-- Reads a value out of a document nested at most so deep. -/
abbrev Decoder (α : Type) := (depth : Nat) → Json → Option α

/-- The number of levels that a document may be nested. -/
def maxDepth : Nat := 127

/-- Reads the value that a text denotes. -/
def decodeText {α : Type} (decoder : Decoder α) (input : Text) : Option α :=
  (parse input).bind (decoder maxDepth)

/-! ## Scalars -/

/-- A signed integer of at most 64 bits. -/
def decodeSigned (bits : Nat) : Decoder (Signed bits) := fun _ document =>
  match document with
  | .number literal => (wordInt? literal).bind (Signed.ofInt? bits)
  | _ => none

/-- An unsigned integer of at most 64 bits. -/
def decodeUnsigned (bits : Nat) : Decoder (Unsigned bits) := fun _ document =>
  match document with
  | .number literal => (wordInt? literal).bind (Unsigned.ofInt? bits)
  | _ => none

/-- A signed integer of 128 bits. -/
def decodeSigned128 : Decoder (Signed 128) := fun _ document =>
  match document with
  | .number literal => (exactInt? literal).bind (Signed.ofInt? 128)
  | _ => none

/-- An unsigned integer of 128 bits, without a minus sign even for zero. -/
def decodeUnsigned128 : Decoder (Unsigned 128) := fun _ document =>
  match document with
  | .number literal =>
    if literal.head? = some '-' then none
    else (exactInt? literal).bind (Unsigned.ofInt? 128)
  | _ => none

/-- A double; an integer will do. -/
def decodeDouble : Decoder Binary64 := fun _ document =>
  match document with
  | .number literal => double? literal
  | _ => none

/-- A truth value. -/
def decodeBool : Decoder Bool := fun _ document =>
  match document with
  | .bool v => some v
  | _ => none

/-- A string. -/
def decodeString : Decoder Text := fun _ document =>
  match document with
  | .string content => content
  | _ => none

/-! ## Lists, records and cases -/

/-- The items of an array, one level deeper. -/
def items? (depth : Nat) (document : Json) : Option (Nat × List Json) :=
  match depth, document with
  | depth + 1, .array items => some (depth, items)
  | _, _ => none

/-- A list of values. -/
def decodeList {α : Type} (decoder : Decoder α) : Decoder (List α) := fun depth document =>
  match items? depth document with
  | some (depth, items) => items.mapM (decoder depth)
  | none => none

/-- A byte string, written as the list of its bytes. -/
def decodeBytes : Decoder Bytes := fun depth document =>
  (decodeList (decodeUnsigned 8) depth document).map fun bytes =>
    bytes.map fun b => UInt8.ofNat b.val

/-- The value under a key, nothing without the key; refused when the key stands
twice. -/
def lookup? (entries : List (JsonKey × Json)) (key : String) : Option (Option Json) :=
  match entries.filter fun entry => entry.1.content == some key.toList with
  | [] => some none
  | [entry] => some (some entry.2)
  | _ => none

/-- The values of a record in the order of its keys, one level deeper. -/
def fields? (keys : List String) (depth : Nat) (document : Json) :
    Option (Nat × List (Option Json)) :=
  match depth, document with
  | depth + 1, .object entries =>
    if entries.all fun entry => entry.1.content.isSome then
      (keys.mapM (lookup? entries)).map fun values => (depth, values)
    else none
  | depth + 1, .array items =>
    if items.length ≤ keys.length then
      some (depth, (List.range keys.length).map fun i => items[i]?)
    else none
  | _, _ => none

/-- The name of a case, and its payload one level deeper. -/
def case? (depth : Nat) (document : Json) : Option (Text × Option (Nat × Json)) :=
  match depth, document with
  | _, .string (some name) => some (name, none)
  | depth + 1, .object [(⟨some name, _⟩, payload)] => some (name, some (depth, payload))
  | _, _ => none

/-- The name of a case without a payload. -/
def decodeCase : Decoder Text := fun depth document =>
  match case? depth document with
  | some (name, none) => some name
  | some (name, some (_, .null)) => some name
  | _ => none

/-- One of some values that have a name each. -/
def decodeNamed {α : Type} (all : List α) (name : α → String) : Decoder α :=
  fun depth document =>
    (decodeCase depth document).bind fun found => all.find? fun v => (name v).toList == found

end Json

end ResultSet
