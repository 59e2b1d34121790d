import ResultSet.Row.Error

/-!
# Length prefixes

A value in a row stands behind its length.  A length up to 250 is one byte;
longer ones are a mark and two, three or eight bytes, least significant first.
The byte `0xFB` stands for a null and has no value behind it.

`LengthPrefix.encode` writes the shortest form.  `LengthPrefix.read` accepts any
form.
-/

namespace ResultSet

/-- The bytes of a number, least significant first. -/
def littleEndian : (width n : Nat) → Bytes
  | 0, _ => []
  | width + 1, n => UInt8.ofNat (n % 256) :: littleEndian width (n / 256)

/-- The number that bytes stand for, least significant first. -/
def ofLittleEndian : Bytes → Nat
  | [] => 0
  | b :: bytes => b.toNat + 256 * ofLittleEndian bytes

namespace LengthPrefix

/-- The byte that stands for a null. -/
def nullMark : UInt8 := 0xFB

/-- The mark in front of a length of two bytes. -/
def twoByteMark : UInt8 := 0xFC

/-- The mark in front of a length of three bytes. -/
def threeByteMark : UInt8 := 0xFD

/-- The mark in front of a length of eight bytes. -/
def eightByteMark : UInt8 := 0xFE

/-- Bytes that the prefix of a value takes. -/
def size (length : Nat) : Nat :=
  if length ≤ 250 then 1
  else if length ≤ 0xFFFF then 3
  else if length ≤ 0xFFFFFF then 4
  else 9

/-- The shortest prefix of a length. -/
def encode (length : Nat) : Bytes :=
  if length ≤ 250 then [UInt8.ofNat length]
  else if length ≤ 0xFFFF then twoByteMark :: littleEndian 2 length
  else if length ≤ 0xFFFFFF then threeByteMark :: littleEndian 3 length
  else eightByteMark :: littleEndian 8 length

/-- What the first byte of a cell says. -/
inductive Mark where
  | null
  /-- the length itself -/
  | short (length : Nat)
  /-- the number of bytes of the length that follows -/
  | long (width : Nat)
  | invalid
deriving DecidableEq

/-- Reads the first byte of a cell. -/
def mark (b : UInt8) : Mark :=
  if b.toNat ≤ 250 then .short b.toNat
  else if b = nullMark then .null
  else if b = twoByteMark then .long 2
  else if b = threeByteMark then .long 3
  else if b = eightByteMark then .long 8
  else .invalid

/-- The length of the value at the beginning of `rest` and the size of its prefix,
nothing for a null.  `offset` is the number of bytes in front of `rest`. -/
def read (offset : Nat) (rest : Bytes) : Except RowError (Option (Nat × Nat)) :=
  match rest with
  | [] => .error (.truncated offset)
  | b :: rest =>
    match mark b with
    | .null => .ok none
    | .short length => .ok (some (length, 1))
    | .long width =>
      let digits := rest.take width
      if digits.length = width then .ok (some (ofLittleEndian digits, 1 + width))
      else .error (.truncated (offset + 1 + rest.length))
    | .invalid => .error (.invalidLength b offset)

end LengthPrefix

end ResultSet
