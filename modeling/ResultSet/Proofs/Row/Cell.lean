import ResultSet.Proofs.Row.LengthPrefix
import ResultSet.Row.Buffer
import ResultSet.Row.Reader

/-!
# Cells

`encodeCell` gives the bytes of one value in a row, and `encodeCells` those of a row
of values.  A cell is what `RowBuffer.push` appends and what `readCell` takes away
again.

* `RowBuffer.push_eq` is the whole of a push: the cell is appended if the row
  stays within its limit, and otherwise the size that it would have is reported.
* `readCell_encodeCell` reads one cell back, whatever stands behind it.
* `decodeCells_encodeCells` reads a row of cells back in front of any others, and
  `decodeRow_encodeCells_of_fits` a whole row.
-/

namespace ResultSet

/-- The bytes of a value in a row: a null is one byte, every other value stands
behind its length. -/
def encodeCell : Option Bytes → Bytes
  | none => [LengthPrefix.nullMark]
  | some value => LengthPrefix.encode value.length ++ value

/-- The bytes of a row: the cells of its values, one behind the other. -/
def encodeCells (values : List (Option Bytes)) : Bytes := values.flatMap encodeCell

@[simp] theorem encodeCells_nil : encodeCells [] = [] := rfl

@[simp] theorem encodeCells_cons (value : Option Bytes) (values : List (Option Bytes)) :
    encodeCells (value :: values) = encodeCell value ++ encodeCells values := rfl

theorem encodeCells_append (values others : List (Option Bytes)) :
    encodeCells (values ++ others) = encodeCells values ++ encodeCells others :=
  List.flatMap_append

/-- A value is short enough to lie in memory. -/
def FitsMemory (value : Option Bytes) : Prop := ∀ bytes ∈ value, bytes.length < 2 ^ (62 : Nat)

/-- The length of a value can be announced. -/
def FitsPrefix (value : Option Bytes) : Prop := ∀ bytes ∈ value, bytes.length < 2 ^ (64 : Nat)

theorem FitsMemory.fitsPrefix {value : Option Bytes} (h : FitsMemory value) : FitsPrefix value :=
  fun bytes hbytes => Nat.lt_trans (h bytes hbytes) (by decide)

/-! ## The size of a cell -/

@[simp] theorem encodeCell_some_length (value : Bytes) :
    (encodeCell (some value)).length = LengthPrefix.size value.length + value.length := by
  rw [encodeCell, List.length_append, LengthPrefix.encode_length]

/-- Every cell takes a byte, so a row has no more cells than bytes. -/
theorem encodeCell_length_pos (value : Option Bytes) : 0 < (encodeCell value).length := by
  cases value with
  | none => exact Nat.one_pos
  | some value =>
    have hprefix := LengthPrefix.size_pos value.length
    rw [encodeCell_some_length]
    omega

/-- A cell of a row is no longer than the row. -/
theorem encodeCell_length_le_of_mem {value : Option Bytes} {values : List (Option Bytes)}
    (h : value ∈ values) : (encodeCell value).length ≤ (encodeCells values).length :=
  (List.sublist_flatten_of_mem (List.mem_map_of_mem h)).length_le

/-- The values of a row in memory can be announced. -/
theorem fitsPrefix_of_encodeCells {values : List (Option Bytes)}
    (h : (encodeCells values).length < 2 ^ (64 : Nat)) : ∀ value ∈ values, FitsPrefix value := by
  intro value hvalue bytes hbytes
  cases Option.mem_def.1 hbytes
  have hlength := encodeCell_length_le_of_mem hvalue
  rw [encodeCell_some_length] at hlength
  omega

/-! ## Writing a cell -/

@[simp] theorem RowBuffer.reset_bytes (b : RowBuffer) : (RowEncoder.reset b).bytes = [] := rfl

@[simp] theorem RowBuffer.reset_limit (b : RowBuffer) : (RowEncoder.reset b).limit = b.limit := rfl

/-- A push appends the cell of its value, or reports the size that the row would
have with it. -/
theorem RowBuffer.push_eq (b : RowBuffer) (v : WireValue) :
    RowBuffer.push v b =
      if b.bytes.length + (encodeCell v.text).length ≤ b.limit then
        .ok ⟨b.bytes ++ encodeCell v.text, b.limit⟩
      else .error (.tooLarge (b.bytes.length + (encodeCell v.text).length) b.limit) := by
  unfold RowBuffer.push
  cases v.text with
  | none => rfl
  | some value =>
    rw [encodeCell_some_length]
    rfl

/-! ## Reading a cell -/

/-- A cell is read back, whatever stands behind it. -/
theorem readCell_encodeCell (offset : Nat) (value : Option Bytes) (rest : Bytes)
    (h : FitsPrefix value) :
    readCell offset (encodeCell value ++ rest) = .ok (value, (encodeCell value).length) := by
  cases value with
  | none => rfl
  | some value =>
    have hread := LengthPrefix.read_encode offset value.length (value ++ rest) (h value rfl)
    have hdrop : (LengthPrefix.encode value.length ++ (value ++ rest)).drop
        (LengthPrefix.size value.length) = value ++ rest := by
      rw [← LengthPrefix.encode_length, List.drop_left]
    have htake : (value ++ rest).take value.length = value := List.take_left
    rw [encodeCell_some_length]
    unfold readCell
    rw [encodeCell, List.append_assoc, hread]
    simp only [hdrop, htake, if_true]

/-- The walk over a row goes on behind a cell that could be read. -/
theorem decodeCells_of_readCell {offset size : Nat} {row : Bytes} {value : Option Bytes}
    (hread : readCell offset row = .ok (value, size)) (hsize : 0 < size) (hrow : row ≠ []) :
    decodeCells offset row =
      (decodeCells (offset + size) (row.drop size)).map fun values => value :: values := by
  obtain ⟨first, rest, rfl⟩ := List.exists_cons_of_ne_nil hrow
  have hdrop : (first :: rest).drop size = rest.drop (size - 1) := by
    rw [List.drop_cons hsize]
  rw [decodeCells, hread, hdrop]
  dsimp only
  cases decodeCells (offset + size) (rest.drop (size - 1)) <;> rfl

/-- Cells are read back in front of any others. -/
theorem decodeCells_encodeCells (offset : Nat) (values : List (Option Bytes)) (rest : Bytes)
    (h : ∀ value ∈ values, FitsPrefix value) :
    decodeCells offset (encodeCells values ++ rest) =
      (decodeCells (offset + (encodeCells values).length) rest).map
        fun others => values ++ others := by
  induction values generalizing offset with
  | nil =>
    show decodeCells offset rest = (decodeCells offset rest).map id
    cases decodeCells offset rest <;> rfl
  | cons value values ih =>
    have hfirst : FitsPrefix value := h value List.mem_cons_self
    have hpos := encodeCell_length_pos value
    have hrow : encodeCell value ++ (encodeCells values ++ rest) ≠ [] := by
      intro hnil
      rw [(List.append_eq_nil_iff.1 hnil).1] at hpos
      exact absurd hpos (Nat.lt_irrefl 0)
    rw [encodeCells_cons, List.append_assoc,
      decodeCells_of_readCell (readCell_encodeCell offset value _ hfirst) hpos hrow,
      List.drop_left, ih _ fun value hvalue => h value (List.mem_cons_of_mem _ hvalue),
      List.length_append, Nat.add_assoc]
    cases decodeCells _ rest <;> rfl

/-- A row is read back from the cells of its values. -/
theorem decodeRow_encodeCells_of_fits {values : List (Option Bytes)}
    (h : ∀ value ∈ values, FitsPrefix value) : decodeRow (encodeCells values) = .ok values := by
  have hcells := decodeCells_encodeCells 0 values [] h
  rw [List.append_nil, decodeCells] at hcells
  rw [decodeRow, hcells]
  show Except.ok (values ++ []) = Except.ok values
  rw [List.append_nil]

theorem decodeRow_encodeCells (values : List (Option Bytes))
    (h : ∀ value ∈ values, FitsMemory value) :
    decodeRow (encodeCells values) = .ok values :=
  decodeRow_encodeCells_of_fits fun value hvalue => (h value hvalue).fitsPrefix

/-- A row is read back if it lies in memory. -/
theorem decodeRow_encodeCells_of_length {values : List (Option Bytes)}
    (h : (encodeCells values).length < 2 ^ (62 : Nat)) :
    decodeRow (encodeCells values) = .ok values :=
  decodeRow_encodeCells_of_fits (fitsPrefix_of_encodeCells (Nat.lt_trans h (by decide)))

end ResultSet
