import ResultSet.Proofs.Row.Canonical

/-!
# Rows put together and cut off

A row is assembled from pieces that are encoded on their own, and it may arrive cut off.

* `IllFormed.moved` and `decodeCells_moved`: where a row stands decides nothing but the offset of
  its error.
* `decodeRow_append`: a piece behind a row that can be read is read as it would be alone.
* `Parses.take_cases`: the first bytes of a row are its first cells, or they end in ill-formed
  bytes.  No cell is the beginning of another one, so there is no third case.
* `decodeRow_take_encodeCells` and `decodeRow_take_inside` are what this means for a row that was
  written, and `decodeRow_compatible` has both.
-/

namespace ResultSet

/-! ## Moved rows -/

/-- The error of a row that stands `distance` bytes further on. -/
def RowError.moved (distance : Nat) : RowError → RowError
  | .truncated offset => .truncated (distance + offset)
  | .invalidLength mark offset => .invalidLength mark (distance + offset)
  | e => e

theorem IllFormed.moved {offset : Nat} {rest : Bytes} {e : RowError} (h : IllFormed offset rest e)
    (distance : Nat) : IllFormed (distance + offset) rest (e.moved distance) := by
  cases h with
  | invalid others => exact .invalid others
  | truncated hrest hmore hcell =>
    rw [RowError.moved, ← Nat.add_assoc]
    exact .truncated hrest hmore hcell

/-- A row is read in the same way wherever it stands. -/
theorem decodeCells_moved (distance : Nat) (row : Bytes) :
    decodeCells distance row =
      match decodeRow row with
      | .ok values => .ok values
      | .error e => .error (e.moved distance) := by
  obtain ⟨cells, front, rest, rfl, hparse, hrest⟩ := exists_parse 0 row
  rw [decodeCells_of_parses hparse]
  obtain rfl | ⟨e, hill⟩ := hrest
  · rw [List.append_nil, decodeRow_of_parses hparse, decodeCells]
    show Except.ok (cells.map Prod.fst ++ []) = _
    rw [List.append_nil]
  · rw [Nat.zero_add] at hill
    rw [decodeRow_of_illFormed hparse hill, decodeCells_of_illFormed (hill.moved distance)]
    rfl

/-- Behind a row that can be read, a piece is read as it would be alone. -/
theorem decodeRow_append {front : Bytes} {values : List (Option Bytes)}
    (h : decodeRow front = .ok values) (back : Bytes) :
    decodeRow (front ++ back) =
      match decodeRow back with
      | .ok others => .ok (values ++ others)
      | .error e => .error (e.moved front.length) := by
  obtain ⟨cells, hparse, rfl⟩ := decodeRow_eq_ok_iff.1 h
  rw [decodeRow, decodeCells_of_parses hparse, Nat.zero_add, decodeCells_moved]
  cases decodeRow back <;> rfl

/-! ## Cut rows -/

/-- The first bytes of a row are its first cells, or the cut is inside a cell. -/
theorem Parses.take_cases {cells : List (Option Bytes × Bytes)} {row : Bytes}
    (h : Parses cells row) {size : Nat} (hsize : size ≤ row.length) :
    (∃ count ≤ cells.length, Parses (cells.take count) (row.take size)) ∨
      ∃ others front rest, row.take size = front ++ rest ∧ Parses others front ∧
        IllFormed front.length rest (.truncated size) := by
  induction cells generalizing row size with
  | nil =>
    obtain rfl : [] = row := h.bytes
    rw [List.take_nil]
    exact .inl ⟨0, Nat.le_refl 0, .nil⟩
  | cons first cells ih =>
    obtain ⟨value, cell⟩ := first
    obtain ⟨hcell, hcells, rfl⟩ := h.of_cons
    rw [List.length_append] at hsize
    by_cases hzero : size = 0
    · exact .inl ⟨0, Nat.zero_le _, by rw [hzero]; exact .nil⟩
    by_cases hinside : size < cell.length
    · -- the bytes behind the cut complete the cell
      have hcut : IsCell value (cell.take size ++ cell.drop size) := by
        rwa [List.take_append_drop]
      have hfront : cell.take size ≠ [] := by
        rw [Ne, List.take_eq_nil_iff, not_or]
        exact ⟨hzero, List.ne_nil_of_length_pos hcell.length_pos⟩
      have hbehind : cell.drop size ≠ [] := by
        rw [Ne, List.drop_eq_nil_iff]
        exact Nat.not_le.2 hinside
      have hill : IllFormed 0 (cell.take size) (.truncated (0 + (cell.take size).length)) :=
        .truncated hfront hbehind hcut
      rw [List.length_take_of_le (Nat.le_of_lt hinside), Nat.zero_add] at hill
      rw [List.take_append_of_le_length (Nat.le_of_lt hinside)]
      exact .inr ⟨[], [], cell.take size, rfl, .nil, hill⟩
    · obtain ⟨behind, rfl⟩ := Nat.exists_eq_add_of_le (Nat.le_of_not_lt hinside)
      have htake : (cell ++ cells.flatMap Prod.snd).take (cell.length + behind) =
          cell ++ (cells.flatMap Prod.snd).take behind := List.take_length_add_append behind
      rw [htake]
      have hbehind : behind ≤ (cells.flatMap Prod.snd).length := by omega
      obtain ⟨count, hcount, hparse⟩ | ⟨others, front, rest, hrest, hparse, hill⟩ :=
        ih hcells hbehind
      · exact .inl ⟨count + 1, Nat.succ_le_succ hcount,
          (Parses.singleton hcell).append hparse⟩
      · refine .inr ⟨_, cell ++ front, rest, ?_, (Parses.singleton hcell).append hparse, ?_⟩
        · rw [hrest, List.append_assoc]
        · rw [List.length_append]
          exact hill.moved cell.length

/-! ## Rows that were written -/

/-- The row of the first values is the beginning of the row of all. -/
theorem take_encodeCells (values : List (Option Bytes)) (count : Nat) :
    (encodeCells values).take (encodeCells (values.take count)).length =
      encodeCells (values.take count) := by
  have hsplit : encodeCells values =
      encodeCells (values.take count) ++ encodeCells (values.drop count) := by
    rw [← encodeCells_append, List.take_append_drop]
  rw [hsplit, List.take_left]

/-- Behind its first values a row is cut into whole cells. -/
theorem decodeRow_take_encodeCells {values : List (Option Bytes)}
    (h : ∀ value ∈ values, FitsPrefix value) (count : Nat) :
    decodeRow ((encodeCells values).take (encodeCells (values.take count)).length) =
      .ok (values.take count) := by
  rw [take_encodeCells]
  exact decodeRow_encodeCells_of_fits fun value hvalue => h value (List.mem_of_mem_take hvalue)

/-- A cut anywhere else is reported. -/
theorem decodeRow_take_inside {values : List (Option Bytes)}
    (h : ∀ value ∈ values, FitsPrefix value) {size : Nat} (hsize : size ≤ (encodeCells values).length)
    (hinside : ∀ count ≤ values.length, (encodeCells (values.take count)).length ≠ size) :
    decodeRow ((encodeCells values).take size) = .error (.truncated size) := by
  obtain ⟨count, hcount, hparse⟩ | ⟨others, front, rest, hrest, hparse, hill⟩ :=
    (parses_encodeCells h).take_cases hsize
  · rw [List.length_map] at hcount
    have hcells := hparse.bytes
    rw [← List.map_take, List.flatMap_map] at hcells
    refine absurd ?_ (hinside count hcount)
    rw [encodeCells, hcells]
    exact List.length_take_of_le hsize
  · rw [hrest]
    exact decodeRow_of_illFormed hparse hill

/-- Behind a row that can be read, a piece is read as it would be alone, with its values behind
those of the row, or with the offset of its error counted from the beginning of the row.  A row
in memory that was written, cut behind one of its values, is read as the values up to it; cut
anywhere else, it is refused and the cut is reported. -/
theorem decodeRow_compatible :
    (∀ front values, decodeRow front = .ok values → ∀ back, decodeRow (front ++ back) =
      match decodeRow back with
      | .ok others => .ok (values ++ others)
      | .error e => .error (e.moved front.length)) ∧
    ∀ limit values row, (RowBuffer.empty limit).pushAll values = .ok row →
      row.bytes.length < 2 ^ (64 : Nat) → ∀ size ≤ row.bytes.length,
        (∀ count ≤ values.length, ∃ part,
          (RowBuffer.empty limit).pushAll (values.take count) = .ok part ∧
          (part.bytes.length = size →
            decodeRow (row.bytes.take size) = .ok ((values.take count).map WireValue.text))) ∧
        ((∀ count ≤ values.length, ∀ part,
            (RowBuffer.empty limit).pushAll (values.take count) = .ok part →
            part.bytes.length ≠ size) →
          decodeRow (row.bytes.take size) = .error (.truncated size)) := by
  refine ⟨fun front values h back => decodeRow_append h back,
    fun limit values row hpush hmemory size hsize => ?_⟩
  obtain ⟨hlimit, rfl⟩ := RowBuffer.pushAll_empty.1 hpush
  dsimp only at hmemory hsize ⊢
  have hfits := fitsPrefix_of_encodeCells hmemory
  have hpart (count : Nat) : (RowBuffer.empty limit).pushAll (values.take count) =
      .ok ⟨encodeCells ((values.map WireValue.text).take count), limit⟩ := by
    rw [RowBuffer.pushAll_empty, List.map_take]
    refine ⟨Nat.le_trans ?_ hlimit, rfl⟩
    rw [← take_encodeCells, List.length_take]
    exact Nat.min_le_right ..
  refine ⟨fun count _ => ⟨_, hpart count, ?_⟩, fun hinside => ?_⟩
  · rintro rfl
    rw [List.map_take]
    exact decodeRow_take_encodeCells hfits count
  · refine decodeRow_take_inside hfits hsize fun count hcount => ?_
    rw [List.length_map] at hcount
    exact hinside count hcount _ (hpart count)

/-- A value whose bytes look like marks, a null, and a value with a length of two bytes.  The row
breaks off inside the first value, behind the null, and inside the length of the last value.  Behind
a row that can be read, an ill-formed piece is reported where it stands. -/
theorem decodeRow_compatible_marks :
    let values : List WireValue := [.bytes [0xFB, 0xFE], .null, .bytes (List.replicate 251 0xFF)]
    (∃ row, (RowBuffer.empty 300).pushAll values = .ok row ∧ row.bytes.length = 258 ∧
      decodeRow (row.bytes.take 2) = .error (.truncated 2) ∧
      decodeRow (row.bytes.take 4) = .ok [some [0xFB, 0xFE], none] ∧
      decodeRow (row.bytes.take 6) = .error (.truncated 6)) ∧
      decodeRow [0xFB] = .ok [none] ∧
      decodeRow ([0xFB] ++ [0, 0xFF]) = .error (.invalidLength 0xFF 2) := by
  intro values
  have hends : ∀ count ≤ 3, (encodeCells ((values.take count).map WireValue.text)).length ∈
      [0, 3, 4, 258] := by decide +kernel
  have hpush : (RowBuffer.empty 300).pushAll values =
      .ok ⟨encodeCells (values.map WireValue.text), 300⟩ :=
    RowBuffer.pushAll_empty.2 ⟨by decide +kernel, rfl⟩
  have hlength : (encodeCells (values.map WireValue.text)).length = 258 := by decide +kernel
  obtain ⟨happend, hcut⟩ := decodeRow_compatible
  have hrow := hcut 300 values _ hpush (by rw [hlength]; decide)
  dsimp only at hrow
  rw [hlength] at hrow
  have hinside (size : Nat) (hsize : size ∉ [0, 3, 4, 258]) :
      ∀ count ≤ 3, ∀ part, (RowBuffer.empty 300).pushAll (values.take count) = .ok part →
        part.bytes.length ≠ size := by
    intro count hcount part hpart hend
    rw [(RowBuffer.pushAll_empty.1 hpart).2] at hend
    exact hsize (hend ▸ hends count hcount)
  have hnull : decodeRow [0xFB] = .ok [none] := by cbv
  refine ⟨⟨_, hpush, hlength, ?_, ?_, ?_⟩, hnull, ?_⟩
  · exact (hrow 2 (by decide)).2 (hinside 2 (by decide))
  · obtain ⟨part, hpart, hread⟩ := (hrow 4 (by decide)).1 2 (by decide)
    refine hread ?_
    rw [(RowBuffer.pushAll_empty.1 hpart).2]
    rfl
  · exact (hrow 6 (by decide)).2 (hinside 6 (by decide))
  · rw [happend [0xFB] [none] hnull [0, 0xFF]]
    cbv

end ResultSet
