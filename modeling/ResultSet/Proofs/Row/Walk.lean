import ResultSet.Proofs.Row.Grammar

/-!
# The walk over a row

`RowReader` reads a row cell by cell.  `RowReader.after` is the reader behind a
number of calls of `next` and `RowReader.items` has what these calls gave.

* `RowReader.Reads` is the invariant: the bytes read so far are a sequence of
  cells, and a reader has failed only in front of ill-formed bytes.
* `Reads.next_cases` is the step.  A reader is at its end, or it takes one cell
  away, or it fails and stays where it is.
* `remaining` decreases with every item, so a walk ends.
* `decodeRow_grammar` puts together what a row is decoded to and how a walk gets
  there, without a read beyond the row.
-/

namespace ResultSet

/-! ## Reading a length -/

namespace LengthPrefix

/-- A length that is read fits 64 bits and its prefix lies in the row. -/
theorem read_bounds {offset length header : Nat} {rest : Bytes}
    (h : read offset rest = .ok (some (length, header))) :
    length < 2 ^ (64 : Nat) ∧ header ≤ rest.length := by
  cases rest with
  | nil => cases h
  | cons first rest =>
    obtain ⟨short, hshort, -, hmark⟩ | ⟨-, hmark⟩ | ⟨width, hform, hmark⟩ | ⟨-, hmark⟩ :=
      mark_cases first
    · simp only [read, hmark, Except.ok.injEq, Option.some.injEq, Prod.mk.injEq] at h
      rw [List.length_cons]
      omega
    · simp only [read, hmark, Except.ok.injEq, reduceCtorEq] at h
    · by_cases hdigits : (rest.take width).length = width
      · simp only [read, hmark, if_pos hdigits, Except.ok.injEq, Option.some.injEq,
          Prod.mk.injEq] at h
        obtain ⟨rfl, rfl⟩ := h
        have hlength := ofLittleEndian_lt (rest.take width)
        rw [hdigits] at hlength
        have hwidth : 256 ^ width ≤ 256 ^ 8 :=
          Nat.pow_le_pow_right (by omega) (le_of_mem_longForms hform)
        rw [List.length_take] at hdigits
        rw [List.length_cons]
        omega
      · simp only [read, hmark, if_neg hdigits, reduceCtorEq] at h
    · simp only [read, hmark, reduceCtorEq] at h

end LengthPrefix

namespace RowReader

/-! ## Calls -/

/-- The reader behind a number of calls. -/
def after (r : RowReader) : Nat → RowReader
  | 0 => r
  | calls + 1 => (r.after calls).next.2

/-- The items of a number of calls, up to the end. -/
def items (r : RowReader) : Nat → List (Except RowError (Option Bytes))
  | 0 => []
  | calls + 1 =>
    match r.next with
    | (none, _) => []
    | (some item, r) => item :: r.items calls

theorem next_of_failed {r : RowReader} (h : r.failed = true) : r.next = (none, r) := by
  rw [next, h, Bool.true_or, if_pos rfl]

/-- A reader that has failed stays as it is. -/
theorem after_of_failed {r : RowReader} (h : r.failed = true) (calls : Nat) :
    r.after calls = r := by
  induction calls with
  | zero => rfl
  | succ calls ih => rw [after, ih, next_of_failed h]

/-! ## The invariant -/

/-- The reader stands behind a sequence of cells, and in front of ill-formed bytes
if it has failed. -/
structure Reads (cells : List (Option Bytes × Bytes)) (front rest : Bytes) (r : RowReader) :
    Prop where
  row_eq : r.row = front ++ rest
  offset_eq : r.offset = front.length
  parses : Parses cells front
  illFormed : r.failed = true → ∃ e, IllFormed front.length rest e

theorem reads_start (row : Bytes) : (start row).Reads [] [] row where
  row_eq := rfl
  offset_eq := rfl
  parses := .nil
  illFormed h := by cases h

namespace Reads

variable {cells : List (Option Bytes × Bytes)} {front rest : Bytes} {r : RowReader}

/-- A reader that has not failed reads the cell in front of it. -/
theorem next_eq (h : r.Reads cells front rest) (hfailed : r.failed = false) (hrest : rest ≠ []) :
    r.next =
      match readCell r.offset rest with
      | .ok (value, size) => (some (.ok value), { r with offset := r.offset + size })
      | .error e => (some (.error e), { r with failed := true }) := by
  have hdrop : r.row.drop r.offset = rest := by
    rw [h.row_eq, h.offset_eq, List.drop_left]
  have hinside : ¬ r.row.length ≤ r.offset := by
    have hpos := List.length_pos_iff.2 hrest
    rw [h.row_eq, h.offset_eq, List.length_append]
    omega
  have hgoes : ¬ (r.failed || decide (r.row.length ≤ r.offset)) = true := by
    rw [hfailed, decide_eq_false hinside]
    exact Bool.false_ne_true
  have hnext : r.next =
      match readCell r.offset (r.row.drop r.offset) with
      | .ok (value, size) => (some (.ok value), { r with offset := r.offset + size })
      | .error e => (some (.error e), { r with failed := true }) := if_neg hgoes
  rwa [hdrop] at hnext

/-- A call at the end changes nothing, a call in front of a cell takes it away, and
a call in front of ill-formed bytes fails and stays there. -/
theorem next_cases (h : r.Reads cells front rest) :
    ((r.failed = true ∨ rest = []) ∧ r.next = (none, r)) ∨
      (∃ value cell more, r.failed = false ∧ rest = cell ++ more ∧ IsCell value cell ∧
        r.next = (some (.ok value), { r with offset := r.offset + cell.length }) ∧
        r.next.2.Reads (cells ++ [(value, cell)]) (front ++ cell) more) ∨
      (∃ e, r.failed = false ∧ IllFormed front.length rest e ∧
        r.next = (some (.error e), { r with failed := true }) ∧
        r.next.2.Reads cells front rest) := by
  obtain hfailed | hfailed := Bool.eq_false_or_eq_true r.failed
  · exact .inl ⟨.inl hfailed, next_of_failed hfailed⟩
  by_cases hrest : rest = []
  · have hend : r.row.length = r.offset := by
      rw [h.row_eq, h.offset_eq, hrest, List.append_nil]
    refine .inl ⟨.inr hrest, ?_⟩
    rw [next, decide_eq_true (Nat.le_of_eq hend), Bool.or_true, if_pos rfl]
  have hnext := h.next_eq hfailed hrest
  obtain ⟨value, cell, more, rfl, hcell⟩ | ⟨e, hill, herror⟩ := readCell_cases front.length hrest
  · rw [readCell_of_isCell hcell] at hnext
    refine .inr (.inl ⟨value, cell, more, hfailed, rfl, hcell, hnext, ?_⟩)
    rw [hnext]
    exact {
      row_eq := by rw [h.row_eq, List.append_assoc]
      offset_eq := by rw [h.offset_eq, List.length_append]
      parses := h.parses.append (.singleton hcell)
      illFormed := fun htrue => absurd (hfailed.symm.trans htrue) Bool.false_ne_true }
  · rw [← h.offset_eq] at herror
    rw [herror] at hnext
    refine .inr (.inr ⟨e, hfailed, hill, hnext, ?_⟩)
    rw [hnext]
    exact ⟨h.row_eq, h.offset_eq, h.parses, fun _ => ⟨e, hill⟩⟩

end Reads

/-- Every reader of a walk stands behind a sequence of cells. -/
theorem exists_reads_after (row : Bytes) (calls : Nat) :
    ∃ cells front rest, row = front ++ rest ∧ ((start row).after calls).Reads cells front rest := by
  induction calls with
  | zero => exact ⟨[], [], row, rfl, reads_start row⟩
  | succ calls ih =>
    obtain ⟨cells, front, rest, hrow, h⟩ := ih
    rw [after]
    obtain ⟨-, hnext⟩ | ⟨value, cell, more, -, rfl, -, -, hreads⟩ | ⟨e, -, -, -, hreads⟩ :=
      h.next_cases
    · rw [hnext]
      exact ⟨cells, front, rest, hrow, h⟩
    · exact ⟨_, _, more, by rw [hrow, List.append_assoc], hreads⟩
    · exact ⟨cells, front, rest, hrow, hreads⟩

/-! ## The end of a walk -/

/-- The bytes that a reader can still read. -/
def remaining (r : RowReader) : Nat := if r.failed then 0 else r.row.length - r.offset

/-- Every item costs a byte. -/
theorem Reads.remaining_next {cells : List (Option Bytes × Bytes)} {front rest : Bytes}
    {r : RowReader} (h : r.Reads cells front rest) :
    r.next = (none, r) ∧ r.remaining = 0 ∨ r.next.2.remaining < r.remaining := by
  have hlength : r.row.length = front.length + rest.length := by
    rw [h.row_eq, List.length_append]
  obtain ⟨hend, hnext⟩ | ⟨value, cell, more, hfailed, rfl, hcell, hnext, -⟩ |
    ⟨e, hfailed, hill, hnext, -⟩ := h.next_cases
  · refine .inl ⟨hnext, ?_⟩
    obtain hfailed | rfl := hend
    · rw [remaining, hfailed, if_pos rfl]
    · rw [remaining, hlength, h.offset_eq, List.length_nil, Nat.add_zero, Nat.sub_self, ite_self]
  · have hpos := hcell.length_pos
    have hoffset := h.offset_eq
    rw [List.length_append] at hlength
    rw [hnext]
    simp only [remaining, hfailed, Bool.false_eq_true, if_false]
    omega
  · have hpos : 0 < rest.length := by
      cases hill with
      | invalid => exact Nat.succ_pos _
      | truncated hrest => exact List.length_pos_iff.2 hrest
    have hoffset := h.offset_eq
    rw [hnext]
    simp only [remaining, hfailed, Bool.false_eq_true, if_false, if_true]
    omega

theorem remaining_after (row : Bytes) (calls : Nat) :
    ((start row).after calls).remaining ≤ row.length - calls := by
  induction calls with
  | zero => exact Nat.le_refl _
  | succ calls ih =>
    obtain ⟨cells, front, rest, -, h⟩ := exists_reads_after row calls
    rw [after]
    obtain ⟨hnext, hzero⟩ | hless := h.remaining_next
    · rw [hnext, hzero]
      exact Nat.zero_le _
    · omega

/-- A walk has no more items than the row has bytes. -/
theorem next_after_eq_none {row : Bytes} {calls : Nat} (h : row.length ≤ calls) :
    ((start row).after calls).next.1 = none := by
  obtain ⟨cells, front, rest, -, hreads⟩ := exists_reads_after row calls
  have hzero := remaining_after row calls
  obtain ⟨hnext, -⟩ | hless := hreads.remaining_next
  · rw [hnext]
  · omega

/-! ## Collecting the items -/

/-- A row is decoded by collecting the items of the rest of a walk. -/
theorem Reads.decodeCells_eq {cells : List (Option Bytes × Bytes)} {front rest : Bytes}
    {r : RowReader} (h : r.Reads cells front rest) (hfailed : r.failed = false) {calls : Nat}
    (hcalls : rest.length ≤ calls) :
    decodeCells front.length rest = (r.items calls).mapM id := by
  -- Along the calls: the reader behind an item collects what is left of the row.
  induction calls generalizing cells front rest r with
  | zero =>
    rw [List.eq_nil_of_length_eq_zero (Nat.le_zero.1 hcalls), decodeCells]
    rfl
  | succ calls ih =>
    obtain ⟨hend, hnext⟩ | ⟨value, cell, more, -, rfl, hcell, hnext, hreads⟩ |
      ⟨e, -, hill, hnext, -⟩ := h.next_cases
    · obtain hfailed' | rfl := hend
      · exact absurd (hfailed.symm.trans hfailed') Bool.false_ne_true
      · rw [decodeCells, items, hnext]
        rfl
    · have hpos := hcell.length_pos
      rw [List.length_append] at hcalls
      rw [hnext] at hreads
      have hmore := ih hreads hfailed (by omega)
      rw [List.length_append] at hmore
      rw [decodeCells_of_readCell (readCell_of_isCell hcell _ more) hpos
        (List.append_ne_nil_of_left_ne_nil (List.ne_nil_of_length_pos hpos) _), List.drop_left,
        hmore, items, hnext, List.mapM_cons]
      cases List.mapM id (items _ calls) <;> rfl
    · rw [decodeCells_of_illFormed hill, items, hnext, List.mapM_cons]
      rfl

/-! ## A call within a row -/

/-- What a call does to a reader of a row, and what it reads. -/
structure StepsWithin (row : Bytes) (r : RowReader) : Prop where
  row_eq : r.row = row
  offset_le : r.offset ≤ row.length
  /-- The end of the longest prefix is an offset of 64 bits. -/
  header_lt : r.offset + 9 < 2 ^ (64 : Nat)
  /-- A value comes from the cell between the offsets before and behind the call. -/
  on_value : ∀ value, r.next.1 = some (.ok value) →
    r.offset < r.next.2.offset ∧ r.next.2.offset ≤ row.length ∧
      IsCell value ((row.drop r.offset).take (r.next.2.offset - r.offset))
  /-- An error is the error of the row, and the walk is over. -/
  on_error : ∀ e, r.next.1 = some (.error e) →
    r.next.2.offset = r.offset ∧ IllFormed r.offset (row.drop r.offset) e ∧
      decodeRow row = .error e ∧ ∀ calls, (r.next.2.after calls).next.1 = none
  /-- Whatever length is announced, bytes are taken only if all of them are there. -/
  on_length : ∀ length header, r.failed = false →
    LengthPrefix.read r.offset (row.drop r.offset) = .ok (some (length, header)) →
    length < 2 ^ (64 : Nat) ∧ r.offset + header ≤ row.length ∧
      r.next.1 = some (
        if r.offset + header + length ≤ row.length then
          .ok (some ((row.drop (r.offset + header)).take length))
        else .error (.truncated row.length))

/-- A value is taken exactly if its end is within the row. -/
theorem next_of_read {cells : List (Option Bytes × Bytes)} {front rest : Bytes} {r : RowReader}
    (h : r.Reads cells front rest) (hfailed : r.failed = false) {length header : Nat}
    (hread : LengthPrefix.read front.length rest = .ok (some (length, header))) :
    r.next.1 = some (
      if header + length ≤ rest.length then .ok (some ((rest.drop header).take length))
      else .error (.truncated (front.length + rest.length))) := by
  have hrest : rest ≠ [] := by
    rintro rfl
    cases hread
  have hheader := (LengthPrefix.read_bounds hread).2
  have hfits : ((rest.drop header).take length).length = length ↔
      header + length ≤ rest.length := by
    rw [List.length_take, List.length_drop]
    omega
  rw [h.next_eq hfailed hrest, h.offset_eq]
  simp only [readCell, hread, hfits]
  by_cases hvalue : header + length ≤ rest.length
  · simp only [if_pos hvalue]
  · simp only [if_neg hvalue]

theorem Reads.stepsWithin {cells : List (Option Bytes × Bytes)} {front rest : Bytes}
    {r : RowReader} (h : r.Reads cells front rest)
    (hmemory : (front ++ rest).length < 2 ^ (63 : Nat)) : r.StepsWithin (front ++ rest) := by
  have hoffset := h.offset_eq
  have hdrop : (front ++ rest).drop r.offset = rest := by rw [hoffset, List.drop_left]
  have hlength : (front ++ rest).length = front.length + rest.length := List.length_append
  refine ⟨h.row_eq, by omega, by omega, fun value hvalue => ?_, fun e herror => ?_,
    fun length header hfailed hread => ?_⟩
  · obtain ⟨-, hnext⟩ | ⟨value', cell, more, -, rfl, hcell, hnext, -⟩ | ⟨e, -, -, hnext, -⟩ :=
      h.next_cases
    · rw [hnext] at hvalue
      cases hvalue
    · have hpos := hcell.length_pos
      rw [hnext] at hvalue ⊢
      cases hvalue
      have hcells : (cell ++ more).length = cell.length + more.length := List.length_append
      dsimp only
      refine ⟨by omega, by omega, ?_⟩
      rwa [hdrop, Nat.add_sub_cancel_left, List.take_left]
    · rw [hnext] at hvalue
      cases hvalue
  · obtain ⟨-, hnext⟩ | ⟨value', cell, more, -, rfl, hcell, hnext, -⟩ | ⟨e', -, hill, hnext, -⟩ :=
      h.next_cases
    · rw [hnext] at herror
      cases herror
    · rw [hnext] at herror
      cases herror
    · rw [hnext] at herror ⊢
      cases herror
      rw [hdrop, hoffset]
      refine ⟨rfl, hill, decodeRow_of_illFormed h.parses hill, fun calls => ?_⟩
      rw [after_of_failed rfl, next_of_failed rfl]
  · rw [hdrop, hoffset] at hread
    have hbounds := LengthPrefix.read_bounds hread
    refine ⟨hbounds.1, by omega, ?_⟩
    have hvalue : (front ++ rest).drop (r.offset + header) = rest.drop header := by
      rw [← List.drop_drop, hdrop]
    have hend : r.offset + header + length ≤ (front ++ rest).length ↔
        header + length ≤ rest.length := by omega
    rw [next_of_read h hfailed hread, hvalue, hlength]
    simp only [← hlength, hend]

end RowReader

/-! ## Decoding and walking -/

/-- A row is decoded exactly if it is a sequence of cells, in whatever forms and in
only one way, and otherwise the error is that of the first ill-formed cell.  A walk
reads the same cells, stays within the row and ends. -/
theorem decodeRow_grammar (row : Bytes) (hmemory : row.length < 2 ^ (63 : Nat)) :
    (∀ values, decodeRow row = .ok values ↔
      ∃ cells, Parses cells row ∧ cells.map Prod.fst = values) ∧
    (∀ cells others, Parses cells row → Parses others row → cells = others) ∧
    (∀ e, decodeRow row = .error e ↔
      ∃ cells front rest, row = front ++ rest ∧ Parses cells front ∧
        IllFormed front.length rest e) ∧
    decodeRow row = ((RowReader.start row).items row.length).mapM id ∧
    ∀ calls, ((RowReader.start row).after calls).StepsWithin row ∧
      (row.length ≤ calls → ((RowReader.start row).after calls).next.1 = none) := by
  refine ⟨fun values => decodeRow_eq_ok_iff, fun cells others => Parses.unique,
    fun e => decodeRow_eq_error_iff,
    (RowReader.reads_start row).decodeCells_eq rfl (Nat.le_refl _), fun calls =>
    ⟨?_, RowReader.next_after_eq_none⟩⟩
  obtain ⟨cells, front, rest, rfl, hreads⟩ := RowReader.exists_reads_after row calls
  exact hreads.stepsWithin hmemory

/-- A value behind an overlong length and a null are read; a cell that announces
`2 ^ 64 - 1` bytes behind them is cut off at the end of the row. -/
theorem decodeRow_grammar_overlong :
    let values : Bytes := [0xFC, 1, 0, 0x61, 0xFB]
    let row : Bytes := values ++ [0xFE, 0xFF, 0xFF, 0xFF, 0xFF, 0xFF, 0xFF, 0xFF, 0xFF]
    values.length < 2 ^ (63 : Nat) ∧ row.length < 2 ^ (63 : Nat) ∧
      decodeRow values = .ok [some [0x61], none] ∧ decodeRow row = .error (.truncated 14) ∧
      ((RowReader.start row).after 3).offset = 5 ∧
      ((RowReader.start row).after 14).next.1 = none := by
  intro values row
  have hvalues : values.length < 2 ^ (63 : Nat) := by decide
  have hrow : row.length < 2 ^ (63 : Nat) := by decide
  obtain ⟨-, -, -, hdecode, -⟩ := decodeRow_grammar values hvalues
  obtain ⟨-, -, -, herror, hwalk⟩ := decodeRow_grammar row hrow
  exact ⟨hvalues, hrow, hdecode.trans rfl, herror.trans rfl, rfl, (hwalk 14).2 (by decide)⟩

end ResultSet
